-- SUMMARY: What the steps of the slot transport add to the stream, and what its end reads as.
import Ampi.Vchiq.Framing

/-!
# Publishing

Of all the steps of the transport only those of `queue_message` add to the stream: padding at
most when space is reserved, the message when the space is filled. When `tx_pos` is moved over the
message, the receiver finds it in front of `tx_pos`.
-/

namespace Slots

open Layout (placed total)

/-- At most one header, of padding. -/
def Padding (headers : List Header) : Prop :=
  headers = [] ∨ ∃ pos size, headers = [⟨pos, msgidPadding, size⟩]

theorem Padding.msgid_eq {headers : List Header} (h : Padding headers) :
    ∀ a ∈ headers, a.msgid = msgidPadding := by
  rcases h with rfl | ⟨pos, size, rfl⟩ <;> simp

def Message.header (m : Message) (pos : UInt32) : Header := ⟨pos, m.msgid, m.size⟩

/-- An event of the other threads and of the receiver. -/
def Event.elsewhere : Event → Bool
  | .send _ _ | .sender => false
  | _ => true

namespace State

/-- The message is what `tx_pos` has been moved over last, in the slot of `tx_data`. -/
def Shows (s : State) (m : Message) : Prop :=
  ∃ slot pos, s.txPos = pos + calcStride m.size ∧ s.txPos = s.localTxPos ∧ s.txData = some slot ∧
    s.written.getLast? = some (m.header pos) ∧
    loadPacket (s.slotData slot) (pos &&& slotMask).toNat = m.packet

/-- The state stands for a stream, at the end of which is the message that is about to be
published. -/
def Ready (s : State) : Prop :=
  ∃ g, g.dropping = none ∧ Represents s g ∧ SenderAt s g ∧
    ∀ m, s.sender = .publishing m → g.frames.getLast? = some (.message m)

/-- What the sender has written, and where it stands. -/
def output (s : State) : List Header × List Message × SenderPc := (s.written, s.sent, s.sender)

theorem output_eq {s t : State} :
    t.output = s.output ↔ t.written = s.written ∧ t.sent = s.sent ∧ t.sender = s.sender := by
  simp [output]

/-! ## What each step writes -/

theorem output_enterSlot (s : State) : s.enterSlot.1.output = s.output := by
  unfold enterSlot
  split <;> rfl

theorem output_dropReference (s : State) (slot : Nat) :
    (s.dropReference slot).output = s.output := by
  unfold dropReference
  dsimp only
  split <;> rfl

theorem output_parseMessage (s : State) (txPos : UInt32) (r : Reception) :
    (s.parseMessage txPos r).output = s.output := by
  have henter := s.output_enterSlot
  unfold parseMessage
  generalize s.enterSlot = entered at henter ⊢
  obtain ⟨s₁, slot⟩ := entered
  dsimp only
  split <;> exact henter

theorem output_skipMessage (s : State) (txPos size : UInt32) :
    (s.skipMessage txPos size).output = s.output := by
  unfold skipMessage
  dsimp only
  split
  · split
    · rfl
    · exact output_dropReference ..
  · rfl

/-- Neither the other threads nor the receiver write into the stream. -/
theorem output_elsewhere (s : State) {e : Event} (he : e.elsewhere) :
    (s.step e).output = s.output := by
  cases e with
  | send | sender => cases he
  | handler r =>
    dsimp only [step]
    unfold handlerStep
    split
    · rfl
    · split
      · rfl
      · exact s.output_parseMessage _ r
    · exact s.output_skipMessage _ _
  | release slot off closing =>
    dsimp only [step]
    unfold releaseHeader
    dsimp only
    split
    · split
      · rfl
      · exact output_dropReference ..
    · rfl
  | recycle =>
    dsimp only [step]
    unfold processFreeQueue
    dsimp only
    split
    · rfl
    · split <;> rfl

theorem output_takeSlot (s : State) (txPos space : UInt32) :
    (s.takeSlot txPos space).1.output = s.output := by
  unfold takeSlot
  split <;> rfl

theorem output_reserveBehind (s : State) (txPos space : UInt32) (isBlocking : Bool) :
    (s.reserveBehind txPos space isBlocking).1.output = s.output := by
  unfold reserveBehind
  split
  · split
    · rfl
    · exact output_takeSlot _ txPos space
  · unfold reserveAt
    split <;> rfl

/-- `reserve_space` writes padding at most. -/
theorem padding_reserveSpace (s : State) (space : UInt32) (isBlocking : Bool) :
    ∃ padding, Padding padding ∧
      (s.reserveSpace space isBlocking).1.written = s.written ++ padding ∧
        (s.reserveSpace space isBlocking).1.sent = s.sent := by
  unfold reserveSpace
  dsimp only
  split
  · split
    · exact ⟨[], .inl rfl, (List.append_nil _).symm, rfl⟩
    · obtain ⟨hwritten, hsent, -⟩ := output_eq.1 (output_reserveBehind _ _ space isBlocking)
      exact ⟨_, .inr ⟨_, _, rfl⟩, hwritten, hsent⟩
  · obtain ⟨hwritten, hsent, -⟩ := output_eq.1 (output_reserveBehind s _ space isBlocking)
    exact ⟨[], .inl rfl, by rw [hwritten, List.append_nil], hsent⟩

/-- What `queue_message` has of `reserve_space`: no header, a wait, or a header. -/
def Reserved (s : State) (m : Message) : Prop :=
  s.sender = .idle ∨ s.sender = .waiting m ∨ ∃ slot off, s.sender = .filling m slot off

theorem Sound.not_fault {s : State} (h : s.Sound) : s.sender ≠ .fault := by
  intro hs
  obtain ⟨g, -, -, -, hpc⟩ := h
  rw [hs] at hpc
  exact hpc

theorem reserved_after {s : State} {m : Message} {res : Reservation}
    (h : ({ s with sender := .after m res } : State).Sound) :
    ({ s with sender := .after m res } : State).Reserved m := by
  cases res with
  | header slot off => exact .inr (.inr ⟨slot, off, rfl⟩)
  | null => exact .inl rfl
  | wait => exact .inr (.inl rfl)
  | fault => exact absurd rfl h.not_fault

theorem Reserved.not_publishing {s : State} {m : Message} (h : s.Reserved m) (m' : Message) :
    s.sender ≠ .publishing m' := by
  obtain hs | hs | ⟨slot, off, hs⟩ := h <;> rw [hs] <;> nofun

/-- `reserve_space` is called for a message. -/
theorem Sound.send {s : State} (h : s.Sound) (hidle : s.sender = .idle) (m : Message)
    (isBlocking : Bool) :
    (s.step (.send m isBlocking)).Sound ∧ (s.step (.send m isBlocking)).Reserved m ∧
      ∃ padding, Padding padding ∧
        (s.step (.send m isBlocking)).written = s.written ++ padding ∧
        (s.step (.send m isBlocking)).sent = s.sent := by
  have hsound := h.step (.send m isBlocking)
  have hstep : s.step (.send m isBlocking) = s.queueMessage m isBlocking := by
    rw [State.step, hidle]
  rw [hstep] at hsound ⊢
  exact ⟨hsound, reserved_after hsound, s.padding_reserveSpace _ isBlocking⟩

/-- A thread that waits for a slot looks for a permit. -/
theorem Sound.wait {s : State} (h : s.Sound) {m : Message} (hwait : s.sender = .waiting m) :
    (s.step .sender).Sound ∧ (s.step .sender).Reserved m ∧ (s.step .sender).written = s.written ∧
      (s.step .sender).sent = s.sent := by
  have hsound := h.step .sender
  refine ⟨hsound, ?_⟩
  let p := takeSlot { s with slotAvailable := s.slotAvailable - 1 } s.localTxPos (calcStride m.size)
  have hstep : s.step .sender =
      if s.slotAvailable = 0 then s else { p.1 with sender := .after m p.2 } := by
    change s.senderStep = _
    unfold senderStep
    split
    case h_3 m' hm' =>
      obtain rfl := SenderPc.waiting.inj (hwait.symm.trans hm')
      rfl
    all_goals
      next hs =>
        rw [hwait] at hs
        cases hs
  rw [hstep] at hsound ⊢
  split
  case isTrue => exact ⟨.inr (.inl hwait), rfl, rfl⟩
  case isFalse hfree =>
    rw [if_neg hfree] at hsound
    obtain ⟨hwritten, hsent, -⟩ := output_eq.1 (output_takeSlot
      { s with slotAvailable := s.slotAvailable - 1 } s.localTxPos (calcStride m.size))
    exact ⟨reserved_after hsound, hwritten, hsent⟩

/-- The wait for a slot is given up. -/
theorem Sound.giveUp {s : State} (h : s.Sound) {m : Message} (hwait : s.sender = .waiting m) :
    ({ s with sender := .idle } : State).Sound := by
  obtain ⟨g, hnone, hr, hdata, hpc⟩ := h
  rw [hwait] at hpc
  obtain ⟨hpublished, hlocal, hfull⟩ := hpc
  exact ⟨g, hnone, { hr with }, hdata, hpublished, hlocal, by omega⟩

end State

/-! ## The end of the stream -/

variable {s : State} {m : Message}

/-- The stream only gets longer. -/
theorem Follows.exists_longer {g : Stream} {s' : State} (h : Follows s g s') :
    ∃ g', g'.dropping = none ∧ Represents s' g' ∧ SenderAt s' g' ∧ g.frames <+: g'.frames := by
  obtain ⟨g', hnone, hr, hs, -, hmoves⟩ := h
  refine ⟨g', hnone, hr, hs, ?_⟩
  have hdrop (g₁ : Stream) (s₁ : State) (k : Nat) : (g₁.dropReference s₁ k).frames = g₁.frames := by
    unfold Stream.dropReference
    split <;> rfl
  refine Moves.keep (I := fun _ g' => g.frames <+: g'.frames) ?_ hmoves List.prefix_rfl
  intro s₁ g₁ s₂ g₂ _ _ hmove hprefix
  cases hmove with
  | append => exact hprefix.trans (List.prefix_append ..)
  | leave | release =>
    rw [hdrop]
    exact hprefix
  | _ => exact hprefix

namespace State

theorem Ready.sound (h : s.Ready) : s.Sound := by
  obtain ⟨g, hnone, hr, hs, -⟩ := h
  exact ⟨g, hnone, hr, hs⟩

theorem Sound.ready (h : s.Sound) (hs : ∀ m, s.sender ≠ .publishing m) : s.Ready := by
  obtain ⟨g, hnone, hr, hsender⟩ := h
  exact ⟨g, hnone, hr, hsender, fun m hm => absurd hm (hs m)⟩

theorem length_written {g : Stream} (hr : Represents s g) : g.frames.length = s.written.length := by
  have hplaced (pos : Nat) (l : List Frame) : (placed Frame.stride pos l).length = l.length := by
    induction l generalizing pos with
    | nil => rfl
    | cons f l ih => rw [Layout.placed, List.length_cons, List.length_cons, ih]
  rw [hr.written, List.length_map, hplaced]

/-- A step that writes nothing leaves the stream as it is. -/
theorem Ready.elsewhere (h : s.Ready) {e : Event} (he : e.elsewhere) : (s.step e).Ready := by
  obtain ⟨g, hnone, hr, hs, hlast⟩ := h
  obtain ⟨g', hnone', hr', hs', hprefix⟩ := (follows_step hnone hr hs e).exists_longer
  obtain ⟨hwritten, -, hsender⟩ := output_eq.1 (s.output_elsewhere he)
  have hframes : g.frames = g'.frames := by
    refine hprefix.eq_of_length ?_
    rw [length_written hr, length_written hr', hwritten]
  refine ⟨g', hnone', hr', hs', ?_⟩
  rw [hsender, ← hframes]
  exact hlast

/-- The message is filled in. -/
theorem Ready.fill (h : s.Ready) {slot off : Nat} (hs : s.sender = .filling m slot off) :
    s.senderStep.Ready := by
  obtain ⟨g, hnone, hr, hsender, -⟩ := h
  obtain ⟨g', hnone', hr', hsender', t, ht⟩ :=
    (follows_senderStep hnone hr hsender).exists_longer
  have hstep : s.senderStep.sender = .publishing m ∧ s.senderStep.sent = s.sent ∧
      s.senderStep.written.length = s.written.length + 1 := by
    rw [senderStep, hs]
    exact ⟨rfl, rfl, List.length_append⟩
  obtain ⟨hpc, hsent, hlength⟩ := hstep
  -- the one frame that is new is the one message that is not published
  have hone : t.length = 1 := by
    have hlen := congrArg List.length ht
    rw [List.length_append, length_written hr, length_written hr', hlength] at hlen
    omega
  have hpending : messages (g.frames.drop g.published) = [] := by
    have hat := hsender.2
    rw [hs] at hat
    exact hat.1
  have hpending' : messages (g'.frames.drop g'.published) = [m] := by
    have hat := hsender'.2
    rw [hpc] at hat
    exact hat.1
  have hmessages : messages t = [m] := by
    have hold := hr.messages_pending
    have hnew := hr'.messages_pending
    rw [hpending, List.append_nil] at hold
    rw [hpending', hsent, ← hold, ← ht, messages_append] at hnew
    exact List.append_cancel_left hnew
  refine ⟨g', hnone', hr', hsender', fun m' hm' => ?_⟩
  obtain rfl : m = m' := by
    rw [hpc] at hm'
    exact SenderPc.publishing.inj hm'
  obtain ⟨f, rfl⟩ := List.length_eq_one_iff.1 hone
  cases f with
  | message m' =>
    obtain rfl : m' = m := by simpa [messages, Frame.message?] using hmessages
    rw [← ht, List.getLast?_concat]
  | padding size fits =>
    have hnil : messages [.padding size fits] = [] := rfl
    rw [hnil] at hmessages
    cases hmessages

/-- The message comes before the new `tx_pos`. -/
theorem Ready.shows (h : s.Ready) (hs : s.sender = .publishing m) : s.senderStep.Shows m := by
  obtain ⟨g, hnone, hr, hsender, hlast⟩ := h
  obtain ⟨hdata, hpc⟩ := hsender
  rw [hs] at hpc
  obtain ⟨hpending, hlocal, htaken⟩ := hpc
  obtain ⟨before, hframes⟩ : ∃ before, g.frames = before ++ [.message m] :=
    List.getLast?_eq_some_iff.1 (hlast m hs)
  have htx : g.tx = total Frame.stride before + (Frame.message m).stride := by
    rw [Stream.tx, hframes, Layout.total_append]
    rfl
  have hparsed : g.parsed ≤ before.length := by
    have hle := hr.parsed_le
    have hlen : g.published ≠ g.frames.length := by
      intro heq
      rw [Stream.messages_drop_eq_nil heq] at hpending
      cases hpending
    have hpub := hr.published_le
    rw [hframes, List.length_append, List.length_singleton] at hlen hpub
    omega
  have hplaced (pos : Nat) (l : List Frame) :
      (pos + total Frame.stride l, Frame.message m) ∈
        placed Frame.stride pos (l ++ [.message m]) := by
    simp [placed]
  have hlastPlaced := hplaced 0 before
  rw [← hframes, Nat.zero_add] at hlastPlaced
  have hunread : (total Frame.stride before, Frame.message m) ∈
      placed Frame.stride (g.upTo g.parsed) (g.frames.drop g.parsed) := by
    have hsum := Layout.total_take_add_drop Frame.stride before g.parsed
    have hmem := hplaced (g.upTo g.parsed) (before.drop g.parsed)
    rw [Stream.upTo, hframes, List.take_append_of_le_length hparsed, hsum,
      ← List.drop_append_of_le_length hparsed, ← hframes] at hmem
    rwa [Stream.upTo, hframes, List.take_append_of_le_length hparsed, ← hframes]
  have hblock := hr.inBlocks _ hlastPlaced
  have hstride := (Frame.message m).size_add_le_stride
  have htxle := hr.tx_le
  have hslot : g.taken = total Frame.stride before / 4096 + 1 := by
    dsimp only at hblock
    omega
  have hstep : s.senderStep =
      { s with txPos := s.localTxPos, sent := s.sent ++ [m], sender := .idle } := by
    rw [senderStep, hs]
  rw [hstep]
  refine ⟨_, .ofNat (total Frame.stride before), ?_, rfl, hdata _ hslot, ?_, ?_⟩
  · change s.localTxPos = _
    rw [hlocal, htx, UInt32.ofNat_add, Frame.ofNat_stride]
    rfl
  · change s.written.getLast? = _
    rw [hr.written, hframes, Layout.placed_append, List.map_append, Nat.zero_add]
    exact List.getLast?_concat
  · rw [and_slotMask]
    exact hr.unread _ hunread

end State

end Slots
