-- SUMMARY: The receiver of a slot transport sees exactly the messages that were sent, for every run of all parties.
import Ampi.Vchiq.Receiving

/-!
# Framing

The messages put into the slots by `queue_message` come out of `parse_rx_slots` as they
went in: the same `msgid`, size and bytes, in order, each once, with PADDING headers in
between. Positions wrap, slots are used again in any order, and reservations may fail.
-/

namespace Slots

open Layout (placed)

/-- The packets `sent`, with PADDING headers anywhere in between. -/
inductive Interleaved : (seen sent : List Packet) → Prop where
  | nil : Interleaved [] []
  | message {seen sent : List Packet} (p : Packet) :
    Interleaved seen sent → Interleaved (p :: seen) (p :: sent)
  | padding {seen sent : List Packet} {p : Packet} :
    msgType p.msgid = msgPadding → Interleaved seen sent → Interleaved (p :: seen) sent

theorem interleaved_of_readsAs {frames : List Frame} {seen : List Packet}
    (h : List.Forall₂ Frame.ReadsAs frames seen) :
    Interleaved seen ((messages frames).map Message.packet) := by
  induction h with
  | nil => exact .nil
  | @cons f p frames seen hp _ ih =>
    cases f with
    | message m =>
      obtain rfl : p = m.packet := hp
      exact .message m.packet ih
    | padding size fits =>
      apply Interleaved.padding
      · rw [hp.1]
        rfl
      · exact ih

/-- What holds of a slot transport in every state that it reaches. -/
structure Framed (s : State) : Prop where
  /-- The packets seen are a first part of the messages sent; all of them have been seen
  once the receiver has reached `tx_pos`. -/
  received : ∃ delivered, delivered <+: s.sent.map Message.packet ∧ Interleaved s.seen delivered ∧
    (s.rxPos = s.txPos → delivered = s.sent.map Message.packet)
  /-- The receiver gets there if it goes on. -/
  drained : ∃ n, Interleaved (s.run (List.replicate n (.handler .accept))).seen
    (s.sent.map Message.packet)
  /-- Every header, padding or not, fits in its slot with its data. -/
  header : ∀ h ∈ s.written, 8 ∣ h.pos.toNat ∧
    (h.pos &&& slotMask).toNat + headerSize.toNat + h.size.toNat ≤ slotSize.toNat
  positions : 8 ∣ s.localTxPos.toNat ∧ 8 ∣ s.txPos.toNat ∧ 8 ∣ s.rxPos.toNat
  /-- The next slot for `process_free_queue` is walked exactly to its end. -/
  walked : s.slotQueueAvailable ≠ s.slotQueueRecycle →
    walk (s.slotData (s.slotQueue (s.slotQueueAvailable &&& slotQueueMask))) walkFuel 0 =
      some slotSize
  no_fault : s.sender ≠ .fault

theorem dvd_toNat_ofNat {P : Nat} (h : 8 ∣ P) : 8 ∣ (UInt32.ofNat P).toNat := by
  rw [UInt32.toNat_ofNat']
  omega

namespace Represents

variable {s : State} {g : Stream}

/-- The positions of both sides are less than a wrap apart. -/
theorem upTo_published_lt (h : Represents s g) : g.upTo g.published < g.rx + 2 ^ 32 := by
  have := g.upTo_le_tx g.published
  have := h.tx_le
  have := h.taken_le
  have := h.available_le
  have := h.recycled_le_add
  omega

theorem rx_le_published (h : Represents s g) : g.rx ≤ g.upTo g.published :=
  h.rx_le.trans (g.upTo_mono h.parsed_le)

/-- A receiver that has reached `tx_pos` has handled all that is published. -/
theorem parsed_eq (h : Represents s g) (hpos : s.rxPos = s.txPos) : g.parsed = g.published := by
  rw [h.rxPos, h.txPos, ofNat_eq_ofNat h.rx_le_published h.upTo_published_lt] at hpos
  apply Nat.le_antisymm h.parsed_le
  by_contra hlt
  have := g.upTo_lt (Nat.lt_of_not_le hlt) h.published_le
  have := h.rx_le
  omega

theorem received (h : Represents s g) :
    ∃ delivered, delivered <+: s.sent.map Message.packet ∧ Interleaved s.seen delivered ∧
      (s.rxPos = s.txPos → delivered = s.sent.map Message.packet) := by
  refine ⟨(messages (g.frames.take g.parsed)).map Message.packet, ?_,
    interleaved_of_readsAs h.seen, ?_⟩
  · rw [h.sent]
    have htake : g.frames.take g.parsed <+: g.frames.take g.published :=
      List.take_prefix_take_left h.parsed_le
    exact (htake.filterMap _).map _
  · intro hpos
    rw [h.sent, h.parsed_eq hpos]

theorem header (h : Represents s g) : ∀ a ∈ s.written, 8 ∣ a.pos.toNat ∧
    (a.pos &&& slotMask).toNat + headerSize.toNat + a.size.toNat ≤ slotSize.toNat := by
  intro a ha
  rw [h.written] at ha
  obtain ⟨x, hx, rfl⟩ := List.mem_map.1 ha
  obtain ⟨n, -, hpos⟩ := Layout.exists_getElem?_of_placed hx
  have hdvd : 8 ∣ x.1 := by
    rw [hpos, Nat.zero_add]
    exact g.dvd_upTo n
  have hblock := h.inBlocks x hx
  have hsize := x.2.size_add_le_stride
  have hheader : headerSize.toNat = 8 := rfl
  have hslot : slotSize.toNat = 4096 := rfl
  refine ⟨dvd_toNat_ofNat hdvd, ?_⟩
  dsimp only
  rw [and_slotMask, hheader, hslot]
  omega

theorem walked (h : Represents s g) (hne : s.slotQueueAvailable ≠ s.slotQueueRecycle) :
    walk (s.slotData (s.slotQueue (s.slotQueueAvailable &&& slotQueueMask))) walkFuel 0 =
      some slotSize := by
  have hfin := h.finished_le
  have htaken := h.taken_le
  have hring := h.recycled_le_add
  have hlt : g.available < g.recycled := by
    apply Nat.lt_of_le_of_ne h.available_le
    intro heq
    apply hne
    rw [h.slotQueueAvailable, h.slotQueueRecycle, heq]
  rw [h.slotQueueAvailable, and_slotQueueMask, h.entry _ hlt (by omega)]
  exact h.freed _ le_rfl hlt

theorem positions (h : Represents s g) (hs : SenderAt s g) :
    8 ∣ s.localTxPos.toNat ∧ 8 ∣ s.txPos.toNat ∧ 8 ∣ s.rxPos.toNat := by
  have htx : 8 ∣ g.tx := g.upTo_length ▸ g.dvd_upTo _
  refine ⟨?_, ?_, ?_⟩
  · obtain ⟨-, hpc⟩ := hs
    match hsender : s.sender with
    | .idle =>
      simp only [hsender] at hpc
      exact hpc.2.1 ▸ dvd_toNat_ofNat htx
    | .waiting m =>
      simp only [hsender] at hpc
      exact hpc.2.1 ▸ dvd_toNat_ofNat htx
    | .filling m slot off =>
      simp only [hsender] at hpc
      obtain ⟨-, -, -, -, -, hlocal⟩ := hpc
      have hstride : _ = calcStride m.size := Frame.ofNat_stride (.message m)
      rw [hlocal, ← hstride, ← UInt32.ofNat_add]
      exact dvd_toNat_ofNat (Nat.dvd_add htx (Frame.dvd_stride _))
    | .publishing m =>
      simp only [hsender] at hpc
      exact hpc.2.1 ▸ dvd_toNat_ofNat htx
    | .fault => simp only [hsender] at hpc
  · exact h.txPos ▸ dvd_toNat_ofNat (g.dvd_upTo _)
  · exact h.rxPos ▸ dvd_toNat_ofNat h.dvd_rx

end Represents

namespace State

variable {s : State} {r : Reception}

/-! ## The receiver gets to the end -/

theorem enterSlot_fields (s : State) : s.enterSlot.1.txPos = s.txPos ∧
    s.enterSlot.1.rxPos = s.rxPos ∧ s.enterSlot.1.sent = s.sent ∧
    s.enterSlot.1.sender = s.sender := by
  unfold enterSlot
  split
  · exact ⟨rfl, rfl, rfl, rfl⟩
  · exact ⟨rfl, rfl, rfl, rfl⟩

theorem dropReference_fields (s : State) (slot : Nat) : (s.dropReference slot).txPos = s.txPos ∧
    (s.dropReference slot).rxPos = s.rxPos ∧ (s.dropReference slot).sent = s.sent ∧
    (s.dropReference slot).sender = s.sender ∧ (s.dropReference slot).handler = s.handler := by
  unfold dropReference
  dsimp only
  split
  · exact ⟨rfl, rfl, rfl, rfl, rfl⟩
  · exact ⟨rfl, rfl, rfl, rfl, rfl⟩

theorem parseMessage_fields (s : State) (txPos : UInt32) (r : Reception) :
    (s.parseMessage txPos r).txPos = s.txPos ∧ (s.parseMessage txPos r).rxPos = s.rxPos ∧
      (s.parseMessage txPos r).sent = s.sent ∧ (s.parseMessage txPos r).sender = s.sender := by
  have henter := s.enterSlot_fields
  unfold parseMessage
  generalize s.enterSlot = entered at henter ⊢
  obtain ⟨s1, slot⟩ := entered
  dsimp only
  split
  · exact henter
  · exact henter
  · exact henter

theorem skipMessage_fields (s : State) (txPos size : UInt32) :
    (s.skipMessage txPos size).txPos = s.txPos ∧
      (s.skipMessage txPos size).rxPos = s.rxPos + calcStride size ∧
      (s.skipMessage txPos size).sent = s.sent ∧
      (s.skipMessage txPos size).sender = s.sender ∧
      (s.skipMessage txPos size).handler = .parsing txPos := by
  unfold skipMessage
  dsimp only
  split
  · split
    · exact ⟨rfl, rfl, rfl, rfl, rfl⟩
    · exact dropReference_fields ..
  · exact ⟨rfl, rfl, rfl, rfl, rfl⟩

/-- The slot handler changes nothing that the sender owns. -/
theorem handlerStep_fields (s : State) (r : Reception) :
    (s.handlerStep r).txPos = s.txPos ∧ (s.handlerStep r).sent = s.sent ∧
      (s.handlerStep r).sender = s.sender := by
  unfold handlerStep
  split
  · exact ⟨rfl, rfl, rfl⟩
  · split
    · exact ⟨rfl, rfl, rfl⟩
    · obtain ⟨htx, -, hsent, hsender⟩ := s.parseMessage_fields _ r
      exact ⟨htx, hsent, hsender⟩
  · obtain ⟨htx, -, hsent, hsender, -⟩ := s.skipMessage_fields _ _
    exact ⟨htx, hsent, hsender⟩

/-- What is left to do for a slot handler that has to put nothing off. -/
def effort (s : State) : Nat :=
  4 * (s.txPos - s.rxPos).toNat +
    match s.handler with
    | .skipping _ _ => 0
    | .parsing txPos => if s.rxPos = txPos then 3 else 1
    | .idle => 2

theorem effort_lt (h : s.Sound) (hne : s.rxPos ≠ s.txPos) :
    (s.handlerStep .accept).effort < s.effort := by
  obtain ⟨g, -, hr, -⟩ := h
  unfold handlerStep
  split
  · next hpc => simp [effort, hpc, hne]
  · next txPos hpc =>
    split
    · next heq => simp [effort, hpc, heq]
    · next hbehind =>
      obtain ⟨htx, hrx, -⟩ := s.parseMessage_fields txPos .accept
      have hskip : ∃ size, (s.parseMessage txPos .accept).handler = .skipping txPos size :=
        ⟨_, rfl⟩
      obtain ⟨size, hskip⟩ := hskip
      simp [effort, hpc, hbehind, htx, hrx, hskip]
  · next txPos size hpc =>
    have hskipping := hr.handler
    simp only [HandlerAt, hpc] at hskipping
    obtain ⟨-, n, f, hparsed, hf, hrx, rfl, -⟩ := hskipping
    have hnext : g.upTo g.parsed = g.rx + f.stride := by rw [hparsed, g.upTo_succ hf, hrx]
    have hstride := f.size_add_le_stride
    have hle := g.upTo_mono hr.parsed_le
    have hlt := hr.upTo_published_lt
    have hpos : s.rxPos + calcStride f.size = .ofNat (g.upTo g.parsed) := by
      rw [hnext, UInt32.ofNat_add, hr.rxPos, Frame.ofNat_stride]
    obtain ⟨htx', hrx', -, -, hpc'⟩ := s.skipMessage_fields txPos f.size
    have hbefore := toNat_ofNat_sub hr.rx_le_published hlt
    have hafter := toNat_ofNat_sub hle (by omega)
    rw [effort, effort, htx', hrx', hpc', hpc, hpos, hr.txPos, hr.rxPos, hbefore, hafter]
    dsimp only
    split
    · omega
    · omega

theorem run_handler_sent (s : State) (n : Nat) :
    (s.run (List.replicate n (.handler r))).sent = s.sent := by
  induction n generalizing s with
  | zero => rfl
  | succ n ih => exact (ih (s.handlerStep r)).trans (s.handlerStep_fields r).2.1

theorem Sound.run (h : s.Sound) (es : List Event) : (s.run es).Sound :=
  Machine.run_invariant (fun _ e hs => hs.step e) es h

theorem Sound.exists_caught_up (h : s.Sound) :
    ∃ n, (s.run (List.replicate n (.handler .accept))).rxPos =
      (s.run (List.replicate n (.handler .accept))).txPos := by
  induction heff : s.effort using Nat.strong_induction_on generalizing s with
  | _ effort ih =>
    subst heff
    by_cases hpos : s.rxPos = s.txPos
    · exact ⟨0, hpos⟩
    · obtain ⟨n, hn⟩ := ih _ (effort_lt h hpos) (h.step (.handler .accept)) rfl
      exact ⟨n + 1, hn⟩

theorem Sound.framed (h : s.Sound) : Framed s := by
  have hdrained : ∃ n, Interleaved (s.run (List.replicate n (.handler .accept))).seen
      (s.sent.map Message.packet) := by
    obtain ⟨n, hn⟩ := h.exists_caught_up
    obtain ⟨g, -, hr, -⟩ := h.run (List.replicate n (.handler .accept))
    obtain ⟨delivered, -, hseen, hall⟩ := hr.received
    refine ⟨n, ?_⟩
    rwa [hall hn, run_handler_sent] at hseen
  obtain ⟨g, -, hr, hs⟩ := h
  refine ⟨hr.received, hdrained, hr.header, hr.positions hs, hr.walked, ?_⟩
  intro hfault
  have hpc := hs.2
  simp only [hfault] at hpc

theorem represents_init (r : SlotRange) (slotData : Nat → Block) :
    Represents (init r slotData) (.init r) := by
  have hcount : r.count ≤ 64 := r.fits
  refine
    { inBlocks := nofun, parsed_le := le_rfl, published_le := le_rfl, tx_le := Nat.zero_le _
      taken_le := Nat.zero_le _, available_le := le_rfl, txPos := rfl, rxPos := rfl
      slotQueueRecycle := rfl, slotQueueAvailable := rfl, slotAvailable := Nat.zero_add _
      released_lt := nofun, recycled_le := hcount, entry := ?_, distinct := ?_, size_at := nofun
      unread := nofun, freed := ?_, held_at := nofun, finished := ?_, dropping := nofun
      entered := nofun
      not_entered := fun _ => rfl, handler := rfl, sent := rfl, written := rfl
      seen := .nil }
  · intro k hk _
    change k < r.count at hk
    have hnat : (UInt32.ofNat (k % 64)).toNat = k := by
      rw [UInt32.toNat_ofNat']
      omega
    simp only [init, Stream.init, hnat, if_pos hk]
  · intro i _ j _ _ _ heq
    exact Nat.add_left_cancel heq
  · intro k hk hkr
    exact absurd hkr hk.not_gt
  · intro k hk
    change k < 0 / 4096 at hk
    rw [Nat.zero_div] at hk
    cases hk

theorem senderAt_init (r : SlotRange) (slotData : Nat → Block) :
    SenderAt (init r slotData) (.init r) :=
  ⟨nofun, rfl, rfl, by simp [Stream.init, Stream.tx]⟩

theorem sound_init (r : SlotRange) (slotData : Nat → Block) : (init r slotData).Sound :=
  ⟨.init r, rfl, represents_init r slotData, senderAt_init r slotData⟩

/-- For every run of both sides, from slots with any contents. -/
theorem framing_round_trip (r : SlotRange) (slotData : Nat → Block) (es : List Event) :
    Framed ((init r slotData).run es) :=
  ((sound_init r slotData).run es).framed

end State

end Slots
