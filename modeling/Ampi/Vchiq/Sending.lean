-- SUMMARY: Every step of queue_message keeps the state of the slot transport a representation of a stream.
import Ampi.Vchiq.Moves

/-!
# Sending

Where the sender stands in `queue_message`, relative to the stream: between messages
everything written is published; inside it, one message is missing. A reservation that
fails for lack of a slot has published its padding.
-/

namespace Slots

open Layout (placed InBlocks)

/-- Where the sender stands in the stream. -/
def SenderAt (s : State) (g : Stream) : Prop :=
  (∀ k, g.taken = k + 1 → s.txData = some (g.slotOf k)) ∧
    match s.sender with
    | .idle =>
      g.published = g.frames.length ∧ s.localTxPos = .ofNat g.tx ∧ g.taken * 4096 < g.tx + 4096
    | .waiting _ =>
      g.published = g.frames.length ∧ s.localTxPos = .ofNat g.tx ∧ g.tx = g.taken * 4096
    | .filling m slot off =>
      messages (g.frames.drop g.published) = [] ∧ g.taken = g.tx / 4096 + 1 ∧
        slot = g.slotOf (g.tx / 4096) ∧ off = g.tx % 4096 ∧
        off + (Frame.message m).stride ≤ 4096 ∧ s.localTxPos = .ofNat g.tx + calcStride m.size
    | .publishing m =>
      messages (g.frames.drop g.published) = [m] ∧ s.localTxPos = .ofNat g.tx ∧
        g.taken * 4096 < g.tx + 4096
    | .fault => False

/-- The state stands for a stream. -/
def State.Sound (s : State) : Prop := ∃ g, g.dropping = none ∧ Represents s g ∧ SenderAt s g

/-- The receiver goes over one frame at most, the sender gets back one slot at most, and
takes none that it had not got back before. -/
structure Stream.Near (g g' : Stream) : Prop where
  rx : g'.rx ≤ g.rx + 4096
  available : g'.available = g.available ∨
    g'.available = g.available + 1 ∧ g.available < g.recycled
  taken : g'.taken ≤ g.available

/-- The state `s'` stands for a stream that moves lead to. -/
def Follows (s : State) (g : Stream) (s' : State) : Prop :=
  ∃ g', g'.dropping = none ∧ Represents s' g' ∧ SenderAt s' g' ∧ g.Near g' ∧
    Relation.ReflTransGen Moves (s, g) (s', g')

namespace Follows

variable {s s' s₁ : State} {g g' g₁ : Stream}

theorem sound (h : Follows s g s') : s'.Sound := by
  obtain ⟨g', hnone, hr, hs, -⟩ := h
  exact ⟨g', hnone, hr, hs⟩

theorem of_move (h : Represents s g) (hm : Move s g s' g') (hnone : g'.dropping = none)
    (hr : Represents s' g') (hs : SenderAt s' g') : Follows s g s' := by
  have hnear : g.Near g' := by
    have hnext := h.upTo_parsed_le
    have hhere : g.rx ≤ g.rx + 4096 := Nat.le_add_right _ _
    have htaken := h.taken_le
    cases hm with
    | take => exact ⟨hhere, .inl rfl, hr.taken_le⟩
    | free => exact ⟨hhere, .inr ⟨rfl, hr.available_le⟩, htaken⟩
    | advance => exact ⟨hnext, .inl rfl, htaken⟩
    | leave =>
      obtain ⟨hrx, havail, htk⟩ :=
        Stream.places_dropReference { g with rx := g.upTo g.parsed } s (g.rx / 4096)
      exact ⟨hrx.trans_le hnext, .inl havail, htk.trans_le htaken⟩
    | @release x =>
      obtain ⟨hrx, havail, htk⟩ := g.places_dropReference s (x.1 / 4096)
      exact ⟨hrx.trans_le hhere, .inl havail, htk.trans_le htaken⟩
    | _ => exact ⟨hhere, .inl rfl, htaken⟩
  exact ⟨g', hnone, hr, hs, hnear, .single ⟨h, hr, hm⟩⟩

theorem head (h : Moves (s, g) (s₁, g₁)) (hrx : g₁.rx = g.rx)
    (havail : g₁.available = g.available) (hrec : g₁.recycled = g.recycled)
    (hrest : Follows s₁ g₁ s') : Follows s g s' := by
  obtain ⟨g', hnone, hr, hs, ⟨hrx', havail', htaken'⟩, hmoves⟩ := hrest
  rw [hrx] at hrx'
  rw [havail, hrec] at havail'
  rw [havail] at htaken'
  exact ⟨g', hnone, hr, hs, ⟨hrx', havail', htaken'⟩, .head h hmoves⟩

end Follows

/-- The padding that fills up a slot. -/
theorem exists_padding {P : Nat} (hdvd : 8 ∣ P) :
    ∃ f : Frame, f.stride = 4096 - P % 4096 ∧ messages [f] = [] ∧ f.msgid = msgidPadding ∧
      f.size = .ofNat (4096 - P % 4096) - headerSize ∧
      ∀ data, f.ReadsAs ⟨f.msgid, f.size, data⟩ := by
  have hsize : (UInt32.ofNat (4096 - P % 4096) - headerSize).toNat = 4096 - P % 4096 - 8 := by
    have hheader : headerSize = .ofNat 8 := rfl
    have h8 : 8 ≤ 4096 - P % 4096 := by omega
    rw [hheader, ← UInt32.ofNat_sub h8, UInt32.toNat_ofNat']
    omega
  have hfits : (UInt32.ofNat (4096 - P % 4096) - headerSize).toNat ≤ maxMsgSize.toNat := by
    have hmax : maxMsgSize.toNat = 4088 := rfl
    omega
  refine ⟨.padding _ hfits, ?_, rfl, rfl, rfl, fun _ => ⟨rfl, rfl⟩⟩
  rw [Frame.stride_eq, Frame.size, hsize]
  omega

namespace Represents

variable {s : State} {g : Stream} {m : Message}

/-- With a permit, and at the end of a slot, the next slot is taken. -/
theorem takeSlot_follows (h : Represents s g) (hnone : g.dropping = none)
    (hfree : 0 < s.slotAvailable) (htx : g.tx = g.taken * 4096)
    (hpending : messages (g.frames.drop g.published) = []) :
    let p := State.takeSlot { s with slotAvailable := s.slotAvailable - 1 } (.ofNat g.tx)
      (calcStride m.size)
    Follows s g { p.1 with sender := .after m p.2 } := by
  have hslot : s.slotQueue (slotQueueIndexFromPos (.ofNat g.tx) &&& slotQueueMask) =
      g.slotOf g.taken := by
    rw [slotQueueIndex, htx, Nat.mul_div_cancel g.taken (by omega), h.slotQueue_taken hfree]
  have hbug : UInt32.ofNat g.tx ≠ s.slotQueueAvailable * slotSize := htx ▸ h.not_bug hfree
  have hoff : g.tx % 4096 = 0 := by omega
  have hdiv : g.tx / 4096 = g.taken := by omega
  simp only [State.takeSlot, hbug, if_false, hslot, State.reserveAt, and_slotMask, SenderPc.after]
  refine .of_move h (.take rfl) hnone { h.take hfree with }
    ⟨?_, hpending, ?_, ?_, rfl, ?_, rfl⟩
  · intro k hk
    obtain rfl : g.taken = k := Nat.succ.inj hk
    rfl
  · exact congrArg Nat.succ hdiv.symm
  · exact congrArg g.slotOf hdiv.symm
  · rw [hoff, Nat.zero_add]
    exact Frame.stride_le _

/-- `reserve_space` from a position where the message fits in the slot, or the slot
has ended. -/
theorem reserveBehind_follows (h : Represents s g) (hnone : g.dropping = none) (isBlocking : Bool)
    (hdata : ∀ k, g.taken = k + 1 → s.txData = some (g.slotOf k))
    (hpending : messages (g.frames.drop g.published) = [])
    (htaken : g.taken * 4096 < g.tx + 4096)
    (hfit : g.tx % 4096 + (Frame.message m).stride ≤ 4096) :
    let p := s.reserveBehind (.ofNat g.tx) (calcStride m.size) isBlocking
    Follows s g { p.1 with sender := .after m p.2 } := by
  have htx := h.tx_le
  intro p
  by_cases hend : g.tx % 4096 = 0
  · have hfull : g.tx = g.taken * 4096 := by omega
    have hmask : UInt32.ofNat g.tx &&& slotMask = 0 := and_slotMask_eq_zero.2 hend
    by_cases hfree : s.slotAvailable = 0
    · -- no slot: everything written so far is flushed
      have hp : p = ({ s with localTxPos := .ofNat g.tx, txPos := .ofNat g.tx },
          if isBlocking then .wait else .null) := by
        simp only [p, State.reserveBehind, if_pos hmask, if_pos hfree]
      have hsent : s.sent = messages g.frames := by
        rw [h.messages_pending, hpending, List.append_nil]
      have hflush := h.publish hsent
      rw [hp]
      cases isBlocking with
      | true =>
        exact .of_move h (.publish rfl) hnone { hflush with } ⟨hdata, rfl, rfl, hfull⟩
      | false =>
        exact .of_move h (.publish rfl) hnone { hflush with } ⟨hdata, rfl, rfl, htaken⟩
    · have hp : p = State.takeSlot { s with slotAvailable := s.slotAvailable - 1 } (.ofNat g.tx)
          (calcStride m.size) := by
        simp only [p, State.reserveBehind, if_pos hmask, if_neg hfree]
      rw [hp]
      exact h.takeSlot_follows hnone (Nat.pos_of_ne_zero hfree) hfull hpending
  · have htk : g.taken = g.tx / 4096 + 1 := by omega
    have hmask : ¬ UInt32.ofNat g.tx &&& slotMask = 0 := and_slotMask_eq_zero.not.2 hend
    have hp : p = ({ s with localTxPos := .ofNat g.tx + calcStride m.size },
        .header (g.slotOf (g.tx / 4096)) (g.tx % 4096)) := by
      simp only [p, State.reserveBehind, if_neg hmask, State.reserveAt, hdata _ htk, and_slotMask]
    rw [hp]
    exact .of_move h (.stay rfl) hnone { h with } ⟨hdata, hpending, htk, rfl, rfl, hfit, rfl⟩

/-- Padding fills the rest of the slot that was taken last. -/
theorem pad (h : Represents s g) (htaken : g.taken = g.tx / 4096 + 1) :
    ∃ f : Frame, f.stride = 4096 - g.tx % 4096 ∧ messages [f] = [] ∧
      Moves (s, g)
        (s.padSlot (g.slotOf (g.tx / 4096)) (.ofNat g.tx) (.ofNat (4096 - g.tx % 4096)),
          g.push f) := by
  have hdvd : 8 ∣ g.tx := Layout.dvd_total fun f _ => f.dvd_stride
  obtain ⟨f, hstride, hmsg, hmsgid, hsize, hreads⟩ := exists_padding hdvd
  simp only [State.padSlot, and_slotMask]
  rw [← hmsgid, ← hsize]
  have hkeep (i : Nat) (hi : i < g.tx % 4096) :
      storeHeader (s.slotData (g.slotOf (g.tx / 4096))) (g.tx % 4096) f.msgid f.size i =
        s.slotData (g.slotOf (g.tx / 4096)) i := storeHeader_of_disjoint (.inl hi)
  refine ⟨f, hstride, hmsg, h, ?_, .append htaken hkeep rfl⟩
  apply h.append htaken
  · omega
  · exact hkeep
  · rw [loadPacket_storeHeader]
    exact hreads _

end Represents

namespace State

variable {s : State} {g : Stream}

theorem follows_queueMessage (hnone : g.dropping = none) (hr : Represents s g)
    (hs : SenderAt s g) (hidle : s.sender = .idle) (m : Message) (isBlocking : Bool) :
    Follows s g (s.queueMessage m isBlocking) := by
  obtain ⟨hdata, hpc⟩ := hs
  rw [hidle] at hpc
  obtain ⟨hpub, hlocal, htaken⟩ := hpc
  have hpending := Stream.messages_drop_eq_nil hpub
  have hstride : (calcStride m.size).toNat = (Frame.message m).stride := rfl
  by_cases hpad : calcStride m.size > .ofNat (4096 - g.tx % 4096)
  · -- the rest of the slot is padded, and the next slot starts
    have hlt : 4096 - g.tx % 4096 < (Frame.message m).stride := by
      have := UInt32.lt_iff_toNat_lt.1 hpad
      rw [hstride, UInt32.toNat_ofNat'] at this
      omega
    have hle := (Frame.message m).stride_le
    have htk : g.taken = g.tx / 4096 + 1 := by
      have := hr.tx_le
      omega
    obtain ⟨f, hf, hmsg, hpadded⟩ := hr.pad htk
    have hend : (g.push f).tx = g.tx + (4096 - g.tx % 4096) := by rw [Stream.tx_push, hf]
    have hpos : UInt32.ofNat g.tx + .ofNat (4096 - g.tx % 4096) = .ofNat (g.push f).tx := by
      rw [hend, UInt32.ofNat_add]
    have hres : s.reserveSpace (calcStride m.size) isBlocking =
        reserveBehind
          (s.padSlot (g.slotOf (g.tx / 4096)) (.ofNat g.tx) (.ofNat (4096 - g.tx % 4096)))
          (.ofNat (g.push f).tx) (calcStride m.size) isBlocking := by
      simp only [reserveSpace, hlocal, slotSpace, if_pos hpad, hdata _ htk, hpos]
    rw [State.queueMessage, hres]
    apply Follows.head hpadded rfl rfl rfl
    apply hpadded.after.reserveBehind_follows hnone isBlocking hdata
    · exact (Stream.messages_drop_push hr.published_le).trans (by rw [hpending, hmsg]; rfl)
    · rw [hend]
      change g.taken * 4096 < _
      omega
    · rw [hend]
      omega
  · have hres : s.reserveSpace (calcStride m.size) isBlocking =
        s.reserveBehind (.ofNat g.tx) (calcStride m.size) isBlocking := by
      simp only [reserveSpace, hlocal, slotSpace, if_neg hpad]
    rw [State.queueMessage, hres]
    apply hr.reserveBehind_follows hnone isBlocking hdata hpending htaken
    have := UInt32.lt_iff_toNat_lt.not.1 hpad
    rw [hstride, UInt32.toNat_ofNat'] at this
    omega

theorem follows_senderStep (hnone : g.dropping = none) (hr : Represents s g)
    (hs : SenderAt s g) : Follows s g s.senderStep := by
  have hstay : Follows s g s := .of_move hr (.stay rfl) hnone hr hs
  obtain ⟨hdata, hpc⟩ := hs
  unfold State.senderStep
  match hs : s.sender with
  | .idle => exact hstay
  | .fault => exact hstay
  | .waiting m =>
    simp only [hs] at hpc
    obtain ⟨hpub, hlocal, hfull⟩ := hpc
    have hpending := Stream.messages_drop_eq_nil hpub
    dsimp only
    split
    · exact hstay
    · next hfree =>
      have hfollows := hr.takeSlot_follows (m := m) hnone (Nat.pos_of_ne_zero hfree) hfull hpending
      rw [← hlocal, hs] at hfollows
      exact hfollows
  | .filling m slot off =>
    simp only [hs] at hpc
    obtain ⟨hpending, htaken, rfl, rfl, hfit, hlocal⟩ := hpc
    have hpos : s.localTxPos - calcStride m.size = .ofNat g.tx := by
      rw [hlocal, UInt32.add_sub_cancel]
    have hkeep (i : Nat) (hi : i < g.tx % 4096) :
        storeMessage (s.slotData (g.slotOf (g.tx / 4096))) (g.tx % 4096) m i =
          s.slotData (g.slotOf (g.tx / 4096)) i := storeMessage_of_lt hi
    have hw := hr.append (f := .message m) htaken hfit hkeep loadPacket_storeMessage
    dsimp only
    rw [hpos]
    refine .of_move hr (.append (f := .message m) htaken hkeep rfl) hnone { hw with }
      ⟨hdata, ?_, ?_, ?_⟩
    · exact (Stream.messages_drop_push hr.published_le).trans (by rw [hpending]; rfl)
    · rw [Stream.tx_push, UInt32.ofNat_add, Frame.ofNat_stride]
      exact hlocal
    · have := (Frame.message m).size_add_le_stride
      rw [Stream.tx_push]
      change g.taken * 4096 < _
      omega
  | .publishing m =>
    simp only [hs] at hpc
    obtain ⟨hpending, hlocal, htaken⟩ := hpc
    have hsent : s.sent ++ [m] = messages g.frames := by rw [hr.messages_pending, hpending]
    have hpublished := hr.publish hsent
    dsimp only
    rw [hlocal]
    exact .of_move hr (.publish rfl) hnone { hpublished with } ⟨hdata, rfl, rfl, htaken⟩

end State

end Slots
