-- SUMMARY: The CLAIMED bits in the slots are exactly the headers that services hold.
import Ampi.Vchiq.Conservation

/-!
# Marks

A header that has been read keeps its words, but for the bit `VCHIQ_MSGID_CLAIMED`, which
says that a service holds it. This goes on when its slot has been given back, up to the
time when the sender may write into the slot again.
-/

namespace Slots

open Layout (placed)

/-- Where a frame of the stream has its header. -/
def Stream.headerOf (g : Stream) (x : Nat × Frame) : Nat × Nat :=
  (g.slotOf (x.1 / 4096), x.1 % 4096)

/-- The sender has not got the slot of the use back. -/
def Stream.Current (g : Stream) (k : Nat) : Prop :=
  ∀ j, k < j → j < g.available → g.slotOf j ≠ g.slotOf k

/-- The word with the bit of a header that is held. -/
def claimedIf (held : Prop) [Decidable held] (msgid : UInt32) : UInt32 :=
  if held then msgid ||| msgidClaimed else msgid

theorem claimedIf_congr {p q : Prop} [Decidable p] [Decidable q] (h : p ↔ q) (msgid : UInt32) :
    claimedIf p msgid = claimedIf q msgid := if_congr h rfl rfl

structure Marked (s : State) (g : Stream) : Prop where
  nodup : s.held.Nodup
  word : ∀ x ∈ placed Frame.stride 0 (g.frames.take g.parsed), g.Current (x.1 / 4096) →
    (s.slotData (g.headerOf x).1).loadWord (g.headerOf x).2 =
      claimedIf (g.headerOf x ∈ s.held) x.2.msgid
  size : ∀ x ∈ placed Frame.stride 0 (g.frames.take g.parsed), g.Current (x.1 / 4096) →
    (s.slotData (g.headerOf x).1).loadWord ((g.headerOf x).2 + 4) = x.2.size
  data : ∀ x ∈ placed Frame.stride 0 (g.frames.take g.parsed), g.Current (x.1 / 4096) →
    g.headerOf x ∈ s.held → msgType x.2.msgid = msgData

variable {r : SlotRange} {s s' : State} {g g' : Stream} {x y : Nat × Frame} {k : Nat}

/-! ## The bit -/

/-- A DATA message has no bit of its own at the place. -/
theorem and_msgidClaimed_of_data {msgid : UInt32} (h : msgType msgid = msgData) :
    msgid &&& msgidClaimed = 0 := by
  have htype : msgid.toNat >>> 24 = 5 := congrArg UInt32.toNat h
  have hbit : msgid.toNat.testBit 30 = false := by
    have hshift := Nat.testBit_shiftRight msgid.toNat (i := 24) (j := 6)
    rw [htype] at hshift
    exact hshift.symm
  have hclaimed : msgidClaimed.toNat = 2 ^ 30 := rfl
  apply UInt32.toNat_inj.1
  rw [UInt32.toNat_and, hclaimed, Nat.and_two_pow, hbit]
  rfl

theorem or_and_msgidClaimed (msgid : UInt32) :
    (msgid ||| msgidClaimed) &&& msgidClaimed = msgidClaimed := by
  apply UInt32.toBitVec_inj.1
  ext i hi
  simp only [UInt32.toBitVec_and, UInt32.toBitVec_or, BitVec.getElem_and, BitVec.getElem_or]
  cases msgidClaimed.toBitVec[i] <;> simp

/-- Clearing the bit undoes setting it. -/
theorem or_and_not_msgidClaimed {msgid : UInt32} (h : msgid &&& msgidClaimed = 0) :
    (msgid ||| msgidClaimed) &&& ~~~msgidClaimed = msgid := by
  apply UInt32.toBitVec_inj.1
  ext i hi
  have hi' := congrArg (fun w => w.toBitVec[i]) h
  simp only [UInt32.toBitVec_and, UInt32.toBitVec_or, UInt32.toBitVec_not, BitVec.getElem_and,
    BitVec.getElem_or, BitVec.getElem_not] at hi' ⊢
  cases hb : msgidClaimed.toBitVec[i] with
  | false => simp
  | true =>
    rw [hb] at hi'
    simpa using hi'.symm

theorem loadWord_update {slotData : Nat → Block} {slot slot' off : Nat} {b : Block}
    (h : slot' = slot → b.loadWord off = (slotData slot).loadWord off) :
    (Function.update slotData slot b slot').loadWord off = (slotData slot').loadWord off := by
  by_cases heq : slot' = slot
  · rw [heq, Function.update_self, h heq]
  · rw [Function.update_of_ne heq]

namespace Represents

/-- Live uses are current. -/
theorem current_of_live (h : Represents s g) (hg : g.Conserved r) (hk : k < g.recycled)
    (hlive : k ∉ g.released) : g.Current k := by
  intro j hkj hj
  exact hg.latest k hk hlive j hkj (hj.trans_le h.available_le)

/-- Frames of current uses do not overlap. -/
theorem apart (h : Represents s g) (hx : x ∈ placed Frame.stride 0 g.frames)
    (hxk : g.Current (x.1 / 4096)) (hy : y ∈ placed Frame.stride 0 g.frames)
    (hyk : g.Current (y.1 / 4096)) (hslot : g.slotOf (x.1 / 4096) = g.slotOf (y.1 / 4096)) :
    x = y ∨ x.1 % 4096 + x.2.stride ≤ y.1 % 4096 ∨ y.1 % 4096 + y.2.stride ≤ x.1 % 4096 := by
  have htaken := h.taken_le
  have hxt := h.slot_lt_taken hx
  have hyt := h.slot_lt_taken hy
  have huse : x.1 / 4096 = y.1 / 4096 := by
    by_contra hne
    rcases Nat.lt_or_gt_of_ne hne with hlt | hlt
    · exact hxk _ hlt (by omega) hslot.symm
    · exact hyk _ hlt (by omega) hslot
  refine (Layout.apart_of_placed hx hy).imp_right fun hapart => ?_
  omega

/-- Two headers of current uses are at different places. -/
theorem headerOf_inj (h : Represents s g) (hx : x ∈ placed Frame.stride 0 g.frames)
    (hxk : g.Current (x.1 / 4096)) (hy : y ∈ placed Frame.stride 0 g.frames)
    (hyk : g.Current (y.1 / 4096)) (heq : g.headerOf x = g.headerOf y) : x = y := by
  obtain ⟨hslot, hoff⟩ := Prod.mk.inj heq
  have hxsize := x.2.size_add_le_stride
  have hysize := y.2.size_add_le_stride
  rcases h.apart hx hxk hy hyk hslot with heq | hlt | hlt
  · exact heq
  · omega
  · omega

/-- Writing the `msgid` of a header changes no other header. -/
theorem loadWord_writeMsgid (h : Represents s g) {w : UInt32} {off : Nat}
    (hx : x ∈ placed Frame.stride 0 g.frames) (hxk : g.Current (x.1 / 4096))
    (hy : y ∈ placed Frame.stride 0 g.frames) (hyk : g.Current (y.1 / 4096))
    (hoff : off = y.1 % 4096 ∧ x ≠ y ∨ off = y.1 % 4096 + 4) :
    (Function.update s.slotData (g.headerOf x).1
        ((s.slotData (g.headerOf x).1).storeWord (g.headerOf x).2 w)
        (g.headerOf y).1).loadWord off =
      (s.slotData (g.headerOf y).1).loadWord off := by
  apply loadWord_update
  intro hslot
  have hxsize := x.2.size_add_le_stride
  have hysize := y.2.size_add_le_stride
  apply Block.loadWord_congr
  intro i hlo hhi
  apply Block.storeWord_of_disjoint
  change i < x.1 % 4096 ∨ x.1 % 4096 + 4 ≤ i
  rcases h.apart hx hxk hy hyk hslot.symm with rfl | hlt | hlt
  · have hsize := hoff.resolve_left fun hself => hself.2 rfl
    omega
  · omega
  · omega

/-- A frame of a current use in the slot that the sender writes into lies before its end. -/
theorem end_le_tx (h : Represents s g) (htaken : g.taken = g.tx / 4096 + 1)
    (hx : x ∈ placed Frame.stride 0 (g.frames.take g.parsed)) (hxk : g.Current (x.1 / 4096))
    (hslot : g.slotOf (x.1 / 4096) = g.slotOf (g.tx / 4096)) :
    x.1 % 4096 + x.2.stride ≤ g.tx % 4096 := by
  have hxt := h.slot_lt_taken (mem_of_read hx)
  have hle := h.taken_le
  have huse : x.1 / 4096 = g.tx / 4096 := by
    by_contra hne
    exact hxk (g.tx / 4096) (by omega) (by omega) hslot.symm
  have hend := Layout.end_le_of_placed (mem_of_read hx)
  rw [Nat.zero_add] at hend
  change _ ≤ g.tx at hend
  omega

/-- The frame that the receiver is at, with its words as they were sent. -/
theorem next (h : Represents s g) {f : Frame} (hf : g.frames[g.parsed]? = some f)
    (hrx : g.rx = g.upTo g.parsed) :
    (g.rx, f) ∈ placed Frame.stride 0 (g.frames.take (g.parsed + 1)) ∧
      (s.slotData (g.slotOf (g.rx / 4096))).loadWord (g.rx % 4096) = f.msgid ∧
      (s.slotData (g.slotOf (g.rx / 4096))).loadWord (g.rx % 4096 + 4) = f.size := by
  have hreads : f.ReadsAs (loadPacket (s.slotData (g.slotOf (g.rx / 4096))) (g.rx % 4096)) := by
    rw [hrx]
    apply h.unread (g.upTo g.parsed, f)
    rw [List.drop_eq_getElem?_toList_append, hf]
    exact List.mem_cons_self
  refine ⟨?_, hreads.msgid_eq, hreads.size_eq⟩
  rw [List.take_add_one, hf, Layout.placed_append, Nat.zero_add, hrx]
  exact List.mem_append_right _ List.mem_cons_self

/-- No service holds the header that the receiver is at. -/
theorem next_notMem_held (h : Represents s g) (hrx : g.rx = g.upTo g.parsed)
    (hlt : g.rx / 4096 < g.taken) : (g.slotOf (g.rx / 4096), g.rx % 4096) ∉ s.held := by
  intro hmem
  obtain ⟨x, hx, hlive, heq⟩ := h.held_at _ hmem
  obtain ⟨hslot, hoff⟩ := Prod.mk.inj heq
  have htaken := h.taken_le
  have havail := h.available_le
  have hxt := h.slot_lt_taken (mem_of_read hx)
  have huse := h.distinct _ (by omega) _ (by omega) (h.not_released le_rfl) hlive hslot
  have hend := Layout.end_le_of_placed hx
  have hsize := x.2.size_add_le_stride
  rw [Nat.zero_add] at hend
  change _ ≤ g.upTo g.parsed at hend
  omega

end Represents

namespace Marked

theorem congr (h : Marked s g) (hdata : s'.slotData = s.slotData) (hheld : s'.held = s.held) :
    Marked s' g := by
  refine ⟨hheld ▸ h.nodup, ?_, ?_, ?_⟩
  · rw [hdata, hheld]
    exact h.word
  · rw [hdata]
    exact h.size
  · rw [hheld]
    exact h.data

theorem of_core (h : Marked s g) (hcore : s'.core = s.core) : Marked s' g := by
  obtain ⟨hdata, -, -, -, hheld⟩ := State.core_eq.1 hcore
  exact h.congr hdata hheld

/-- The uses that there are keep their slots. -/
theorem dropReference (h : Marked s g) (hle : g.available ≤ g.recycled)
    (hlt : ∀ x ∈ placed Frame.stride 0 (g.frames.take g.parsed), x.1 / 4096 < g.recycled) :
    Marked s (g.dropReference s' k) := by
  unfold Stream.dropReference
  split
  · have hslot {j : Nat} (hj : j < g.recycled) : (g.giveBack k).slotOf j = g.slotOf j :=
      Function.update_of_ne hj.ne ..
    have hheader (x : Nat × Frame) (hx : x ∈ placed Frame.stride 0 (g.frames.take g.parsed)) :
        (g.giveBack k).headerOf x = g.headerOf x := by
      rw [Stream.headerOf, hslot (hlt x hx), Stream.headerOf]
    have hcurrent (x : Nat × Frame) (hx : x ∈ placed Frame.stride 0 (g.frames.take g.parsed))
        (hxk : (g.giveBack k).Current (x.1 / 4096)) : g.Current (x.1 / 4096) := by
      intro j hkj hj
      rw [← hslot (hj.trans_le hle), ← hslot (hlt x hx)]
      exact hxk j hkj hj
    refine ⟨h.nodup, fun x hx hxk => ?_, fun x hx hxk => ?_, fun x hx hxk => ?_⟩
    · rw [hheader x hx]
      exact h.word x hx (hcurrent x hx hxk)
    · rw [hheader x hx]
      exact h.size x hx (hcurrent x hx hxk)
    · rw [hheader x hx]
      exact h.data x hx (hcurrent x hx hxk)
  · exact h

theorem append (h : Marked s g) (hr : Represents s g) {f : Frame} {b : Block}
    (htaken : g.taken = g.tx / 4096 + 1)
    (hkeep : ∀ i < g.tx % 4096, b i = s.slotData (g.slotOf (g.tx / 4096)) i)
    (hcore : s'.core = (Function.update s.slotData (g.slotOf (g.tx / 4096)) b, s.core.2)) :
    Marked s' (g.push f) := by
  obtain ⟨hdata, -, -, -, hheld⟩ := State.core_eq.1 hcore
  have htake := g.take_push (f := f) (hr.parsed_le.trans hr.published_le)
  -- the words of headers that have been read
  have hold (x : Nat × Frame) (hx : x ∈ placed Frame.stride 0 (g.frames.take g.parsed))
      (hxk : g.Current (x.1 / 4096)) (off : Nat) (hoff : off = x.1 % 4096 ∨ off = x.1 % 4096 + 4) :
      (s'.slotData (g.headerOf x).1).loadWord off =
        (s.slotData (g.headerOf x).1).loadWord off := by
    rw [hdata]
    apply loadWord_update
    intro hslot
    have hend := hr.end_le_tx htaken hx hxk hslot
    have hsize := x.2.size_add_le_stride
    exact Block.loadWord_congr fun i hlo hhi => hkeep i (by omega)
  refine ⟨hheld ▸ h.nodup, ?_, ?_, ?_⟩
  all_goals
    change ∀ x ∈ placed Frame.stride 0 ((g.push f).frames.take g.parsed), g.Current _ → _
    rw [htake]
    intro x hx hxk
  · rw [hheld]
    exact (hold x hx hxk _ (.inl rfl)).trans (h.word x hx hxk)
  · exact (hold x hx hxk _ (.inr rfl)).trans (h.size x hx hxk)
  · rw [hheld]
    exact h.data x hx hxk

/-- The frames handled behind the next one. -/
theorem mem_take_succ {f : Frame} (hf : g.frames[g.parsed]? = some f)
    (hrx : g.rx = g.upTo g.parsed)
    (hx : x ∈ placed Frame.stride 0 (g.frames.take (g.parsed + 1))) :
    x ∈ placed Frame.stride 0 (g.frames.take g.parsed) ∨ x = (g.rx, f) := by
  rw [List.take_add_one, hf, Layout.placed_append, List.mem_append, Nat.zero_add] at hx
  refine hx.imp_right fun hx => ?_
  rw [hrx]
  exact List.mem_singleton.1 hx

theorem see (h : Marked s g) (hr : Represents s g) {f : Frame}
    (hf : g.frames[g.parsed]? = some f) (hrx : g.rx = g.upTo g.parsed)
    (hlt : g.rx / 4096 < g.taken) : Marked s { g with parsed := g.parsed + 1 } := by
  obtain ⟨-, hword, hsize⟩ := hr.next hf hrx
  have hfree := hr.next_notMem_held hrx hlt
  refine ⟨h.nodup, fun x hx hxk => ?_, fun x hx hxk => ?_, fun x hx hxk => ?_⟩
  all_goals
    rcases mem_take_succ hf hrx hx with hx | rfl
  · exact h.word x hx hxk
  · exact hword.trans (if_neg hfree).symm
  · exact h.size x hx hxk
  · exact hsize
  · exact h.data x hx hxk
  · exact fun hmem => absurd hmem hfree

/-- The header is marked for the service that gets it. -/
theorem deliver (h : Marked s g) (hr : Represents s g) (hg : g.Conserved r) {f : Frame}
    (hf : g.frames[g.parsed]? = some f) (hrx : g.rx = g.upTo g.parsed)
    (hlt : g.rx / 4096 < g.taken) (htype : msgType f.msgid = msgData)
    (hdata : s'.slotData = Function.update s.slotData (g.headerOf (g.rx, f)).1
      ((s.slotData (g.headerOf (g.rx, f)).1).storeWord (g.headerOf (g.rx, f)).2
        (f.msgid ||| msgidClaimed)))
    (hheld : s'.held = g.headerOf (g.rx, f) :: s.held) :
    Marked s' { g with parsed := g.parsed + 1 } := by
  have hfree : g.headerOf (g.rx, f) ∉ s.held := hr.next_notMem_held hrx hlt
  have htaken := hr.taken_le
  have havail := hr.available_le
  have hcur : g.Current (g.rx / 4096) :=
    hr.current_of_live hg (by omega) (hr.not_released le_rfl)
  obtain ⟨hmem, -, hsize⟩ := hr.next hf hrx
  have hmem := Represents.mem_of_read hmem
  have hne (x : Nat × Frame) (hx : x ∈ placed Frame.stride 0 (g.frames.take g.parsed)) :
      (g.rx, f) ≠ x := by
    rintro rfl
    have hend := Layout.end_le_of_placed hx
    have hstride := f.size_add_le_stride
    change g.rx + f.stride ≤ 0 + g.upTo g.parsed at hend
    omega
  have hother (x : Nat × Frame) (hx : x ∈ placed Frame.stride 0 (g.frames.take g.parsed))
      (hxk : g.Current (x.1 / 4096)) : g.headerOf x ∈ s'.held ↔ g.headerOf x ∈ s.held := by
    have hne' := fun heq => hne x hx
      (hr.headerOf_inj hmem hcur (Represents.mem_of_read hx) hxk heq)
    rw [hheld, List.mem_cons]
    exact or_iff_right fun heq => hne' heq.symm
  refine ⟨?_, fun x hx hxk => ?_, fun x hx hxk => ?_, fun x hx hxk => ?_⟩
  · rw [hheld]
    exact List.nodup_cons.2 ⟨hfree, h.nodup⟩
  · rw [hdata]
    rcases mem_take_succ hf hrx hx with hx | rfl
    · change _ = claimedIf (g.headerOf x ∈ s'.held) x.2.msgid
      rw [claimedIf_congr (hother x hx hxk)]
      exact (hr.loadWord_writeMsgid hmem hcur (Represents.mem_of_read hx) hxk
        (.inl ⟨rfl, hne x hx⟩)).trans (h.word x hx hxk)
    · have hin : g.headerOf (g.rx, f) ∈ s'.held := hheld ▸ List.mem_cons_self
      change _ = claimedIf (g.headerOf (g.rx, f) ∈ s'.held) f.msgid
      rw [claimedIf, if_pos hin]
      exact (congrArg (fun b => Block.loadWord b _) (Function.update_self ..)).trans
        Block.loadWord_storeWord
  · rw [hdata]
    rcases mem_take_succ hf hrx hx with hx | rfl
    · exact (hr.loadWord_writeMsgid hmem hcur (Represents.mem_of_read hx) hxk (.inr rfl)).trans
        (h.size x hx hxk)
    · exact (hr.loadWord_writeMsgid hmem hcur hmem hcur (.inr rfl)).trans hsize
  · rcases mem_take_succ hf hrx hx with hx | rfl
    · exact fun hin => h.data x hx hxk ((hother x hx hxk).1 hin)
    · exact fun _ => htype

/-- The mark goes with the reference. -/
theorem release (h : Marked s g) (hr : Represents s g) (hg : g.Conserved r)
    (hx : x ∈ placed Frame.stride 0 (g.frames.take g.parsed)) (hlive : x.1 / 4096 ∉ g.released)
    (hmem : g.headerOf x ∈ s.held)
    (hdata : s'.slotData = Function.update s.slotData (g.headerOf x).1
      ((s.slotData (g.headerOf x).1).storeWord (g.headerOf x).2
        ((s.slotData (g.headerOf x).1).loadWord (g.headerOf x).2 &&& ~~~msgidClaimed)))
    (hheld : s'.held = s.held.erase (g.headerOf x)) : Marked s' g := by
  have hx' := Represents.mem_of_read hx
  have hxt := hr.slot_lt_taken hx'
  have htaken := hr.taken_le
  have havail := hr.available_le
  have hcur : g.Current (x.1 / 4096) := hr.current_of_live hg (by omega) hlive
  have hgone : g.headerOf x ∉ s'.held := hheld ▸ h.nodup.not_mem_erase
  have hword : (s.slotData (g.headerOf x).1).loadWord (g.headerOf x).2 &&& ~~~msgidClaimed =
      x.2.msgid := by
    rw [h.word x hx hcur, claimedIf, if_pos hmem]
    exact or_and_not_msgidClaimed (and_msgidClaimed_of_data (h.data x hx hcur hmem))
  rw [hword] at hdata
  refine ⟨hheld ▸ h.nodup.erase _, fun y hy hyk => ?_, fun y hy hyk => ?_, fun y hy hyk hin => ?_⟩
  · by_cases hxy : x = y
    · subst hxy
      rw [claimedIf, if_neg hgone, hdata, Function.update_self, Block.loadWord_storeWord]
    · have hne := fun heq => hxy (hr.headerOf_inj hx' hcur (Represents.mem_of_read hy) hyk heq)
      have hsame : g.headerOf y ∈ s'.held ↔ g.headerOf y ∈ s.held := by
        rw [hheld]
        exact List.mem_erase_of_ne fun heq => hne heq.symm
      rw [claimedIf_congr hsame, hdata]
      exact (hr.loadWord_writeMsgid hx' hcur (Represents.mem_of_read hy) hyk
        (.inl ⟨rfl, hxy⟩)).trans (h.word y hy hyk)
  · rw [hdata]
    exact (hr.loadWord_writeMsgid hx' hcur (Represents.mem_of_read hy) hyk (.inr rfl)).trans
      (h.size y hy hyk)
  · rw [hheld] at hin
    exact h.data y hy hyk (List.mem_of_mem_erase hin)

theorem move (h : Marked s g) (hr : Represents s g) (hg : g.Conserved r)
    (hm : Move s g s' g') : Marked s' g' := by
  have hfin := hr.finished_le
  have htaken := hr.taken_le
  have havail := hr.available_le
  have hlt (x : Nat × Frame) (hx : x ∈ placed Frame.stride 0 (g.frames.take g.parsed)) :
      x.1 / 4096 < g.recycled := by
    have := hr.slot_lt_taken (Represents.mem_of_read hx)
    omega
  cases hm with
  | stay hcore => exact h.of_core hcore
  | append htk hkeep hcore => exact h.append hr htk hkeep hcore
  | publish hcore | take hcore | advance _ hcore =>
    have h' := h.of_core hcore
    exact ⟨h'.nodup, h'.word, h'.size, h'.data⟩
  | free hcore =>
    have h' := h.of_core hcore
    have hsub {k : Nat} (hk : ({ g with available := g.available + 1 } : Stream).Current k) :
        g.Current k := fun j hkj hj => hk j hkj (Nat.lt_succ_of_lt hj)
    exact ⟨h'.nodup, fun x hx hxk => h'.word x hx (hsub hxk),
      fun x hx hxk => h'.size x hx (hsub hxk), fun x hx hxk => h'.data x hx (hsub hxk)⟩
  | enter hnone hk hcore =>
    obtain ⟨hdata, -, -, -, hheld⟩ := State.core_eq.1 hcore
    exact h.congr hdata hheld
  | see hf hrx hcore =>
    have hk := hr.slot_lt_taken (g.placed_upTo hf)
    have h' := h.see hr hf hrx (hrx ▸ hk)
    exact h'.of_core hcore
  | deliver hf hrx hentered htype hcore =>
    obtain ⟨hdata, -, -, -, hheld⟩ := State.core_eq.1 hcore
    exact h.deliver hr hg hf hrx (hr.entered _ hentered).2.1 htype hdata hheld
  | leave hentered hend hcore =>
    obtain ⟨hdata, -, -, -, hheld⟩ := State.core_eq.1 hcore
    have h' : Marked s' { g with rx := g.upTo g.parsed } := by
      have h' := h.congr hdata hheld
      exact ⟨h'.nodup, h'.word, h'.size, h'.data⟩
    exact h'.dropReference havail hlt
  | release hx hlive hmem hcore =>
    obtain ⟨hdata, -, -, -, hheld⟩ := State.core_eq.1 hcore
    exact (h.release hr hg hx hlive hmem hdata hheld).dropReference havail hlt

theorem init (r : SlotRange) (slotData : Nat → Block) :
    Marked (.init r slotData) (.init r) := by
  refine ⟨List.nodup_nil, fun x hx => ?_, fun x hx => ?_, fun x hx => ?_⟩
  · cases hx
  · cases hx
  · cases hx

end Marked

end Slots
