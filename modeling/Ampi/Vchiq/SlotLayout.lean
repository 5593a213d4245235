-- SUMMARY: vchiq_init_slots, the division of the shared memory into slots.
import Mathlib.Data.Int.Basic
import Mathlib.Tactic.Common

/-!
# Slot layout

`vchiq_init_slots` lays out the memory shared by the two sides. The control block comes
first, from the first slot boundary on; the slots behind it are halved, and each side
keeps one slot of its half for synchronous messages. The only check is that there are
slots enough; the tables that the slots are recorded in have a fixed size. An address has
32 bits, and the address 0 is `NULL`.
-/

namespace SlotLayout

/-- `VCHIQ_SLOT_SIZE`. -/
def slotSize : Int := 4096

/-- `VCHIQ_MAX_SLOTS`. -/
def maxSlots : Nat := 128

/-- `VCHIQ_MAX_SLOTS_PER_SIDE`. -/
def maxSlotsPerSide : Nat := 64

/-- `DEBUG_MAX`. -/
def debugMax : Nat := 11

/-- `sizeof (REMOTE_EVENT_T)`. -/
def sizeofRemoteEvent : Nat := 4 + 4 + 4

/-- `sizeof (VCHIQ_SHARED_STATE_T)`. The queue of slots is the table that
`vchiq_init_state` fills. -/
def sizeofSharedState : Nat :=
  4 + 4 + 4 + 4 + sizeofRemoteEvent + 4 + sizeofRemoteEvent + 4 + sizeofRemoteEvent +
    sizeofRemoteEvent + maxSlotsPerSide * 4 + debugMax * 4

/-- `sizeof (VCHIQ_SLOT_INFO_T)`. -/
def sizeofSlotInfo : Nat := 2 + 2

/-- `sizeof (VCHIQ_SLOT_ZERO_T)`. -/
def sizeofSlotZero : Nat :=
  4 + 2 + 2 + 4 + 4 + 4 + 4 + 2 * 4 + sizeofSharedState + sizeofSharedState +
    maxSlots * sizeofSlotInfo

/-- `VCHIQ_SLOT_ZERO_SLOTS`. -/
def slotZeroSlots : Int := ((sizeofSlotZero : Int) + slotSize - 1).tdiv slotSize

/-- The memory passed to `vchiq_init_slots`. A size is a nonnegative `int`. -/
structure Memory where
  memBase : BitVec 32
  memSize : Nat
  memSize_lt : memSize < 2147483648

/-- The part of `VCHIQ_SHARED_STATE_T` that tells which slots a side owns. -/
structure Side where
  slotSync : Int
  slotFirst : Int
  slotLast : Int
  deriving DecidableEq, Repr

/-- What is written to the control block, and where the control block is. -/
structure SlotZero where
  address : BitVec 32
  master : Side
  slave : Side
  deriving DecidableEq, Repr

namespace Memory

/-- The subtraction is one of 32-bit integers; only its low bits are kept. -/
def memAlign (m : Memory) : BitVec 32 := (4096 - m.memBase) &&& 4095

/-- `slot_zero`. -/
def slotZero (m : Memory) : BitVec 32 := m.memBase + m.memAlign

/-- `num_slots` before the slots of the control block are taken off. -/
def slots (m : Memory) : Int := ((m.memSize : Int) - m.memAlign.toNat).tdiv slotSize

/-- `vchiq_init_slots`. What it returns is `NULL` also where the address is 0. -/
def vchiqInitSlots (m : Memory) : Option SlotZero :=
  let firstDataSlot := slotZeroSlots
  let numSlots := m.slots - firstDataSlot
  if numSlots < 4 then none
  else
    some {
      address := m.slotZero
      master := {
        slotSync := firstDataSlot
        slotFirst := firstDataSlot + 1
        slotLast := firstDataSlot + numSlots.tdiv 2 - 1 }
      slave := {
        slotSync := firstDataSlot + numSlots.tdiv 2
        slotFirst := firstDataSlot + numSlots.tdiv 2 + 1
        slotLast := firstDataSlot + numSlots - 1 } }

end Memory

/-! ## Sound layouts -/

/-- The bytes from `start` up to `stop`. -/
structure Area where
  start : Int
  stop : Int
  deriving DecidableEq, Repr

/-- The slots that `vchiq_init_state` writes to `slot_queue`. -/
def Side.dataSlots (s : Side) : Int := s.slotLast + 1 - s.slotFirst

namespace SlotZero

/-- The slots from `first` to `last`. -/
def slots (z : SlotZero) (first last : Int) : Area :=
  ⟨z.address.toNat + first * slotSize, z.address.toNat + (last + 1) * slotSize⟩

/-- The control block, then for each side the slot for synchronous messages and the others. -/
def areas (z : SlotZero) : List Area :=
  [z.slots 0 (slotZeroSlots - 1),
    z.slots z.master.slotSync z.master.slotSync, z.slots z.master.slotFirst z.master.slotLast,
    z.slots z.slave.slotSync z.slave.slotSync, z.slots z.slave.slotFirst z.slave.slotLast]

/-- What the two sides rely on. -/
structure Sound (z : SlotZero) (m : Memory) : Prop where
  disjoint : z.areas.Pairwise fun a b => a.stop ≤ b.start ∨ b.stop ≤ a.start
  aligned : ∀ a ∈ z.areas, slotSize ∣ a.start ∧ slotSize ∣ a.stop
  inside : ∀ a ∈ z.areas, m.memBase.toNat ≤ a.start ∧ a.stop ≤ m.memBase.toNat + m.memSize
  nonempty : 1 ≤ z.master.dataSlots ∧ 1 ≤ z.slave.dataSlots
  queue : z.master.dataSlots ≤ maxSlotsPerSide ∧ z.slave.dataSlots ≤ maxSlotsPerSide
  table : z.master.slotLast < maxSlots ∧ z.slave.slotLast < maxSlots

end SlotZero

theorem slotZeroSlots_eq : slotZeroSlots = 1 := by decide

namespace Memory

theorem memAlign_toNat (m : Memory) :
    m.memAlign.toNat = (4096 - m.memBase.toNat % 4096) % 4096 := by
  have hmask : (4095 : BitVec 32).toNat = 2 ^ 12 - 1 := rfl
  rw [memAlign, BitVec.toNat_and, hmask, Nat.and_two_pow_sub_one_eq_mod, BitVec.toNat_sub]
  simp only [BitVec.reduceToNat]
  have := m.memBase.isLt
  omega

/-- Where the control block is not at address 0, it is at the first boundary of a slot. -/
theorem slotZero_spec {m : Memory} (h : m.slotZero ≠ 0) :
    m.slotZero.toNat = m.memBase.toNat + m.memAlign.toNat ∧ m.slotZero.toNat % 4096 = 0 := by
  have halign := m.memAlign_toNat
  have hbase := m.memBase.isLt
  have hne : m.slotZero.toNat ≠ 0 := fun h0 => h (BitVec.eq_of_toNat_eq h0)
  rw [slotZero, BitVec.toNat_add] at hne ⊢
  omega

/-- The division rounds towards zero. -/
theorem slots_eq (m : Memory) :
    m.slots =
      if m.memAlign.toNat ≤ m.memSize then ((m.memSize : Int) - m.memAlign.toNat) / slotSize
      else 0 := by
  have halign := m.memAlign_toNat
  rw [slots, Int.tdiv_eq_ediv, Int.sign_eq_one_of_pos (by decide)]
  unfold slotSize
  split <;> split <;> omega

/-- The slots fit into what is left of the memory. -/
theorem slots_mul_le {m : Memory} (h : 5 ≤ m.slots) :
    m.slots * slotSize ≤ m.memSize - m.memAlign.toNat := by
  rw [slots_eq] at h ⊢
  unfold slotSize at h ⊢
  split at h <;> split <;> omega

/-- Where the slots go. -/
def layout (m : Memory) : SlotZero where
  address := m.slotZero
  master := ⟨1, 2, (m.slots - 1) / 2⟩
  slave := ⟨(m.slots - 1) / 2 + 1, (m.slots - 1) / 2 + 2, m.slots - 1⟩

theorem vchiqInitSlots_eq (m : Memory) :
    m.vchiqInitSlots = if m.slots < 5 then none else some m.layout := by
  unfold vchiqInitSlots layout
  simp only [slotZeroSlots_eq]
  by_cases hlt : m.slots < 5
  · rw [if_pos (by omega), if_pos hlt]
  · have hhalf : (m.slots - 1).tdiv 2 = (m.slots - 1) / 2 := Int.tdiv_eq_ediv_of_nonneg (by omega)
    rw [if_neg (by omega), if_neg hlt]
    simp only [hhalf, Option.some.injEq, SlotZero.mk.injEq, Side.mk.injEq, true_and]
    omega

theorem layout_areas (m : Memory) :
    m.layout.areas =
      [m.layout.slots 0 0, m.layout.slots 1 1, m.layout.slots 2 ((m.slots - 1) / 2),
        m.layout.slots ((m.slots - 1) / 2 + 1) ((m.slots - 1) / 2 + 1),
        m.layout.slots ((m.slots - 1) / 2 + 2) (m.slots - 1)] := by
  simp only [SlotZero.areas, slotZeroSlots_eq, layout, Int.sub_self]

/-- One area follows the other. -/
theorem layout_ordered {m : Memory} (h : 5 ≤ m.slots) :
    m.layout.areas.Pairwise fun a b => a.stop ≤ b.start := by
  rw [layout_areas]
  simp only [List.pairwise_cons, List.mem_cons, List.not_mem_nil, or_false, forall_eq_or_imp,
    forall_eq, List.Pairwise.nil, and_true, IsEmpty.forall_iff, implies_true, SlotZero.slots,
    slotSize]
  omega

/-- All but the sizes of the tables is in order. -/
theorem layout_sound_iff {m : Memory} (h : 5 ≤ m.slots) (hne : m.slotZero ≠ 0) :
    m.layout.Sound m ↔ m.slots ≤ maxSlots := by
  have hfit := slots_mul_le h
  obtain ⟨haddress, hboundary⟩ := slotZero_spec hne
  have hat : m.layout.address = m.slotZero := rfl
  constructor
  · intro hs
    have hlast : m.slots - 1 < maxSlots := hs.table.2
    omega
  · intro hle
    unfold slotSize at hfit
    unfold maxSlots at hle
    refine ⟨?_, ?_, ?_, ?_, ?_, ?_⟩
    · exact (layout_ordered h).imp Or.inl
    · rw [layout_areas]
      simp only [List.mem_cons, List.not_mem_nil, or_false, forall_eq_or_imp, forall_eq,
        SlotZero.slots, slotSize, hat]
      omega
    · rw [layout_areas]
      simp only [List.mem_cons, List.not_mem_nil, or_false, forall_eq_or_imp, forall_eq,
        SlotZero.slots, slotSize, hat]
      omega
    · simp only [layout, Side.dataSlots]
      omega
    · simp only [layout, Side.dataSlots, maxSlotsPerSide]
      omega
    · simp only [layout, maxSlots]
      omega

/-- A layout that is not at address 0 is sound exactly if there are no more slots than
`VCHIQ_MAX_SLOTS`, those of the control block included. -/
theorem vchiqInitSlots_sound_iff (m : Memory) :
    (∀ z, m.vchiqInitSlots = some z → z.address ≠ 0 → z.Sound m) ↔
      m.slotZero = 0 ∨ m.slots ≤ maxSlots := by
  rw [vchiqInitSlots_eq]
  split
  next hlt =>
    have hmax : (maxSlots : Int) = 128 := rfl
    simp only [reduceCtorEq, false_implies, implies_true, true_iff]
    omega
  next hge =>
    have hat : m.layout.address = m.slotZero := rfl
    simp only [Option.some.injEq, forall_eq', hat]
    by_cases hne : m.slotZero = 0
    · simp [hne]
    · rw [layout_sound_iff (Int.not_lt.1 hge) hne]
      exact ⟨fun h => .inr (h hne), fun h _ => h.resolve_left hne⟩

/-- 129 slots from `0x20000000` on. -/
theorem not_vchiqInitSlots_sound :
    ¬ ∀ m z, vchiqInitSlots m = some z → z.address ≠ 0 → z.Sound m := by
  intro h
  have hlast := (h ⟨0x20000000, 528384, by decide⟩ _ rfl (by decide)).table.2
  exact absurd hlast (by decide)

end Memory
end SlotLayout
