-- SUMMARY: Positions in the stream of a slot transport: strides, offsets and slot indices in 32-bit arithmetic.
import Mathlib.Data.Nat.Bitwise
import Mathlib.Tactic.Common

/-!
# Positions

`tx_pos` and `rx_pos` count bytes and wrap. Their low bits are the offset in a slot,
the next ones the place of the slot in the ring `slot_queue`. What the masks compute
is stated for the unbounded position that a wrapped one stands for.
-/

namespace Slots

/-- `VCHIQ_SLOT_SIZE`. -/
def slotSize : UInt32 := 4096

/-- `VCHIQ_SLOT_MASK`. -/
def slotMask : UInt32 := slotSize - 1

/-- `VCHIQ_MAX_SLOTS_PER_SIDE`. -/
def maxSlotsPerSide : UInt32 := 64

/-- `VCHIQ_SLOT_QUEUE_MASK`. -/
def slotQueueMask : UInt32 := maxSlotsPerSide - 1

/-- `sizeof (VCHIQ_HEADER_T)`: `msgid` and `size`, then the data. -/
def headerSize : UInt32 := 8

/-- `VCHIQ_MAX_MSG_SIZE`. -/
def maxMsgSize : UInt32 := slotSize - headerSize

/-- `SLOT_QUEUE_INDEX_FROM_POS`. -/
def slotQueueIndexFromPos (pos : UInt32) : UInt32 := pos / slotSize

def calcStride (size : UInt32) : UInt32 :=
  (size + headerSize + headerSize - 1) &&& ~~~(headerSize - 1)

/-! ## Masks -/

theorem toNat_and_mask (x : UInt32) (n : Nat) (h : n < 32) :
    (x &&& .ofNat (2 ^ n - 1)).toNat = x.toNat % 2 ^ n := by
  have hn : (2 : Nat) ^ n ≤ 2 ^ 31 := Nat.pow_le_pow_right (by omega) (by omega)
  have hpos := Nat.two_pow_pos n
  rw [UInt32.toNat_and, UInt32.toNat_ofNat', Nat.mod_eq_of_lt (by omega),
    Nat.and_two_pow_sub_one_eq_mod]

theorem toNat_and_not_mask (x : UInt32) : (x &&& ~~~7).toNat = x.toNat / 8 * 8 := by
  have hmask : (~~~7 : UInt32).toNat = (2 ^ 29 - 1) <<< 3 := rfl
  have hx : x.toNat / 8 * 8 = (x.toNat >>> 3) <<< 3 := by
    rw [Nat.shiftLeft_eq, Nat.shiftRight_eq_div_pow]
  rw [UInt32.toNat_and, hmask, hx]
  apply Nat.eq_of_testBit_eq
  intro i
  simp only [Nat.testBit_and, Nat.testBit_shiftLeft, Nat.testBit_two_pow_sub_one,
    Nat.testBit_shiftRight]
  by_cases h3 : 3 ≤ i
  · have hi : 3 + (i - 3) = i := by omega
    by_cases h32 : i < 32
    · simp [h3, hi]; omega
    · have : x.toNat.testBit i = false := by
        apply Nat.testBit_lt_two_pow
        calc x.toNat < 2 ^ 32 := x.toNat_lt
          _ ≤ 2 ^ i := Nat.pow_le_pow_right (by omega) (by omega)
      simp [h3, hi, this]
  · simp [h3]

theorem calcStride_toNat (size : UInt32) :
    (calcStride size).toNat = (size.toNat + 15) % 2 ^ 32 / 8 * 8 := by
  have hsum : size + headerSize + headerSize - 1 = size + 15 := by
    rw [UInt32.sub_eq_add_neg, UInt32.add_assoc, UInt32.add_assoc]
    rfl
  have hmask : headerSize - 1 = 7 := rfl
  rw [calcStride, hsum, hmask, toNat_and_not_mask, UInt32.toNat_add]
  rfl

/-! ## Positions that stand for unbounded ones -/

theorem and_slotMask (P : Nat) : (UInt32.ofNat P &&& slotMask).toNat = P % 4096 := by
  have := toNat_and_mask (.ofNat P) 12 (by omega)
  have h : slotMask = .ofNat (2 ^ 12 - 1) := rfl
  rw [h, this, UInt32.toNat_ofNat']
  omega

theorem and_slotQueueMask (k : Nat) : UInt32.ofNat k &&& slotQueueMask = .ofNat (k % 64) := by
  have := toNat_and_mask (.ofNat k) 6 (by omega)
  have h : slotQueueMask = .ofNat (2 ^ 6 - 1) := rfl
  apply UInt32.toNat_inj.1
  rw [h, this, UInt32.toNat_ofNat', UInt32.toNat_ofNat']
  omega

theorem slotQueueIndex (P : Nat) :
    slotQueueIndexFromPos (.ofNat P) &&& slotQueueMask = .ofNat (P / 4096 % 64) := by
  have h : slotQueueIndexFromPos (.ofNat P) = .ofNat (P % 2 ^ 32 / 4096) := by
    apply UInt32.toNat_inj.1
    have : slotSize.toNat = 4096 := rfl
    rw [slotQueueIndexFromPos, UInt32.toNat_div, this, UInt32.toNat_ofNat', UInt32.toNat_ofNat']
    omega
  rw [h, and_slotQueueMask]
  congr 1
  omega

theorem and_slotMask_eq_zero {P : Nat} : UInt32.ofNat P &&& slotMask = 0 ↔ P % 4096 = 0 := by
  rw [← UInt32.toNat_inj, and_slotMask]
  rfl

/-- The room that is left in the slot. -/
theorem slotSpace (P : Nat) :
    slotSize - (UInt32.ofNat P &&& slotMask) = .ofNat (4096 - P % 4096) := by
  have hle : UInt32.ofNat P &&& slotMask ≤ slotSize := by
    rw [UInt32.le_iff_toNat_le, and_slotMask]
    exact (Nat.mod_lt P (by omega)).le
  apply UInt32.toNat_inj.1
  rw [UInt32.toNat_sub_of_le _ _ hle, and_slotMask, UInt32.toNat_ofNat']
  have : slotSize.toNat = 4096 := rfl
  omega

/-- Positions less than a wrap apart are told apart. -/
theorem ofNat_eq_ofNat {P Q : Nat} (hle : P ≤ Q) (hlt : Q < P + 2 ^ 32) :
    UInt32.ofNat P = .ofNat Q ↔ P = Q := by
  rw [← UInt32.toNat_inj, UInt32.toNat_ofNat', UInt32.toNat_ofNat']
  omega

theorem toNat_ofNat_sub {P Q : Nat} (hle : P ≤ Q) (hlt : Q < P + 2 ^ 32) :
    (UInt32.ofNat Q - .ofNat P).toNat = Q - P := by
  rw [← UInt32.ofNat_sub hle, UInt32.toNat_ofNat']
  omega

end Slots
