-- SUMMARY: linux/synchronize.c, cleaning and invalidating the data cache for a range of addresses.
import Mathlib.Data.Nat.ModEq
import Mathlib.Tactic.Common

/-!
# Cache ranges

`linuxemu_CleanAndInvalidateDataCacheRange` steps from the start of a range, which need
not be the start of a cache line, by whole lines. The length is made one line longer
before the loop, so that the line with the end of the range is reached from every start.
-/

namespace CacheRange

/-- The three versions of the function. -/
inductive Core where
  /-- `RASPPI == 1`. -/
  | armv6
  | armv7
  /-- `AARCH64`. -/
  | armv8
  deriving DecidableEq, Repr

namespace Core

/-- The arguments are `u32` or `u64`. -/
def width : Core → Nat
  | armv6 | armv7 => 32
  | armv8 => 64

/-- `DATA_CACHE_LINE_LENGTH` or `DATA_CACHE_LINE_LENGTH_MIN`. -/
def lineLength : Core → Nat
  | armv6 => 32
  | armv7 | armv8 => 64

/-- The constant in the arithmetic of the arguments. -/
def line (c : Core) : BitVec c.width := .ofNat c.width c.lineLength

theorem lineLength_pos (c : Core) : 0 < c.lineLength := by cases c <;> decide

@[simp] theorem toNat_line (c : Core) : c.line.toNat = c.lineLength := by cases c <;> rfl

/-- The arguments hold at least 32 bits. -/
theorem two_pow_le (c : Core) : 2 ^ 32 ≤ 2 ^ c.width := by cases c <;> decide

theorem toNat_sub_line {c : Core} {nLength : BitVec c.width} (h : ¬ nLength < c.line) :
    (nLength - c.line).toNat = nLength.toNat - c.lineLength := by
  rw [BitVec.toNat_sub_of_le (by simpa using h), toNat_line]

end Core

/-- The addresses that the loop passes to the instruction. -/
def cleanLoop {c : Core} (nAddress nLength : BitVec c.width) : List (BitVec c.width) :=
  nAddress ::
    if nLength < c.line then [] else cleanLoop (nAddress + c.line) (nLength - c.line)
termination_by nLength.toNat
decreasing_by
  rename_i h
  have hle : c.lineLength ≤ nLength.toNat := by simpa [BitVec.lt_def] using h
  have := c.lineLength_pos
  rw [Core.toNat_sub_line h]
  omega

/-- `linuxemu_CleanAndInvalidateDataCacheRange`. -/
def cleanAndInvalidateDataCacheRange {c : Core} (nAddress nLength : BitVec c.width) :
    List (BitVec c.width) :=
  cleanLoop nAddress (nLength + c.line)

/-! ## What is touched -/

/-- The loop takes one step for every whole line of the length, and one more. -/
theorem cleanLoop_toNat {c : Core} (nAddress nLength : BitVec c.width)
    (h : nAddress.toNat + nLength.toNat < 2 ^ c.width) :
    (cleanLoop nAddress nLength).map BitVec.toNat =
      (List.range (nLength.toNat / c.lineLength + 1)).map (nAddress.toNat + · * c.lineLength) := by
  fun_induction cleanLoop nAddress nLength with
  | case1 nAddress nLength ih =>
    by_cases hlt : nLength < c.line
    · have hdiv : nLength.toNat / c.lineLength = 0 :=
        Nat.div_eq_of_lt (by simpa [BitVec.lt_def] using hlt)
      simp [hlt, hdiv]
    · have hle : c.lineLength ≤ nLength.toNat := by simpa [BitVec.lt_def] using hlt
      have haddr : (nAddress + c.line).toNat = nAddress.toNat + c.lineLength := by
        rw [BitVec.toNat_add, Core.toNat_line, Nat.mod_eq_of_lt (by omega)]
      have hdiv : nLength.toNat / c.lineLength =
          (nLength.toNat - c.lineLength) / c.lineLength + 1 :=
        Nat.div_eq_sub_div c.lineLength_pos hle
      have hrec := ih hlt (by rw [haddr, Core.toNat_sub_line hlt]; omega)
      rw [haddr, Core.toNat_sub_line hlt] at hrec
      rw [if_neg hlt, List.map_cons, hrec, hdiv, List.range_succ_eq_map (n := _ + 1), List.map_cons,
        List.map_map, Nat.zero_mul, Nat.add_zero]
      congr 1
      refine List.map_congr_left fun i _ => ?_
      simp only [Function.comp_apply, Nat.succ_mul]
      omega

/-- Every line with a byte of the range is touched, and no line is that ends more than
two lines after the range. -/
structure Covers (line address length : Nat) (touched : List Nat) : Prop where
  covered : ∀ x, address ≤ x → x < address + length → ∃ t ∈ touched, t / line = x / line
  bounded : ∀ t ∈ touched, (t / line + 1) * line ≤ address + length + 2 * line

/-- Steps by whole lines from anywhere in the first line cover the range. -/
theorem covers_range {line : Nat} (hline : 0 < line) (address length : Nat) :
    Covers line address length
      ((List.range ((length + line) / line + 1)).map (address + · * line)) where
  covered := by
    intro x hfrom hto
    refine ⟨address + (x / line - address / line) * line, ?_, ?_⟩
    · refine List.mem_map.2 ⟨x / line - address / line, ?_, rfl⟩
      have hx : x / line ≤ (address + length) / line := Nat.div_le_div_right (by omega)
      have hsum : (address + length) / line ≤ address / line + length / line + 1 :=
        Nat.add_div_le_div_add_div_add_one address length line
      rw [List.mem_range, Nat.add_div_right _ hline]
      exact Nat.lt_succ_of_le
        (Nat.sub_le_iff_le_add'.2 ((hx.trans hsum).trans_eq (Nat.add_assoc _ _ _)))
    · have hle : address / line ≤ x / line := Nat.div_le_div_right hfrom
      rw [Nat.add_mul_div_right _ _ hline]
      omega
  bounded := by
    intro t ht
    obtain ⟨i, hi, rfl⟩ := List.mem_map.1 ht
    have hi' : i ≤ (length + line) / line := by have := List.mem_range.1 hi; omega
    have hmul : i * line ≤ length + line := (Nat.le_div_iff_mul_le hline).1 hi'
    have hfloor := Nat.div_mul_le_self (address + i * line) line
    rw [Nat.add_mul]
    omega

theorem cleanAndInvalidateDataCacheRange_covers {c : Core} (nAddress nLength : BitVec c.width)
    (h : nAddress.toNat + nLength.toNat + c.lineLength < 2 ^ 32) :
    Covers c.lineLength nAddress.toNat nLength.toNat
      ((cleanAndInvalidateDataCacheRange nAddress nLength).map BitVec.toNat) := by
  have hw := c.two_pow_le
  have hlen : (nLength + c.line).toNat = nLength.toNat + c.lineLength := by
    rw [BitVec.toNat_add, Core.toNat_line, Nat.mod_eq_of_lt (by omega)]
  rw [cleanAndInvalidateDataCacheRange, cleanLoop_toNat _ _ (by rw [hlen]; omega), hlen]
  exact covers_range c.lineLength_pos _ _

theorem cleanAndInvalidateDataCacheRange_covers_unaligned :
    Covers 32 33 64 ((@cleanAndInvalidateDataCacheRange .armv6 33 64).map BitVec.toNat) :=
  @cleanAndInvalidateDataCacheRange_covers .armv6 33 64 (by decide)

end CacheRange
