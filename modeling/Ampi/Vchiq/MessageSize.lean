-- SUMMARY: The size check of vchiq_queue_message, and the vectors that it lets past although they do not fit.
import Ampi.Vchiq.Positions
import Mathlib.Data.List.Basic

/-!
# The size of a message

`vchiq_queue_message` adds the sizes of its elements up in 32 bits, and `queue_message` then
copies the elements one behind the other. The check bounds the sum that is left of the exact
one, the copies are as long as the elements say.
-/

namespace Slots

/-- `VCHIQ_ELEMENT_T`; a null pointer is `none`. -/
structure Element where
  data : Option (Nat → UInt8)
  size : UInt32

/-- The loop of `vchiq_queue_message` over its elements, from `size` on. -/
def addSizes (size : UInt32) : List Element → Option UInt32
  | [] => some size
  | e :: es =>
    if e.size ≠ 0 then
      if e.data.isNone then none else addSizes (size + e.size) es
    else addSizes size es

/-- What `vchiq_queue_message` calls `queue_message` with, unless it has gone to its
`error_exit`. -/
def checkedSize (es : List Element) : Option UInt32 :=
  match addSizes 0 es with
  | none => none
  | some size => if size > maxMsgSize then none else some size

/-- A write of `length` bytes at `header->data + offset`. -/
structure Copy where
  offset : Int
  length : Nat

/-- The copy loop of `queue_message` from `pos` on, which is an `int`. -/
def copies (pos : UInt32) : List Element → List Copy
  | [] => []
  | e :: es =>
    if e.size ≠ 0 then ⟨pos.toInt32.toInt, e.size.toNat⟩ :: copies (pos + e.size) es
    else copies (pos + e.size) es

/-- The write is to the bytes behind the header that have been reserved for a message. -/
def Copy.Inside (c : Copy) (size : UInt32) : Prop :=
  0 ≤ c.offset ∧ headerSize.toNat + c.offset + c.length ≤ (calcStride size).toNat

/-- The size of the whole vector. -/
def exactSize (es : List Element) : Nat := (es.map fun e => e.size.toNat).sum

@[simp] theorem exactSize_cons (e : Element) (es : List Element) :
    exactSize (e :: es) = e.size.toNat + exactSize es := List.sum_cons

/-- A vector that gets past the check fits into a message, and so do its copies. -/
def SizeChecked (es : List Element) : Prop :=
  ∀ size, checkedSize es = some size →
    exactSize es ≤ maxMsgSize.toNat ∧ (∀ e ∈ es, e.size ≠ 0 → e.data.isSome) ∧
      ∀ c ∈ copies 0 es, c.Inside size

/-- The sum that is left in 32 bits. -/
theorem addSizes_eq_some {size size' : UInt32} {es : List Element} :
    addSizes size es = some size' ↔
      (∀ e ∈ es, e.size ≠ 0 → e.data.isSome) ∧
        size'.toNat = (size.toNat + exactSize es) % 2 ^ 32 := by
  induction es generalizing size with
  | nil =>
    rw [addSizes, Option.some_inj, eq_comm, ← UInt32.toNat_inj, exactSize, List.map_nil,
      List.sum_nil, Nat.add_zero, Nat.mod_eq_of_lt size.toNat_lt]
    simp
  | cons e es ih =>
    rw [addSizes, List.forall_mem_cons, exactSize_cons]
    split
    case isTrue hsize =>
      split
      case isTrue hnull => simp_all
      case isFalse hdata =>
        have hsome : e.data.isSome := Option.isSome_iff_ne_none.2 (by simpa using hdata)
        rw [ih, UInt32.toNat_add, Nat.mod_add_mod, Nat.add_assoc]
        simp [hsome]
    case isFalse hsize =>
      obtain hsize : e.size = 0 := by simpa using hsize
      have hzero : e.size.toNat = 0 := by rw [hsize]; rfl
      rw [ih, hzero, Nat.zero_add]
      simp [hsize]

theorem checkedSize_eq_some {size : UInt32} {es : List Element} :
    checkedSize es = some size ↔
      (∀ e ∈ es, e.size ≠ 0 → e.data.isSome) ∧ size.toNat = exactSize es % 2 ^ 32 ∧
        size.toNat ≤ maxMsgSize.toNat := by
  have hadd := @addSizes_eq_some 0 size es
  rw [UInt32.toNat_zero, Nat.zero_add] at hadd
  rw [← and_assoc, ← hadd, checkedSize]
  split
  case h_1 hnone => simp [hnone]
  case h_2 size' hsome =>
    rw [hsome, Option.some_inj, ← UInt32.le_iff_toNat_le, ← UInt32.not_lt]
    split
    case isTrue hlt =>
      simp only [reduceCtorEq, false_iff, not_and, not_not]
      rintro rfl
      exact hlt
    case isFalse hle =>
      rw [Option.some_inj, iff_self_and]
      rintro rfl
      exact hle

/-- As long as the exact sum does not wrap, each copy ends where the next one begins. -/
theorem copies_bounds {pos : UInt32} {es : List Element} (h : pos.toNat + exactSize es < 2 ^ 31) :
    ∀ c ∈ copies pos es,
      pos.toNat ≤ c.offset ∧ c.offset + c.length ≤ pos.toNat + exactSize es := by
  induction es generalizing pos with
  | nil => simp [copies]
  | cons e es ih =>
    rw [exactSize_cons] at h ⊢
    have hpos : (pos + e.size).toNat = pos.toNat + e.size.toNat := by
      rw [UInt32.toNat_add]
      omega
    have hrest := ih (by rw [hpos]; omega)
    rw [hpos] at hrest
    have hlast : ∀ c ∈ copies (pos + e.size) es, pos.toNat ≤ c.offset ∧
        c.offset + c.length ≤ pos.toNat + (e.size.toNat + exactSize es) := by
      intro c hc
      have := hrest c hc
      omega
    rw [copies]
    split
    case isTrue hsize =>
      refine List.forall_mem_cons.2 ⟨?_, hlast⟩
      have hint : pos.toInt32.toInt = pos.toNat := BitVec.toInt_eq_toNat_of_lt (by
        change 2 * pos.toNat < 2 ^ 32
        omega)
      dsimp only
      omega
    case isFalse hsize => exact hlast

theorem copies_inside {size : UInt32} {es : List Element} (hsize : size.toNat = exactSize es)
    (hle : size.toNat ≤ maxMsgSize.toNat) : ∀ c ∈ copies 0 es, c.Inside size := by
  have hmax : maxMsgSize.toNat = 4088 := rfl
  have hheader : headerSize.toNat = 8 := rfl
  have hzero : (0 : UInt32).toNat = 0 := rfl
  intro c hc
  have hc := copies_bounds (by omega) c hc
  rw [Copy.Inside, calcStride_toNat]
  omega

/-- The check is sound for a vector, unless its exact size wraps to one that fits. -/
theorem sizeChecked_iff (es : List Element) :
    SizeChecked es ↔
      exactSize es < 2 ^ 32 ∨ maxMsgSize.toNat < exactSize es % 2 ^ 32 ∨
        ∃ e ∈ es, e.size ≠ 0 ∧ e.data = none := by
  have hmax : maxMsgSize.toNat = 4088 := rfl
  constructor
  · intro h
    by_contra hfit
    simp only [not_or, Nat.not_lt, not_exists, not_and] at hfit
    obtain ⟨hwrap, hle, hdata⟩ := hfit
    have hsize : (UInt32.ofNat (exactSize es)).toNat = exactSize es % 2 ^ 32 := UInt32.toNat_ofNat'
    have hcheck := (h (.ofNat (exactSize es)) (checkedSize_eq_some.2
      ⟨fun e he hs => Option.isSome_iff_ne_none.2 (hdata e he hs), hsize, hsize ▸ hle⟩)).1
    omega
  · rintro hcond size hsome
    obtain ⟨hdata, hsize, hle⟩ := checkedSize_eq_some.1 hsome
    have hexact : size.toNat = exactSize es := by
      obtain hlt | hlarge | ⟨e, he, hs, hnull⟩ := hcond
      · omega
      · omega
      · simpa [hnull] using hdata e he hs
    exact ⟨by omega, hdata, copies_inside hexact hle⟩

/-- Two elements of two gigabytes each are a message of no bytes. -/
theorem not_sizeChecked : ¬ ∀ es, SizeChecked es := by
  intro h
  have := (h [⟨some fun _ => 0, 0x80000000⟩, ⟨some fun _ => 0, 0x80000000⟩] 0 rfl).1
  revert this
  decide

end Slots
