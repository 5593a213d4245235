-- SUMMARY: Blocks of bytes: byte strings and little-endian words stored in them and loaded back, and the frame rules.
import Mathlib

/-!
# Bytes

A block of memory as the map from offsets to bytes. A store changes exactly the
bytes it covers, and a load depends on exactly the bytes it covers; every frame
rule below is one of these two facts.
-/

/-- A block of bytes, addressed from its start. -/
abbrev Block := Nat → UInt8

namespace Block

variable {b b' : Block} {pos len i : Nat} {data : List UInt8}

/-- The `len` bytes from `pos` on. -/
def load (b : Block) (pos len : Nat) : List UInt8 :=
  (List.range len).map fun i => b (pos + i)

/-- The block with `data` written from `pos` on. -/
def store (b : Block) (pos : Nat) (data : List UInt8) : Block := fun i =>
  if pos ≤ i then data[i - pos]?.getD (b i) else b i

@[simp] theorem length_load : (b.load pos len).length = len := by
  simp [load]

@[simp] theorem store_nil : b.store pos [] = b := by
  funext i
  simp [store]

/-- Bytes outside the stored range stay. -/
theorem store_of_disjoint (h : i < pos ∨ pos + data.length ≤ i) : b.store pos data i = b i := by
  unfold store
  split
  · have hlen : data.length ≤ i - pos := by omega
    simp [List.getElem?_eq_none hlen]
  · rfl

theorem store_of_lt (h : i < data.length) : b.store pos data (pos + i) = data[i] := by
  simp [store, h]

theorem load_congr (h : ∀ i, pos ≤ i → i < pos + len → b' i = b i) :
    b'.load pos len = b.load pos len := by
  apply List.map_congr_left
  intro i hi
  have : i < len := List.mem_range.1 hi
  exact h (pos + i) (by omega) (by omega)

theorem load_store : (b.store pos data).load pos data.length = data := by
  apply List.ext_getElem
  · simp
  · intro i _ h
    simp [load, store_of_lt h]

/-- Two adjacent stores are one. -/
theorem store_append (data' : List UInt8) :
    (b.store pos data).store (pos + data.length) data' = b.store pos (data ++ data') := by
  funext i
  by_cases h : i < pos
  · rw [store_of_disjoint (by omega), store_of_disjoint (by omega), store_of_disjoint (by omega)]
  · obtain ⟨j, rfl⟩ : ∃ j, i = pos + j := ⟨i - pos, by omega⟩
    simp only [store, Nat.le_add_right, if_true, Nat.add_sub_cancel_left, Nat.add_le_add_iff_left]
    split
    · next hj =>
      have : pos + j - (pos + data.length) = j - data.length := by omega
      rw [this, List.getElem?_append_right hj, List.getElem?_eq_none hj, Option.getD_none]
    · next hj => rw [List.getElem?_append_left (by omega)]

/-! ## Words -/

/-- The four bytes of a word, least significant first. -/
def wordBytes (w : UInt32) : List UInt8 :=
  (List.range 4).map fun k => .ofNat (w.toNat / 2 ^ (8 * k))

def loadWord (b : Block) (pos : Nat) : UInt32 :=
  .ofNat ((b pos).toNat + 2 ^ 8 * (b (pos + 1)).toNat + 2 ^ 16 * (b (pos + 2)).toNat +
    2 ^ 24 * (b (pos + 3)).toNat)

def storeWord (b : Block) (pos : Nat) (w : UInt32) : Block := b.store pos (wordBytes w)

theorem storeWord_of_disjoint {w : UInt32} (h : i < pos ∨ pos + 4 ≤ i) :
    b.storeWord pos w i = b i :=
  store_of_disjoint h

theorem loadWord_congr (h : ∀ i, pos ≤ i → i < pos + 4 → b' i = b i) :
    b'.loadWord pos = b.loadWord pos := by
  unfold loadWord
  rw [h pos (by omega) (by omega), h (pos + 1) (by omega) (by omega),
    h (pos + 2) (by omega) (by omega), h (pos + 3) (by omega) (by omega)]

@[simp] theorem length_wordBytes {w : UInt32} : (wordBytes w).length = 4 := rfl

theorem storeWord_apply {w : UInt32} {k : Nat} (h : k < 4) :
    b.storeWord pos w (pos + k) = .ofNat (w.toNat / 2 ^ (8 * k)) := by
  unfold storeWord
  rw [store_of_lt (by simpa using h)]
  simp [wordBytes]

@[simp] theorem loadWord_storeWord {w : UInt32} : (b.storeWord pos w).loadWord pos = w := by
  have h0 : b.storeWord pos w pos = _ := storeWord_apply (k := 0) (by omega)
  have hw := w.toNat_lt
  apply UInt32.toNat_inj.1
  unfold loadWord
  rw [h0, storeWord_apply (by omega), storeWord_apply (by omega), storeWord_apply (by omega)]
  simp only [UInt8.toNat_ofNat', UInt32.toNat_ofNat']
  omega

end Block
