-- SUMMARY: Bounded first-in first-out queues: the logs they admit, and rings of cells that hold them.
import Mathlib

/-!
# First-in first-out queues

A log of operations belongs to a bounded queue when every operation takes effect where
it stands in the log. A ring of `2 ^ k` cells between two 32-bit indices that wrap holds
such a queue.
-/

namespace Fifo

variable {α : Type*}

/-- An operation with what it was given or what it returned. -/
inductive Op (α : Type*) where
  | pushed (x : α)
  | popped (x : α)
  | peeked (x : α)
  | tested (empty : Bool)

def Op.pushed? : Op α → Option α
  | .pushed x => some x
  | _ => none

def Op.popped? : Op α → Option α
  | .popped x => some x
  | _ => none

def pushes (log : List (Op α)) : List α := log.filterMap Op.pushed?

def pops (log : List (Op α)) : List α := log.filterMap Op.popped?

/-- A queue with room for `capacity` entries takes one operation. -/
inductive Step (capacity : Nat) : List α → Op α → List α → Prop where
  | pushed {q : List α} (x : α) : q.length < capacity → Step capacity q (.pushed x) (q ++ [x])
  | popped (x : α) (q : List α) : Step capacity (x :: q) (.popped x) q
  | peeked (x : α) (q : List α) : Step capacity (x :: q) (.peeked x) (x :: q)
  | tested (q : List α) : Step capacity q (.tested q.isEmpty) q

/-- The operations of the log lead from the one content to the other. -/
def Takes (capacity : Nat) : List α → List (Op α) → List α → Prop
  | q, [], q' => q = q'
  | q, o :: log, q' => ∃ q₁, Step capacity q o q₁ ∧ Takes capacity q₁ log q'

variable {capacity : Nat} {q q' : List α} {o : Op α} {log log' : List (Op α)}

theorem Step.length_le (h : Step capacity q o q') (hq : q.length ≤ capacity) :
    q'.length ≤ capacity := by
  cases h with
  | pushed x hroom => simpa using hroom
  | popped x q => exact (Nat.le_succ _).trans hq
  | peeked => exact hq
  | tested => exact hq

theorem Step.balance (h : Step capacity q o q') : q ++ pushes [o] = pops [o] ++ q' := by
  cases h with
  | pushed x _ => rfl
  | popped x q => exact List.append_nil _
  | peeked x q => exact List.append_nil _
  | tested q => exact List.append_nil _

namespace Takes

theorem append : Takes capacity q (log ++ log') q' ↔
    ∃ q₁, Takes capacity q log q₁ ∧ Takes capacity q₁ log' q' := by
  induction log generalizing q with
  | nil => simp [Takes]
  | cons o log ih =>
    simp only [List.cons_append, Takes, ih]
    constructor
    · rintro ⟨q₁, h, q₂, h', h''⟩
      exact ⟨q₂, ⟨q₁, h, h'⟩, h''⟩
    · rintro ⟨q₂, ⟨q₁, h, h'⟩, h''⟩
      exact ⟨q₁, h, q₂, h', h''⟩

theorem snoc (h : Takes capacity q log q') {q'' : List α} (ho : Step capacity q' o q'') :
    Takes capacity q (log ++ [o]) q'' :=
  append.2 ⟨q', h, q'', ho, rfl⟩

theorem length_le (h : Takes capacity q log q') (hq : q.length ≤ capacity) :
    q'.length ≤ capacity := by
  induction log generalizing q with
  | nil => exact h ▸ hq
  | cons o log ih =>
    obtain ⟨q₁, ho, h⟩ := h
    exact ih h (ho.length_le hq)

/-- Entries come out in the order in which they went in, and none is lost. -/
theorem balance (h : Takes capacity q log q') : q ++ pushes log = pops log ++ q' := by
  induction log generalizing q with
  | nil => simpa [Takes, pushes, pops] using h
  | cons o log ih =>
    obtain ⟨q₁, ho, h⟩ := h
    have hpushes : pushes (o :: log) = pushes [o] ++ pushes log :=
      List.filterMap_append (l := [o]) ..
    have hpops : pops (o :: log) = pops [o] ++ pops log := List.filterMap_append (l := [o]) ..
    rw [hpushes, hpops, ← List.append_assoc, ho.balance, List.append_assoc, ih h,
      List.append_assoc]

/-- A peek returns what the next pop returns, or would return. -/
theorem head_of_peeked {x : α} (h : Takes capacity q (log ++ .peeked x :: log') q') :
    (pops log' ++ q').head? = some x := by
  obtain ⟨q₁, _, q₂, ho, h'⟩ := append.1 h
  cases ho with
  | peeked x q => rw [← h'.balance, List.cons_append, List.head?_cons]

end Takes

/-! ## Rings of cells -/

/-- The entries between the indices. -/
def ring (size : UInt32) (storage : UInt32 → α) (read write : UInt32) : List α :=
  (List.range (write - read).toNat).map fun n =>
    storage ((read + UInt32.ofNat n) &&& (size - 1))

section Ring

variable {k : Nat} {size read write : UInt32} {storage : UInt32 → α}

@[simp] theorem length_ring : (ring size storage read write).length = (write - read).toNat := by
  simp [ring]

theorem toNat_and_mask (hsize : size.toNat = 2 ^ k) (i : UInt32) :
    (i &&& (size - 1)).toNat = i.toNat % 2 ^ k := by
  have hpos : 0 < 2 ^ k := Nat.two_pow_pos k
  have hmask : (size - 1).toNat = 2 ^ k - 1 := by
    rw [UInt32.toNat_sub_of_le _ _ (UInt32.le_iff_toNat_le.2 (hsize ▸ hpos)), hsize]
    rfl
  rw [UInt32.toNat_and, hmask, Nat.and_two_pow_sub_one_eq_mod]

theorem toNat_cell (hsize : size.toNat = 2 ^ k) (n : Nat) :
    ((read + UInt32.ofNat n) &&& (size - 1)).toNat = (read.toNat + n) % 2 ^ k := by
  have hk : k < 32 := (Nat.pow_lt_pow_iff_right (a := 2) (by decide)).1 (hsize ▸ size.toNat_lt)
  rw [toNat_and_mask hsize, UInt32.toNat_add, UInt32.toNat_ofNat', Nat.add_mod_mod,
    Nat.mod_mod_of_dvd _ (Nat.pow_dvd_pow 2 hk.le)]

/-- Fewer than `2 ^ k` steps on from the first index no cell comes again. -/
theorem cell_ne (hsize : size.toNat = 2 ^ k) {m n : Nat} (hmn : m < n) (hn : n < 2 ^ k) :
    (read + UInt32.ofNat m) &&& (size - 1) ≠ (read + UInt32.ofNat n) &&& (size - 1) := by
  intro h
  have hmod : (read.toNat + m) % 2 ^ k = (read.toNat + n) % 2 ^ k := by
    rw [← toNat_cell hsize, ← toNat_cell hsize, h]
  have hsame : m % 2 ^ k = n % 2 ^ k := Nat.ModEq.add_left_cancel' _ hmod
  rw [Nat.mod_eq_of_lt (hmn.trans hn), Nat.mod_eq_of_lt hn] at hsame
  exact hmn.ne hsame

theorem toNat_sub_pos (h : read ≠ write) : 0 < (write - read).toNat := by
  apply Nat.pos_of_ne_zero
  intro hzero
  apply h
  have hsub : write - read = 0 := UInt32.toNat_inj.1 hzero
  exact (sub_eq_zero.1 hsub).symm

/-- A store behind the last entry, and the step of the index. -/
theorem ring_push (hsize : size.toNat = 2 ^ k) (hroom : (write - read).toNat < 2 ^ k) (x : α) :
    ring size (Function.update storage (write &&& (size - 1)) x) read (write + 1) =
      ring size storage read write ++ [x] := by
  have hwrite : read + UInt32.ofNat (write - read).toNat = write := by
    rw [UInt32.ofNat_toNat, add_sub_cancel]
  have hlen : (write + 1 - read).toNat = (write - read).toNat + 1 := by
    have hone : (1 : UInt32).toNat = 1 := rfl
    have hlt := size.toNat_lt
    rw [add_sub_right_comm, UInt32.toNat_add, hone]
    omega
  have hold (n : Nat) (hn : n < (write - read).toNat) :
      Function.update storage (write &&& (size - 1)) x ((read + UInt32.ofNat n) &&& (size - 1)) =
        storage ((read + UInt32.ofNat n) &&& (size - 1)) := by
    apply Function.update_of_ne
    have hne : (read + UInt32.ofNat n) &&& (size - 1) ≠
        (read + UInt32.ofNat (write - read).toNat) &&& (size - 1) := cell_ne hsize hn hroom
    rwa [hwrite] at hne
  rw [ring, hlen, List.range_succ, List.map_append, List.map_singleton, hwrite,
    Function.update_self, ring]
  congr 1
  exact List.map_congr_left fun n hn => hold n (List.mem_range.1 hn)

/-- The first entry, and the entries from the next index on. -/
theorem ring_pop (h : read ≠ write) :
    ring size storage read write =
      storage (read &&& (size - 1)) :: ring size storage (read + 1) write := by
  have hpos := toNat_sub_pos h
  have hlen : (write - read).toNat = (write - (read + 1)).toNat + 1 := by
    have hone : (1 : UInt32).toNat = 1 := rfl
    have hle : (1 : UInt32) ≤ write - read := UInt32.le_iff_toNat_le.2 hpos
    rw [← sub_sub, UInt32.toNat_sub_of_le _ _ hle, hone]
    omega
  rw [ring, hlen, List.range_succ_eq_map, List.map_cons, List.map_map, ring]
  congr 2
  · simp
  · funext n
    simp only [Function.comp_apply, Nat.succ_eq_add_one, UInt32.ofNat_add]
    congr 2
    rw [add_assoc, add_comm 1]
    rfl

theorem ring_self : ring size storage read read = [] := by
  rw [ring, sub_self]
  rfl

theorem isEmpty_ring : (ring size storage read write).isEmpty = (read == write) := by
  by_cases h : read = write
  · rw [h, ring_self, beq_self_eq_true]
    rfl
  · rw [ring_pop h, beq_false_of_ne h]
    rfl

end Ring

end Fifo
