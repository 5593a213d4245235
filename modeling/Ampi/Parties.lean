-- SUMMARY: Counting the parties of a protocol whose local states have a property.
import Mathlib.Algebra.BigOperators.Fin
import Mathlib.Algebra.Order.BigOperators.Group.Finset

/-!
# Parties

Each of finitely many parties has a local state, and a step replaces the state of one of
them. A count of the parties in some set of states moves by what that one party does.
-/

namespace Parties

variable {ι α : Type*} [Fintype ι]

/-- How many parties are in a state that `p` holds of. -/
def count (p : α → Bool) (f : ι → α) : Nat := ∑ i, (p (f i)).toNat

variable {p : α → Bool} {f : ι → α}

theorem count_eq_zero : count p f = 0 ↔ ∀ i, p (f i) = false := by
  simp [count, Finset.sum_eq_zero_iff]

theorem count_pos {i : ι} (h : p (f i)) : 0 < count p f := by
  apply Nat.pos_of_ne_zero
  intro hzero
  rw [count_eq_zero.1 hzero i] at h
  cases h

theorem count_le_card : count p f ≤ Fintype.card ι := by
  have hle : count p f ≤ ∑ _ : ι, 1 := Finset.sum_le_sum fun i _ => Bool.toNat_le (p (f i))
  simpa using hle

/-- The sum of what the parties' states weigh. -/
def total (w : α → Nat) (f : ι → α) : Nat := ∑ i, w (f i)

@[simp] theorem total_const_zero : total (fun _ => 0) f = 0 := by
  simp [total]

/-- One party moves. -/
theorem total_update [DecidableEq ι] (w : α → Nat) (f : ι → α) (i : ι) (x : α) :
    total w (Function.update f i x) + w (f i) = total w f + w x := by
  have hrest : ∑ j ∈ Finset.univ.erase i, w (Function.update f i x j) =
      ∑ j ∈ Finset.univ.erase i, w (f j) := by
    apply Finset.sum_congr rfl
    intro j hj
    rw [Function.update_of_ne (Finset.ne_of_mem_erase hj)]
  have hnew := Finset.sum_erase_add Finset.univ (fun j => w (Function.update f i x j))
    (Finset.mem_univ i)
  have hold := Finset.sum_erase_add Finset.univ (fun j => w (f j)) (Finset.mem_univ i)
  rw [Function.update_self] at hnew
  unfold total
  omega

theorem count_update [DecidableEq ι] (p : α → Bool) (f : ι → α) (i : ι) (x : α) :
    count p (Function.update f i x) + (p (f i)).toNat = count p f + (p x).toNat :=
  total_update (fun a => (p a).toNat) f i x

end Parties
