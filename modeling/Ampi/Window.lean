-- SUMMARY: A bounded window of chunks in flight, accounted for by two 32-bit positions that wrap.
import Mathlib

/-!
# Windows

A sender advances one position by the size of each chunk that it queues and the
other by the size of each chunk that is acknowledged, in order. Both positions
wrap; their difference does not as long as the window is bounded.
-/

namespace Window

def bytes (q : List UInt32) : Nat := (q.map UInt32.toNat).sum

@[simp] theorem bytes_nil : bytes [] = 0 := rfl

@[simp] theorem bytes_cons (n : UInt32) (q : List UInt32) : bytes (n :: q) = n.toNat + bytes q :=
  List.sum_cons ..

@[simp] theorem bytes_append (q q' : List UInt32) : bytes (q ++ q') = bytes q + bytes q' := by
  simp [bytes]

theorem bytes_le {cap : Nat} {q : List UInt32} (h : ∀ n ∈ q, n.toNat ≤ cap) :
    bytes q ≤ q.length * cap := by
  induction q with
  | nil => simp
  | cons n q ih =>
    have hn := h n (by simp)
    have hq := ih fun m hm => h m (by simp [hm])
    simp only [bytes_cons, List.length_cons, Nat.add_mul]
    omega

/-- The positions account for the chunks in flight, of which, with those about to
be queued, there are at most `limit`. -/
structure Accounts (limit : Nat) (writePos completePos : UInt32) (q : List UInt32) (pending : Nat) :
    Prop where
  diff : (writePos - completePos).toNat = bytes q
  slots : q.length + pending ≤ limit

namespace Accounts

variable {limit cap pending pending' : Nat} {w c n : UInt32} {q : List UInt32}

theorem reset (h : pending ≤ limit) : Accounts limit 0 0 [] pending := ⟨rfl, by simpa using h⟩

/-- Fewer chunks are about to be queued. -/
theorem mono (h : Accounts limit w c q pending) (hp : pending' ≤ pending) :
    Accounts limit w c q pending' := ⟨h.diff, by have := h.slots; omega⟩

theorem bytes_le (h : Accounts limit w c q pending) (hq : ∀ n ∈ q, n.toNat ≤ cap) :
    bytes q ≤ limit * cap :=
  (Window.bytes_le hq).trans (Nat.mul_le_mul_right cap (by have := h.slots; omega))

/-- One of the pending chunks is queued. -/
theorem send (h : Accounts limit w c q (pending + 1)) (hq : ∀ n ∈ q, n.toNat ≤ cap)
    (hn : n.toNat ≤ cap) (hcap : limit * cap < 2 ^ 32) :
    Accounts limit (w + n) c (q ++ [n]) pending := by
  have hlen := h.slots
  have hbytes : bytes q + n.toNat ≤ limit * cap := by
    calc bytes q + n.toNat ≤ q.length * cap + cap := Nat.add_le_add (Window.bytes_le hq) hn
      _ = (q.length + 1) * cap := by rw [Nat.add_mul, Nat.one_mul]
      _ ≤ limit * cap := Nat.mul_le_mul_right cap (by omega)
  refine ⟨?_, by simp only [List.length_append, List.length_singleton]; omega⟩
  have hdiff := h.diff
  rw [UInt32.toNat_sub] at hdiff ⊢
  rw [UInt32.toNat_add, bytes_append, bytes_cons, bytes_nil]
  have := w.toNat_lt
  have := c.toNat_lt
  omega

/-- The oldest chunk is acknowledged; its place may be taken by a new one. -/
theorem settle (h : Accounts limit w c (n :: q) pending) (hp : pending' ≤ pending + 1) :
    Accounts limit w (c + n) q pending' := by
  have hslots := h.slots
  rw [List.length_cons] at hslots
  refine ⟨?_, by omega⟩
  have hdiff := h.diff
  rw [bytes_cons, UInt32.toNat_sub] at hdiff
  rw [UInt32.toNat_sub, UInt32.toNat_add]
  have := w.toNat_lt
  have := c.toNat_lt
  have := n.toNat_lt
  omega

end Accounts
end Window
