-- SUMMARY: Streams of framed messages: a header that announces a size, its parts, and messages that stand alone.
import Mathlib

/-!
# Framed streams

A header announces `n` units, which the parts after it must deliver before
anything else is sent. Scanning a stream keeps the number of units still owed.
-/

namespace Frames

inductive Kind where
  | header (n : Nat)
  | part (n : Nat)
  | single
  deriving DecidableEq, Repr

/-- The units owed after one more message, `none` once the framing is broken. -/
def owedStep : Option Nat → Kind → Option Nat
  | some 0, .header n => some n
  | some 0, .single => some 0
  | some k, .part n => if n ≤ k then some (k - n) else none
  | _, _ => none

def owed (l : List Kind) : Option Nat := l.foldl owedStep (some 0)

theorem owed_append (l l' : List Kind) : owed (l ++ l') = l'.foldl owedStep (owed l) :=
  List.foldl_append

@[simp] theorem owedStep_none (m : Kind) : owedStep none m = none := by cases m <;> rfl

@[simp] theorem foldl_owedStep_none (l : List Kind) : l.foldl owedStep none = none := by
  induction l with
  | nil => rfl
  | cons m l ih => simp [ih]

theorem owed_header {l : List Kind} (h : owed l = some 0) (n : Nat) :
    owed (l ++ [.header n]) = some n := by
  simp [owed_append, h, owedStep]

theorem owed_single {l : List Kind} (h : owed l = some 0) : owed (l ++ [.single]) = some 0 := by
  simp [owed_append, h, owedStep]

theorem owed_part {l : List Kind} {k n : Nat} (h : owed l = some k) (hn : n ≤ k) :
    owed (l ++ [.part n]) = some (k - n) := by
  cases k <;> simp_all [owed_append, owedStep]

/-- Every header is followed immediately by parts that deliver what it announces;
the last one may still be short of it as long as the stream is `unfinished`. -/
def Contiguous (l : List Kind) (unfinished : Prop) : Prop :=
  ∀ pre n post, l = pre ++ .header n :: post →
    ∃ (parts : List Nat) (rest : List Kind), post = parts.map .part ++ rest ∧
      (parts.sum = n ∨ rest = [] ∧ parts.sum < n ∧ unfinished)

/-- A scan that starts with `n` units owed and does not break begins with the parts
that deliver them. -/
theorem parts_of_scan {n k : Nat} {post : List Kind} (h : post.foldl owedStep (some n) = some k) :
    ∃ (parts : List Nat) (rest : List Kind), post = parts.map .part ++ rest ∧
      (parts.sum = n ∨ rest = [] ∧ parts.sum + k = n) := by
  induction post generalizing n with
  | nil => exact ⟨[], [], rfl, .inr ⟨rfl, by simpa using h.symm⟩⟩
  | cons m post ih =>
    cases n with
    | zero => exact ⟨[], m :: post, rfl, .inl rfl⟩
    | succ n =>
      cases m with
      | header n => simp [owedStep] at h
      | single => simp [owedStep] at h
      | part p =>
        simp only [List.foldl_cons, owedStep] at h
        split at h
        next hp =>
          obtain ⟨parts, rest, rfl, hsum⟩ := ih h
          refine ⟨p :: parts, rest, rfl, ?_⟩
          rw [List.sum_cons]
          exact hsum.imp (by omega) fun ⟨hr, hs⟩ => ⟨hr, by omega⟩
        · simp at h

/-- A scan that does not break is contiguous, and unfinished exactly while units
are owed. -/
theorem contiguous_of_owed {l : List Kind} {k : Nat} (h : owed l = some k) :
    Contiguous l (0 < k) := by
  rintro pre n post rfl
  rw [owed_append, List.foldl_cons] at h
  have hpre : owed pre = some 0 := by
    match hp : owed pre with
    | some 0 => rfl
    | some (j + 1) => simp [hp, owedStep] at h
    | none => simp [hp] at h
  rw [hpre, owedStep] at h
  obtain ⟨parts, rest, hpost, hsum⟩ := parts_of_scan h
  refine ⟨parts, rest, hpost, ?_⟩
  by_cases hk : k = 0
  · exact .inl (by omega)
  · rcases hsum with hsum | ⟨hrest, hsum⟩
    · exact .inl hsum
    · exact .inr ⟨hrest, by omega, by omega⟩

theorem Contiguous.mono {l : List Kind} {p q : Prop} (h : Contiguous l p) (hpq : p → q) :
    Contiguous l q := by
  intro pre n post hl
  obtain ⟨parts, rest, hpost, hsum⟩ := h pre n post hl
  exact ⟨parts, rest, hpost, hsum.imp_right fun ⟨hr, hs, hp⟩ => ⟨hr, hs, hpq hp⟩⟩

end Frames
