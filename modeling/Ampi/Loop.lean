-- SUMMARY: While loops: the states a loop comes to, when it ends, and the rule for loops that stay in order.
import Mathlib.Logic.Relation
import Mathlib.Tactic.Common

/-!
# Loops

A loop is the function that takes its turn: `none` when the loop is left, the state after
the body otherwise. A loop is in order when every turn is and it ends.
-/

namespace Loop

variable {σ : Type*} (turn : σ → Option σ)

/-- The state in which the loop is left, if it is within `fuel` turns. -/
def run : (fuel : Nat) → σ → Option σ
  | 0, _ => none
  | fuel + 1, s =>
    match turn s with
    | none => some s
    | some t => run fuel t

/-- The loop comes from `s` to `t`. -/
def Reaches : σ → σ → Prop := Relation.ReflTransGen fun s t => turn s = some t

def Ends (s : σ) : Prop := ∃ fuel, (run turn fuel s).isSome

/-- Every turn that is taken from `s` on satisfies `ok`, and the loop ends. -/
inductive Orderly (ok : σ → Prop) : σ → Prop where
  | done {s : σ} (h : turn s = none) : Orderly ok s
  | next {s t : σ} (h : turn s = some t) (hok : ok s) (ht : Orderly ok t) : Orderly ok s

variable {turn} {ok : σ → Prop} {s t : σ}

theorem Reaches.refl (s : σ) : Reaches turn s s := Relation.ReflTransGen.refl

theorem Reaches.head (h : turn s = some t) {u : σ} (hu : Reaches turn t u) : Reaches turn s u :=
  Relation.ReflTransGen.head h hu

theorem ends_of_done (h : turn s = none) : Ends turn s := ⟨1, by simp [run, h]⟩

theorem ends_iff_of_turn (h : turn s = some t) : Ends turn s ↔ Ends turn t := by
  constructor
  · rintro ⟨fuel, hfuel⟩
    cases fuel with
    | zero => cases hfuel
    | succ fuel => exact ⟨fuel, by simpa only [run, h] using hfuel⟩
  · rintro ⟨fuel, hfuel⟩
    exact ⟨fuel + 1, by simpa only [run, h] using hfuel⟩

theorem orderly_iff :
    Orderly turn ok s ↔ (∀ t, Reaches turn s t → (turn t).isSome → ok t) ∧ Ends turn s := by
  constructor
  · intro h
    induction h with
    | @done s h =>
      refine ⟨fun t ht hsome => ?_, ends_of_done h⟩
      rcases Relation.ReflTransGen.cases_head ht with rfl | ⟨u, hu, -⟩
      · simp [h] at hsome
      · simp [h] at hu
    | @next s t h hok _ ih =>
      refine ⟨fun u hu hsome => ?_, (ends_iff_of_turn h).2 ih.2⟩
      rcases Relation.ReflTransGen.cases_head hu with rfl | ⟨v, hv, hrest⟩
      · exact hok
      · obtain rfl : t = v := Option.some.inj (h.symm.trans hv)
        exact ih.1 u hrest hsome
  · rintro ⟨hok, fuel, hfuel⟩
    induction fuel generalizing s with
    | zero => cases hfuel
    | succ fuel ih =>
      cases h : turn s with
      | none => exact .done h
      | some t =>
        refine .next h (hok s (.refl s) (by simp [h])) (ih (fun u hu => hok u (.head h hu)) ?_)
        simpa only [run, h] using hfuel

end Loop
