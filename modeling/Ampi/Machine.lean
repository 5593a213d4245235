-- SUMMARY: Event-driven machines: runs, guarded runs, and the invariant rules used by every protocol model.
import Mathlib.Logic.Basic
import Mathlib.Data.List.Basic

/-!
# Machines

A machine is a total step function `step : σ → ε → σ`. An event that the current
state does not admit leaves the state as it is, so every list of events is a run
and quantifying over event lists quantifies over all interleavings.
-/

namespace Machine

variable {σ ε : Type*} (step : σ → ε → σ)

/-- The state reached from `s` by the events `es`, first event first. -/
def run (s : σ) (es : List ε) : σ := es.foldl step s

@[simp] theorem run_nil (s : σ) : run step s [] = s := rfl

@[simp] theorem run_cons (s : σ) (e : ε) (es : List ε) :
    run step s (e :: es) = run step (step s e) es := rfl

theorem run_append (s : σ) (es fs : List ε) :
    run step s (es ++ fs) = run step (run step s es) fs := List.foldl_append

/-- Every step of the run `es` from `s` is taken in a state and with an event
that satisfy `ok`. -/
def Along (ok : σ → ε → Prop) : σ → List ε → Prop
  | _, [] => True
  | s, e :: es => ok s e ∧ Along ok (step s e) es

instance Along.decidable (ok : σ → ε → Prop) [∀ s e, Decidable (ok s e)] :
    ∀ (s : σ) (es : List ε), Decidable (Along step ok s es)
  | _, [] => .isTrue trivial
  | s, e :: es =>
    have := Along.decidable ok (step s e) es
    inferInstanceAs (Decidable (ok s e ∧ Along step ok (step s e) es))

variable {step}

theorem along_and {ok ok' : σ → ε → Prop} {s : σ} {es : List ε} :
    Along step (fun s e => ok s e ∧ ok' s e) s es ↔ Along step ok s es ∧ Along step ok' s es := by
  induction es generalizing s with
  | nil => simp [Along]
  | cons e es ih => simp [Along, ih]; tauto

theorem along_append {ok : σ → ε → Prop} {s : σ} {es fs : List ε} :
    Along step ok s (es ++ fs) ↔ Along step ok s es ∧ Along step ok (run step s es) fs := by
  induction es generalizing s with
  | nil => simp [Along]
  | cons e es ih => simp [Along, ih, and_assoc]

variable (step) in
/-- A condition on the events alone is a condition on the list. -/
theorem along_of_forall_mem {ok : ε → Prop} {s : σ} {es : List ε} (h : ∀ e ∈ es, ok e) :
    Along step (fun _ e => ok e) s es := by
  induction es generalizing s with
  | nil => trivial
  | cons e es ih =>
    exact ⟨h e (by simp), ih fun e' he' => h e' (by simp [he'])⟩

/-- What every admitted step preserves holds after the whole run. -/
theorem Along.invariant {ok : σ → ε → Prop} {I : σ → Prop}
    (hstep : ∀ s e, I s → ok s e → I (step s e)) {s : σ} {es : List ε}
    (hes : Along step ok s es) (h : I s) : I (run step s es) := by
  induction es generalizing s with
  | nil => exact h
  | cons e es ih => exact ih hes.2 (hstep s e h hes.1)

/-- The invariant rule for unguarded runs. -/
theorem run_invariant {I : σ → Prop} (hstep : ∀ s e, I s → I (step s e)) {s : σ}
    (es : List ε) (h : I s) : I (run step s es) := by
  induction es generalizing s with
  | nil => exact h
  | cons e es ih => exact ih (hstep s e h)

/-- Under an invariant an admitted step may be known to be more than admitted. -/
theorem Along.strengthen {ok ok' : σ → ε → Prop} {I : σ → Prop}
    (hstep : ∀ s e, I s → ok s e → ok' s e ∧ I (step s e)) {s : σ} {es : List ε}
    (hes : Along step ok s es) (h : I s) : Along step ok' s es := by
  induction es generalizing s with
  | nil => trivial
  | cons e es ih =>
    obtain ⟨hok, hI⟩ := hstep s e h hes.1
    exact ⟨hok, ih hes.2 hI⟩

/-- A view of the state that no admitted step changes while the invariant holds
is the same at both ends of the run. -/
theorem Along.const {ok : σ → ε → Prop} {I : σ → Prop} {β : Type*} (view : σ → β)
    (hstep : ∀ s e, I s → ok s e → I (step s e) ∧ view (step s e) = view s) {s : σ} {es : List ε}
    (hes : Along step ok s es) (h : I s) : view (run step s es) = view s := by
  induction es generalizing s with
  | nil => rfl
  | cons e es ih =>
    obtain ⟨hI, hv⟩ := hstep s e h hes.1
    exact (ih hes.2 hI).trans hv

/-- If, from a state where `I` holds, exactly the admitted steps lead to one where `P`
holds, and these keep `I`, then `P` holds all along a run exactly when every step is
admitted. -/
theorem along_iff_forall_take {ok : σ → ε → Prop} {I P : σ → Prop} (hI : ∀ s, I s → P s)
    (hstep : ∀ s e, I s → (P (step s e) ↔ ok s e))
    (hkeep : ∀ s e, I s → ok s e → I (step s e)) {s : σ} (h : I s) (es : List ε) :
    (∀ k, P (run step s (es.take k))) ↔ Along step ok s es := by
  induction es generalizing s with
  | nil => simpa [Along] using hI s h
  | cons e es ih =>
    constructor
    · intro hall
      have hok : ok s e := (hstep s e h).1 (by simpa using hall 1)
      exact ⟨hok, (ih (hkeep s e h hok)).1 fun k => by simpa using hall (k + 1)⟩
    · rintro ⟨he, hes⟩ k
      cases k with
      | zero => simpa using hI s h
      | succ k => simpa using (ih (hkeep s e h he)).2 hes k

end Machine
