-- SUMMARY: Completions, and how long one that is complete for all stays complete.
import Ampi.Machine
import Mathlib.Algebra.Group.Int.Defs
import Mathlib.Algebra.Group.Nat.Defs
import Mathlib.Logic.Function.Iterate
import Mathlib.Tactic.Common

/-!
# Completions

`struct completion` is a signed 32-bit counter. `complete_all` sets it to its greatest value,
from which each wait takes one; a wait yields only while it finds zero. A pass of a waiting
loop is one event, so the events of several coroutines interleave freely.
-/

/-- `struct completion`. -/
structure Completion where
  done : BitVec 32 := 0#32
  deriving DecidableEq, Repr

namespace Completion

/-- What a call, or a pass of its loop, comes to. -/
inductive Outcome where
  | returned (result : Int)
  | yields
  deriving DecidableEq, Repr

inductive Event where
  | complete
  | completeAll
  /-- `init_completion` or `reinit_completion`. -/
  | reinit
  | tryWait
  | wait
  /-- `wait_for_completion_interruptible_timeout`, whose time is up or not. -/
  | waitTimeout (expired : Bool)
  deriving DecidableEq, Repr

def Event.isWait : Event → Bool
  | .tryWait | .wait | .waitTimeout _ => true
  | _ => false

def reinitCompletion (x : Completion) : Completion := { x with done := 0#32 }

/-- An increment of the greatest value wraps. -/
def complete (x : Completion) : Completion := { x with done := x.done + 1#32 }

def completeAll (x : Completion) : Completion := { x with done := (-1 : BitVec 32) / 2 }

/-- A pass of the loop of `wait_for_completion`. -/
def waitForCompletion (x : Completion) : Completion × Outcome :=
  if x.done = 0#32 then (x, .yields) else ({ x with done := x.done - 1#32 }, .returned 0)

def tryWaitForCompletion (x : Completion) : Completion × Outcome :=
  if x.done = 0#32 then (x, .returned 0) else ({ x with done := x.done - 1#32 }, .returned 1)

/-- A pass of the loop of `wait_for_completion_interruptible_timeout`. -/
def waitForCompletionInterruptibleTimeout (x : Completion) (expired : Bool) :
    Completion × Outcome :=
  if x.done = 0#32 then (x, if expired then .returned 0 else .yields)
  else ({ x with done := x.done - 1#32 }, .returned 1)

/-- An event on the completion, with what the coroutine sees. -/
def act (x : Completion) : Event → Completion × Outcome
  | .complete => (x.complete, .returned 0)
  | .completeAll => (x.completeAll, .returned 0)
  | .reinit => (x.reinitCompletion, .returned 0)
  | .tryWait => x.tryWaitForCompletion
  | .wait => x.waitForCompletion
  | .waitTimeout expired => x.waitForCompletionInterruptibleTimeout expired

def step (x : Completion) (e : Event) : Completion := (x.act e).1

/-- No wait yields, and those that can fail do not. -/
def served (x : Completion) (e : Event) : Bool :=
  match e with
  | .tryWait | .waitTimeout _ => (x.act e).2 = .returned 1
  | _ => (x.act e).2 ≠ .yields

/-! ## The counter without a bound -/

/-- The counter, were it not confined to 32 bits. -/
def count (n : Int) : Event → Int
  | .complete => n + 1
  | .completeAll => 2 ^ 31 - 1
  | .reinit => 0
  | .tryWait | .wait | .waitTimeout _ => n - 1

/-- A wait does not find the counter at zero. -/
def covered (n : Int) (e : Event) : Bool := !e.isWait || n % 2 ^ 32 ≠ 0

/-- What the 32 bits keep of the counter. -/
def ofCount (n : Int) : Completion := ⟨BitVec.ofInt 32 n⟩

theorem ofCount_done (n : Int) : (ofCount n).done = 0#32 ↔ n % 4294967296 = 0 := by
  rw [← BitVec.toNat_inj, ofCount, BitVec.toNat_ofInt]
  change (n % 4294967296).toNat = 0 ↔ _
  omega

theorem ofCount_add_one (n : Int) : (ofCount n).done + 1#32 = (ofCount (n + 1)).done := by
  rw [ofCount, ofCount, BitVec.ofInt_add]
  rfl

theorem ofCount_sub_one (n : Int) : (ofCount n).done - 1#32 = (ofCount (n - 1)).done := by
  rw [ofCount, ofCount, Int.sub_eq_add_neg, BitVec.ofInt_add, BitVec.ofInt_neg,
    BitVec.sub_eq_add_neg]
  rfl

theorem completeAll_eq (x : Completion) : x.completeAll = ofCount (2 ^ 31 - 1) :=
  congrArg mk (by decide)

theorem step_ofCount {n : Int} {e : Event} (h : covered n e) :
    (ofCount n).step e = ofCount (count n e) := by
  cases e with
  | complete => exact congrArg mk (ofCount_add_one n)
  | completeAll => exact completeAll_eq (ofCount n)
  | reinit => rfl
  | tryWait | wait | waitTimeout expired =>
    have hne : ¬ (ofCount n).done = 0#32 := by simpa [ofCount_done, covered, Event.isWait] using h
    simp only [step, act, tryWaitForCompletion, waitForCompletion,
      waitForCompletionInterruptibleTimeout, if_neg hne]
    exact congrArg mk (ofCount_sub_one n)

theorem served_ofCount (n : Int) (e : Event) : (ofCount n).served e = covered n e := by
  cases e with
  | complete | completeAll | reinit => rfl
  | tryWait | wait | waitTimeout expired =>
    by_cases h : n % 4294967296 = 0
    · have hdone := (ofCount_done n).2 h
      simp [served, act, tryWaitForCompletion, waitForCompletion,
        waitForCompletionInterruptibleTimeout, covered, Event.isWait, h, hdone]
      try split <;> simp
    · have hdone := (ofCount_done n).not.2 h
      simp [served, act, tryWaitForCompletion, waitForCompletion,
        waitForCompletionInterruptibleTimeout, covered, Event.isWait, h, hdone]

theorem along_served_iff (n : Int) (es : List Event) :
    Machine.Along step (fun x e => x.served e) (ofCount n) es ↔
      Machine.Along count (fun n e => covered n e) n es := by
  induction es generalizing n with
  | nil => exact Iff.rfl
  | cons e es ih =>
    simp only [Machine.Along, served_ofCount]
    refine and_congr_right fun h => ?_
    rw [step_ofCount h, ih]

/-! ## Uses of VideoCore -/

/-- What `vchiq_arm_init_state` makes of `vc_resume_complete`. -/
def vcResumeComplete : Completion := completeAll {}

/-- The wait of `vchiq_use_internal` on `vc_resume_complete`. -/
def useInternal (x : Completion) : Completion × Outcome :=
  match x.tryWaitForCompletion with
  | (x, .returned 0) => x.waitForCompletion
  | served => served

/-- `vc_resume_complete` after `k` uses, if no suspend is ever requested. -/
def afterUses (k : Nat) : Completion := (fun x => x.useInternal.1)^[k] vcResumeComplete

theorem useInternal_ofCount {n : Int} (hn : 0 < n) (hlt : n < 2 ^ 31) :
    (ofCount n).useInternal = (ofCount (n - 1), .returned 1) := by
  have hdone : ¬ (ofCount n).done = 0#32 := by
    rw [ofCount_done]
    omega
  rw [useInternal, tryWaitForCompletion, if_neg hdone, ofCount_sub_one]
  rfl

theorem useInternal_ofCount_zero : (ofCount 0).useInternal = (ofCount 0, .yields) := by decide

theorem afterUses_eq (k : Nat) : afterUses k = ofCount (max 0 (2 ^ 31 - 1 - k)) := by
  induction k with
  | zero => exact completeAll_eq {}
  | succ k ih =>
    rw [afterUses, Function.iterate_succ_apply']
    change (afterUses k).useInternal.1 = _
    rw [ih]
    by_cases h : k < 2 ^ 31 - 1
    · rw [useInternal_ofCount (by omega) (by omega)]
      refine congrArg ofCount ?_
      omega
    · rw [Int.max_eq_left (by omega), useInternal_ofCount_zero, Int.max_eq_left (by omega)]

theorem afterUses_yields_iff (k : Nat) :
    (afterUses k).useInternal.2 = .yields ↔ 2 ^ 31 - 1 ≤ k := by
  rw [afterUses_eq]
  by_cases h : k < 2 ^ 31 - 1
  · rw [useInternal_ofCount (by omega) (by omega)]
    simp only [reduceCtorEq, false_iff]
    omega
  · rw [Int.max_eq_left (by omega), useInternal_ofCount_zero]
    simp only [true_iff]
    omega

/-! ## How long `complete_all` lasts -/

/-- From `complete_all` on, until the completion is initialised again, every wait is served. -/
def Permanent (x : Completion) (es : List Event) : Prop :=
  Machine.Along step (fun x e => x.served e) x.completeAll (es.takeWhile (· ≠ .reinit))

/-- The waits are served as long as they have not taken, modulo `2 ^ 32`, all that
`complete_all` and the calls of `complete` have put into the counter; and a use waits for a
resume after `2 ^ 31 - 1` others. -/
theorem permanent_iff (x : Completion) (es : List Event) (k : Nat) :
    (x.Permanent es ↔ Machine.Along count (fun n e => covered n e) (2 ^ 31 - 1)
      (es.takeWhile (· ≠ .reinit))) ∧
      ((afterUses k).useInternal.2 ≠ .yields ↔ k < 2 ^ 31 - 1) := by
  constructor
  · rw [Permanent, completeAll_eq, along_served_iff]
  · rw [ne_eq, afterUses_yields_iff, Nat.not_le]

theorem run_count_replicate (n : Int) (k : Nat) :
    Machine.run count n (List.replicate k .tryWait) = n - k := by
  induction k generalizing n with
  | zero => simp
  | succ k ih =>
    rw [List.replicate_succ, Machine.run_cons, ih, count]
    omega

/-- One wait too many finds the counter at zero. -/
theorem not_covered_replicate (n : Nat) :
    ¬ Machine.Along count (fun n e => covered n e) n (List.replicate (n + 1) .tryWait) := by
  rw [List.replicate_succ', Machine.along_append, run_count_replicate]
  simp [Machine.Along, covered, Event.isWait]

/-- `complete_all` is not permanent. -/
theorem not_permanent : ¬ ∀ (x : Completion) (es : List Event), x.Permanent es := by
  intro h
  have hes := h {} (List.replicate (2 ^ 31 - 1 + 1) .tryWait)
  rw [Permanent, completeAll_eq, List.takeWhile_replicate_eq_filter,
    List.filter_replicate_of_pos (by decide), along_served_iff] at hes
  exact not_covered_replicate (2 ^ 31 - 1) hes

end Completion
