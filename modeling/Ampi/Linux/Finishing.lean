-- SUMMARY: What becomes of a coroutine whose thread function returns.
import Ampi.Linux.Coroutine

/-!
# Finished threads

The scheduler of linux/coroutine.c with its link register. `ampi_co_jump` is called, so
`lr` is the address behind the call, and entering a coroutine leaves it there: the thread
function, entered for the first time, keeps it on its stack and returns to it. Nothing
else marks the end of a coroutine. The return lands in `ampi_co_next`, on the stack of the
coroutine; what `ampi_co_next` then pops lies above that stack, so the machine stops there.
-/

namespace Coroutine

/-- The link register in `ampi_co_jump`, called at `pc`: where the jump back goes to. -/
def linkRegister : Pc → Option Pc
  | .restoreCo i => some (.testUsed (i + 1))
  | .restoreMain => some .body
  | _ => none

/-- The scheduler and the thread functions. -/
structure Threads where
  co : State := {}
  /-- The return address on the stack of a coroutine that has been entered. -/
  returnTo : Nat → Option Pc := fun _ => none
  -- not in the source
  finished : Nat → Bool := fun _ => false
  /-- A thread function has returned. -/
  lost : Bool := false

namespace Threads

inductive Event where
  /-- A step of the scheduler or a call of it. -/
  | sched (e : Coroutine.Event)
  /-- The thread function of the running coroutine returns. -/
  | threadReturn
  deriving DecidableEq, Repr

/-- The coroutine that `ampi_co_next` enters in the step. -/
def enters (s : Threads) (e : Event) : Option Nat :=
  match e, s.lost, s.co.running with
  | .sched .exec, false, ⟨_, .restoreCo i⟩ :: _ => (s.co.regs i).map fun _ => i
  | _, _, _ => none

/-- The coroutine whose thread function returns in the step. -/
def finishes (s : Threads) (e : Event) : Option Nat :=
  match e, s.lost, s.co.running with
  | .threadReturn, false, ⟨.co id, .body⟩ :: _ => (s.returnTo id).map fun _ => id
  | _, _, _ => none

/-- The first lines of a thread function store the link register. -/
def enter (s : Threads) (i : Nat) : Nat → Option Pc :=
  match s.returnTo i with
  | none => Function.update s.returnTo i (linkRegister (.restoreCo i))
  | some _ => s.returnTo

/-- The thread function jumps to its return address; registers and variables of the
scheduler stay as they are. -/
def threadReturn (s : Threads) (id : Nat) : Threads :=
  match s.co.running, s.returnTo id with
  | frame :: rest, some pc =>
    { s with
      co := s.co.goto frame rest pc
      finished := Function.update s.finished id true
      lost := true }
  | _, _ => s

def step (s : Threads) (e : Event) : Threads :=
  match e with
  | .sched event =>
    if s.lost then s
    else
      { s with
        co := s.co.step event
        returnTo := match s.enters e with
          | some i => s.enter i
          | none => s.returnTo }
  | .threadReturn =>
    match s.finishes e with
    | some id => s.threadReturn id
    | none => s

/-! ## What is claimed -/

/-- A frame on the stack of a coroutine. -/
def onCo (f : Frame) : Bool :=
  match f.owner with
  | .co _ => true
  | _ => false

/-- Control is with the main thread: in the context that it has saved, on its stack. -/
structure BackInMain (s s' : Threads) : Prop where
  context : ∃ save, s.co.mainRegs = some save ∧ s'.co.running = save.stack
  stack : ∀ f, s'.co.running.head? = some f → onCo f = false
  current : s'.co.current = 0

/-- The return of a thread function goes back to the main thread, and a coroutine that has
finished is not entered again. -/
structure FinishesSoundly (s : Threads) (e : Event) : Prop where
  back : ∀ id, s.finishes e = some id → s.BackInMain (s.step e)
  onlyOnce : ∀ id, s.enters e = some id → s.finished id = false

/-! ## Returns -/

variable {s : Threads} {e : Event} {id : Nat}

/-- The return jumps to `ampi_co_next` on the stack of the coroutine, and nothing of the
scheduler notices. -/
theorem step_of_finishes (h : s.finishes e = some id) :
    ∃ rest pc, s.co.running = ⟨.co id, .body⟩ :: rest ∧ s.returnTo id = some pc ∧
      s.step e = { s with
        co := { s.co with running := ⟨.co id, pc⟩ :: rest }
        finished := Function.update s.finished id true
        lost := true } := by
  have hstep := h
  unfold finishes at h
  split at h
  next id' rest _ hrun =>
    obtain ⟨pc, hpc, heq⟩ := Option.map_eq_some_iff.1 h
    subst heq
    refine ⟨rest, pc, hrun, hpc, ?_⟩
    simp only [step, hstep, threadReturn, hrun, hpc]
    rfl
  next => cases h

/-- Whatever the main thread has saved, control is not there. -/
theorem not_backInMain_of_finishes (h : s.finishes e = some id) : ¬ s.BackInMain (s.step e) := by
  obtain ⟨rest, pc, -, -, hstep⟩ := step_of_finishes h
  intro hback
  have hmain := hback.stack ⟨.co id, pc⟩ (by rw [hstep]; rfl)
  cases hmain

/-- A step without a return finishes nobody. -/
theorem finished_step (h : s.finishes e = none) : (s.step e).finished = s.finished := by
  cases e with
  | sched event =>
    unfold step
    dsimp only
    split <;> rfl
  | threadReturn => simp only [step, h]

/-- As long as nobody has finished, a step is sound exactly if no thread function returns. -/
theorem finishesSoundly_iff (h : ∀ i, s.finished i = false) (e : Event) :
    s.FinishesSoundly e ↔ s.finishes e = none := by
  constructor
  · intro hsound
    cases hfin : s.finishes e with
    | none => rfl
    | some id => exact absurd (hsound.back id hfin) (not_backInMain_of_finishes hfin)
  · intro hnone
    exact {
      back := fun id hid => by rw [hnone] at hid; cases hid
      onlyOnce := fun id _ => h id }

theorem along_finishesSoundly_iff (h : ∀ i, s.finished i = false) (es : List Event) :
    Machine.Along step FinishesSoundly s es ↔
      Machine.Along step (fun s e => s.finishes e = none) s es := by
  induction es generalizing s with
  | nil => exact Iff.rfl
  | cons e es ih =>
    simp only [Machine.Along, finishesSoundly_iff h]
    refine and_congr_right fun hnone => ih ?_
    rw [finished_step hnone]
    exact h

/-- In a run, with whatever interrupts, the coroutines finish soundly exactly if none does. -/
theorem run_finishesSoundly_iff (es : List Event) :
    Machine.Along step FinishesSoundly {} es ↔
      Machine.Along step (fun s e => s.finishes e = none) {} es :=
  along_finishesSoundly_iff (fun _ => rfl) es

/-- The first coroutine is created and entered, and its function returns. -/
theorem not_run_finishesSoundly : ¬ ∀ es, Machine.Along step FinishesSoundly {} es := by
  intro h
  have hes := (along_finishesSoundly_iff (fun _ => rfl) _).1 (h
    ([.sched .create, .sched .poke] ++ List.replicate 5 (.sched .exec) ++ [.threadReturn]))
  revert hes
  decide +kernel

end Threads
end Coroutine
