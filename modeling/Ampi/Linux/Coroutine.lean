-- SUMMARY: The coroutine scheduler at the level of statements, with timer interrupts, as a machine of saved contexts.
import Ampi.Machine
import Mathlib.Logic.Function.Basic
import Mathlib.Tactic.Common

/-!
# Coroutines

linux/coroutine.c, one statement a step. A context is a stack of frames, the frame
being executed first; what lies under a frame of an interrupt handler is what the
interrupt has interrupted. Saving stores the whole context in `main_regs` or in one
of `regs`, and restoring makes the stored context the one being executed, whether
or not that context is still waiting to be restored.

A jump is a save followed by a restore. `AMPiPoke` and `ampi_co_yield` on the main
thread run the same loop over `ampi_co_next`. The callback of `ampi_co_callback` is
not set, and creating a coroutine is one step.
-/

namespace Coroutine

/-- `MAX_CO`. -/
def maxCo : Nat := 8

/-- Whose code a frame is. Coroutines are numbered from 0, as `regs` is. -/
inductive Owner where
  | prog
  | irq
  | co (id : Nat)
  deriving DecidableEq, Repr

/-- The next statement of a frame. -/
inductive Pc where
  /-- Outside the scheduler. -/
  | body
  -- `ampi_co_yield`
  | testCurrent
  | clearCurrent (id : Nat)
  | saveCo (id : Nat)
  | restoreMain
  -- `for (...) ampi_co_next (i + 1)`
  | testUsed (i : Nat)
  | setCurrent (i : Nat)
  | testPc (i : Nat)
  | saveMain (i : Nat)
  | restoreCo (i : Nat)
  deriving DecidableEq, Repr

structure Frame where
  owner : Owner
  pc : Pc
  deriving DecidableEq, Repr

/-- A saved context. The serial number tells one save from another. -/
structure Save where
  stack : List Frame
  serial : Nat
  deriving DecidableEq, Repr

structure State where
  current : Nat := 0
  used : Nat → Bool := fun _ => false
  mainRegs : Option Save := none
  /-- `none` is a context whose `pc` is 0. -/
  regs : Nat → Option Save := fun _ => none
  running : List Frame := [⟨.prog, .body⟩]
  -- not in the source
  serial : Nat := 0
  /-- The saves that have been resumed. -/
  resumed : List Nat := []
  /-- The coroutine has been entered and has not saved itself since. -/
  entered : Nat → Bool := fun _ => false
  /-- The save in `main_regs` of the call of `ampi_co_next` that last entered the coroutine. -/
  enteredBy : Nat → Option Nat := fun _ => none

inductive Event where
  /-- The frame being executed goes on to its next statement. -/
  | exec
  /-- Code outside the scheduler calls `ampi_co_yield`. -/
  | yield
  /-- The main program calls `AMPiPoke`. -/
  | poke
  /-- `ampi_co_create`. -/
  | create
  /-- A timer interrupt is taken; its handler calls `AMPiPoke`. -/
  | interrupt
  deriving DecidableEq, Repr

namespace State

def goto (s : State) (frame : Frame) (rest : List Frame) (pc : Pc) : State :=
  { s with running := { frame with pc } :: rest }

/-- `ampi_co_jump` loads the registers from `save`. -/
def restore (s : State) (save : Save) : State :=
  { s with running := save.stack, resumed := save.serial :: s.resumed }

/-- The loop over `ampi_co_next` is done: return from `ampi_co_yield` or `AMPiPoke`,
and from the interrupt whose handler has called it. -/
def loopDone (s : State) (frame : Frame) (rest : List Frame) : State :=
  match frame.owner with
  | .irq => { s with running := rest }
  | _ => s.goto frame rest .body

def exec (s : State) (frame : Frame) (rest : List Frame) : State :=
  match frame.pc with
  | .body => s
  | .testCurrent =>
    s.goto frame rest (if 0 < s.current then .clearCurrent (s.current - 1) else .testUsed 0)
  | .clearCurrent id => { s with current := 0 }.goto frame rest (.saveCo id)
  | .saveCo id =>
    { s with
      regs := Function.update s.regs id (some ⟨{ frame with pc := .body } :: rest, s.serial⟩)
      serial := s.serial + 1
      entered := match frame.owner with
        | .co j => Function.update s.entered j false
        | _ => s.entered }.goto frame rest .restoreMain
  | .restoreMain =>
    match s.mainRegs with
    | none => s
    | some save => s.restore save
  | .testUsed i =>
    if i < maxCo then s.goto frame rest (if s.used i then .setCurrent i else .testUsed (i + 1))
    else s.loopDone frame rest
  | .setCurrent i => { s with current := i + 1 }.goto frame rest (.testPc i)
  | .testPc i =>
    match s.regs i with
    | some _ => s.goto frame rest (.saveMain i)
    | none =>
      { s with
        regs := Function.update s.regs i (some ⟨[⟨.co i, .body⟩], s.serial⟩)
        serial := s.serial + 1 }.goto frame rest (.saveMain i)
  | .saveMain i =>
    { s with
      mainRegs := some ⟨{ frame with pc := .testUsed (i + 1) } :: rest, s.serial⟩
      serial := s.serial + 1 }.goto frame rest (.restoreCo i)
  | .restoreCo i =>
    match s.regs i with
    | none => s
    | some save =>
      { s with
        entered := Function.update s.entered i true
        enteredBy := Function.update s.enteredBy i (s.mainRegs.map Save.serial) }.restore save

/-- The first coroutine that is not used. -/
def create (s : State) : State :=
  match (List.range maxCo).find? fun i => !s.used i with
  | none => s
  | some i => { s with used := Function.update s.used i true }

def step (s : State) (e : Event) : State :=
  match s.running with
  | [] => s
  | frame :: rest =>
    match e, frame with
    | .exec, _ => s.exec frame rest
    | .yield, ⟨.prog, .body⟩ | .yield, ⟨.co _, .body⟩ => s.goto frame rest .testCurrent
    | .poke, ⟨.prog, .body⟩ => s.goto frame rest (.testUsed 0)
    | .create, ⟨.prog, .body⟩ | .create, ⟨.co _, .body⟩ => s.create
    | .interrupt, _ => { s with running := ⟨.irq, .testUsed 0⟩ :: s.running }
    | _, _ => s

end State

/-! ## Sound switching -/

/-- What `current` is while `frame` is being executed: the coroutine it belongs to,
or the one that it is switching to. -/
def Frame.expectedCurrent (frame : Frame) : Nat :=
  match frame.owner, frame.pc with
  | .co _, .saveCo _ | .co _, .restoreMain => 0
  | .co id, _ => id + 1
  | _, .testPc i | _, .saveMain i | _, .restoreCo i => i + 1
  | _, _ => 0

namespace State

/-- A saved context is resumed for the first time. `ampi_co_next` resumes a coroutine
that is neither running nor interrupted, `ampi_co_yield` the call of `ampi_co_next`
that has entered the coroutine, and an interrupt returns with `current` naming the
coroutine being executed. -/
def sound (s : State) (e : Event) : Bool :=
  match s.running with
  | [] => true
  | frame :: rest =>
    match e, frame.pc with
    | .exec, .restoreCo i =>
      match s.regs i with
      | none => true
      | some save => !s.entered i && !s.resumed.contains save.serial
    | .exec, .restoreMain =>
      match frame.owner, s.mainRegs with
      | .co id, some save => s.enteredBy id = some save.serial && !s.resumed.contains save.serial
      | _, _ => false
    | .exec, .testUsed i =>
      match frame.owner, rest with
      | .irq, below :: _ => maxCo ≤ i → s.current = below.expectedCurrent
      | _, _ => true
    | _, _ => true

/-- Every step of every run switches soundly. -/
def SwitchesSoundly : Prop := ∀ es, Machine.Along step (sound · ·) {} es

end State

end Coroutine
