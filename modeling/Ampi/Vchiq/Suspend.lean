-- SUMMARY: Suspending and resuming VideoCore: the states, their completions and the threads that wait for them.
import Ampi.Linux.Completion
import Ampi.Parties
import Mathlib.Logic.Function.Basic

/-!
# Suspend and resume

Any number of threads are in `vchiq_use_internal`, `vchiq_arm_force_suspend` and
`vchiq_arm_allow_resume`. They change the state with `susp_res_lock` write-locked, and yield
nowhere while they hold it. So one step of a thread is a pass of the loop of a wait, or what
it does from getting the lock to giving it back.

The acknowledgements at the end of a use are those of `KeepAlive`, and the counts of the
services those of `UseCount`.
-/

namespace Suspend

/-- `enum vc_suspend_status`. -/
inductive SuspendStatus where
  | forceCanceled | rejected | failed | idle | requested | inProgress | suspended
  deriving DecidableEq, Repr

def SuspendStatus.toInt : SuspendStatus → Int
  | forceCanceled => -3
  | rejected => -2
  | failed => -1
  | idle => 0
  | requested => 1
  | inProgress => 2
  | suspended => 3

/-- `enum vc_resume_status`. -/
inductive ResumeStatus where
  | failed | idle | requested | inProgress | resumed
  deriving DecidableEq, Repr

def ResumeStatus.toInt : ResumeStatus → Int
  | failed => -1
  | idle => 0
  | requested => 1
  | inProgress => 2
  | resumed => 3

/-- `enum USE_TYPE_E`. -/
inductive UseType where
  | service | serviceNoResume | vchiq
  deriving DecidableEq, Repr

inductive Status where
  | success | error | retry
  deriving DecidableEq, Repr

/-- `FORCE_SUSPEND_FAIL_MAX`. -/
def forceSuspendFailMax : Nat := 8

/-! ## The platform -/

/-- Autosuspend is not supported. -/
def vchiqPlatformVideocoreWanted : Bool := true

def vchiqPlatformUseSuspendTimer : Bool := false

/-! ## The state -/

/-- `VCHIQ_ARM_STATE_T`, and `poll_needed` of `VCHIQ_STATE_T`. -/
structure ArmState where
  vcSuspendState : SuspendStatus := .idle
  vcResumeState : ResumeStatus := .idle
  vcSuspendComplete : Completion := {}
  vcResumeComplete : Completion := {}
  resumeBlocker : Completion := {}
  blockedBlocker : Completion := {}
  resumeBlocked : Bool := false
  blockedCount : Nat := 0
  videocoreUseCount : Nat := 0
  autosuspendOverride : Nat := 0
  suspendTimerRunning : Bool := false
  wakeAddress : Nat := 0
  firstConnect : Bool := false
  pollNeeded : Bool := false
  deriving DecidableEq, Repr

namespace ArmState

def setSuspendState (a : ArmState) (newState : SuspendStatus) : ArmState :=
  let a := { a with vcSuspendState := newState }
  match newState with
  | .forceCanceled | .rejected | .suspended =>
    { a with vcSuspendComplete := a.vcSuspendComplete.completeAll }
  | .failed =>
    { a with
      vcSuspendComplete := a.vcSuspendComplete.completeAll
      vcResumeState := .resumed
      vcResumeComplete := a.vcResumeComplete.completeAll }
  | .idle => { a with vcSuspendComplete := a.vcSuspendComplete.reinitCompletion }
  | .requested => a
  | .inProgress =>
    -- `set_resume_state (arm_state, VC_RESUME_IDLE)`
    { a with vcResumeState := .idle, vcResumeComplete := a.vcResumeComplete.reinitCompletion }

def setResumeState (a : ArmState) (newState : ResumeStatus) : ArmState :=
  let a := { a with vcResumeState := newState }
  match newState with
  | .failed | .requested | .inProgress => a
  | .idle => { a with vcResumeComplete := a.vcResumeComplete.reinitCompletion }
  | .resumed =>
    { a with vcResumeComplete := a.vcResumeComplete.completeAll }.setSuspendState .idle

/-- `vchiq_arm_init_state` on zeroed memory. -/
def vchiqArmInitState : ArmState :=
  let a : ArmState := ({} : ArmState).setResumeState .resumed
  { a with
    resumeBlocker := a.resumeBlocker.completeAll
    blockedBlocker := a.blockedBlocker.completeAll }

/-- `request_poll (state, NULL, 0)`. -/
def requestPoll (a : ArmState) : ArmState := { a with pollNeeded := true }

def startSuspendTimer (a : ArmState) : ArmState := { a with suspendTimerRunning := true }

def stopSuspendTimer (a : ArmState) : ArmState :=
  if a.suspendTimerRunning then { a with suspendTimerRunning := false } else a

def vchiqVideocoreWanted (a : ArmState) : Bool :=
  if a.blockedCount ≠ 0 then true
  else if a.videocoreUseCount = 0 then
    if a.resumeBlocked then false else vchiqPlatformVideocoreWanted
  else true

def needResume (a : ArmState) : Bool :=
  SuspendStatus.idle.toInt < a.vcSuspendState.toInt ∧
    a.vcResumeState.toInt < ResumeStatus.requested.toInt ∧ a.vchiqVideocoreWanted

def unblockResume (a : ArmState) : ArmState :=
  { a with resumeBlocker := a.resumeBlocker.completeAll, resumeBlocked := false }

def vchiqArmVcsuspend (a : ArmState) : ArmState :=
  match a.vcSuspendState with
  | .requested | .inProgress => a
  | .idle => (a.setSuspendState .requested).requestPoll
  | _ => ((a.setSuspendState .idle).setSuspendState .requested).requestPoll

/-- `vchiq_platform_suspend`, which it calls, does nothing. -/
def vchiqPlatformCheckSuspend (a : ArmState) : ArmState :=
  if a.vcSuspendState = .requested ∧ a.vcResumeState = .resumed then
    a.setSuspendState .inProgress
  else a

/-- The beginning of a round of the slot handler. -/
def slotHandlerRound (a : ArmState) : ArmState :=
  if a.pollNeeded then { a.vchiqPlatformCheckSuspend with pollNeeded := false } else a

/-- Also `suspend_timer_callback`. -/
def vchiqCheckSuspend (a : ArmState) : ArmState :=
  if a.vcSuspendState ≠ .suspended ∧ a.firstConnect ∧ !a.vchiqVideocoreWanted then
    a.vchiqArmVcsuspend
  else a

/-- The result tells whether VideoCore is to be resumed. -/
def vchiqCheckResume (a : ArmState) : ArmState × Bool :=
  if a.needResume then ((a.setResumeState .requested).requestPoll, true) else (a, false)

/-- `vchiq_platform_resume`, which it calls, does nothing. -/
def vchiqPlatformCheckResume (a : ArmState) : ArmState :=
  if a.wakeAddress = 0 then a
  else
    match a.vcResumeState with
    | .requested => a.setResumeState .inProgress
    | _ => a

/-- `vchiq_platform_conn_state_changed`, when the new state is CONNECTED. -/
def connStateChanged (a : ArmState) : ArmState := { a with firstConnect := true }

/-- The loop of `vchiq_use_internal` while resume is blocked. The result tells whether the
thread has to wait; a wait that the blocker does not hold up is a turn of the loop. -/
def useLoop : Nat → ArmState → ArmState × Bool
  | 0, a => (a, false)
  | turns + 1, a =>
    if a.resumeBlocked then
      if a.vcSuspendState = .idle then (a.setSuspendState .forceCanceled, false)
      else
        match a.resumeBlocker.tryWaitForCompletion with
        | (x, .returned 0) =>
          ({ a with resumeBlocker := x, blockedCount := a.blockedCount + 1 }, true)
        | (x, _) => useLoop turns { a with resumeBlocker := x }
    else (a, false)

/-- `++arm_state->videocore_use_count`. -/
def countUse (a : ArmState) : ArmState := { a with videocoreUseCount := a.videocoreUseCount + 1 }

/-- A request that has not been serviced is cleared. -/
def clearRequest (a : ArmState) : ArmState :=
  if a.vcSuspendState.toInt ≤ SuspendStatus.requested.toInt then a.setSuspendState .idle else a

/-- What `vchiq_use_internal` does behind the loop, before it unlocks. -/
def count (a : ArmState) (type : UseType) : ArmState :=
  let a := a.stopSuspendTimer.countUse.clearRequest
  if type ≠ .serviceNoResume ∧ a.needResume then (a.setResumeState .requested).requestPoll
  else a

/-- A thread has been let through by the resume blocker. -/
def unblocked (a : ArmState) : ArmState :=
  let a := { a with blockedCount := a.blockedCount - 1 }
  if a.blockedCount = 0 then { a with blockedBlocker := a.blockedBlocker.completeAll } else a

/-- `vchiq_release_internal`; `counted` tells whether the count of the service, or of the
peer, is not zero. The source has the decrements in a comment. -/
def vchiqReleaseInternal (a : ArmState) (counted : Bool) : ArmState :=
  if a.videocoreUseCount = 0 ∨ !counted then a
  else if !a.vchiqVideocoreWanted then
    if vchiqPlatformUseSuspendTimer ∧ !a.resumeBlocked then a.startSuspendTimer
    else a.vchiqArmVcsuspend
  else a

/-- The end of `block_resume`. -/
def blockResume (a : ArmState) : ArmState :=
  { a with resumeBlocker := a.resumeBlocker.reinitCompletion, resumeBlocked := true }

/-- How `vchiq_arm_force_suspend` asks for a suspend, if there has been none. -/
def initiateSuspend (a : ArmState) : ArmState :=
  if a.vcSuspendState.toInt ≤ SuspendStatus.idle.toInt then
    let a := a.stopSuspendTimer
    if !a.vchiqVideocoreWanted then a.vchiqArmVcsuspend
    else if a.autosuspendOverride < forceSuspendFailMax then a
    else a.vchiqArmVcsuspend
  else a

end ArmState

/-! ## Threads -/

/-- Where a thread stands. Before a lock it is about to call `write_lock_bh`. -/
inductive Pc where
  | outside
  /-- `vchiq_use_internal` before its first lock. -/
  | use (type : UseType)
  /-- In `wait_for_completion_killable (&arm_state->resume_blocker)`. -/
  | useBlocked (type : UseType)
  /-- Before the lock behind that wait. -/
  | useUnblocked (type : UseType)
  /-- At the wait for `vc_resume_complete`. -/
  | useResume
  /-- `vchiq_arm_force_suspend` before its first lock. -/
  | force
  /-- In `block_resume`, waiting for `blocked_blocker`. -/
  | forceBlocked
  /-- In the loop of `block_resume`, before the lock, with `resume_count`. -/
  | forceLoop (resumeCount : Nat)
  /-- In the loop of `block_resume`, waiting for `vc_resume_complete`. -/
  | forceResume (resumeCount : Nat)
  /-- Waiting for `vc_suspend_complete`, for the first time or the second. -/
  | forceWait (repeated : Bool)
  /-- Before the lock behind that wait. -/
  | forceWaited (completed repeated : Bool)
  /-- `vchiq_arm_allow_resume` before its first lock. -/
  | allow
  /-- Waiting for `vc_resume_complete`. -/
  | allowResume
  /-- Before `read_lock_bh`. -/
  | allowRead
  deriving DecidableEq, Repr

/-- What a call has returned. -/
inductive Return where
  | used
  | forced (status : Status)
  | allowed (suspended : Bool)
  deriving DecidableEq, Repr

structure State (ι : Type*) where
  arm : ArmState := .vchiqArmInitState
  pc : ι → Pc := fun _ => .outside
  -- not in the source
  /-- The waits for `vc_resume_complete` that have been served. -/
  served : Nat := 0
  returns : List (ι × Return) := []

inductive Event (ι : Type*) where
  | use (i : ι) (type : UseType)
  | release (counted : Bool)
  | forceSuspend (i : ι)
  | allowResume (i : ι)
  | checkSuspend
  | checkResume
  | slotHandler
  | connected
  /-- The thread goes on; the time of its wait is up or not. -/
  | go (i : ι) (expired : Bool)

namespace State

variable {ι : Type*} [DecidableEq ι]

def goto (s : State ι) (i : ι) (pc : Pc) : State ι := { s with pc := Function.update s.pc i pc }

def ret (s : State ι) (i : ι) (r : Return) : State ι :=
  { s with returns := s.returns ++ [(i, r)] }.goto i .outside

/-- `vchiq_use_internal` with the lock. -/
def useLocked (s : State ι) (i : ι) (type : UseType) : State ι :=
  match s.arm.useLoop (s.arm.resumeBlocker.done.toNat + 1) with
  | (arm, true) => { s with arm }.goto i (.useBlocked type)
  | (arm, false) => { s with arm := arm.count type }.goto i .useResume

/-- `vchiq_arm_force_suspend` with the lock, from the loop of `block_resume` on. -/
def forceLocked (s : State ι) (i : ι) (resumeCount : Nat) : State ι :=
  if s.arm.vcResumeState ≠ .resumed ∧
      ResumeStatus.idle.toInt < s.arm.vcResumeState.toInt then
    if 1 < resumeCount then s.ret i (.forced .error) else s.goto i (.forceResume resumeCount)
  else
    let s := { s with arm := s.arm.blockResume }
    if s.arm.vcSuspendState = .suspended then s.ret i (.forced .success)
    else { s with arm := s.arm.initiateSuspend }.goto i (.forceWait false)

/-- `vchiq_arm_force_suspend` with the lock, after a wait for `vc_suspend_complete`. -/
def forceWaited (s : State ι) (i : ι) (completed repeated : Bool) : State ι :=
  if !completed then
    if SuspendStatus.idle.toInt < s.arm.vcSuspendState.toInt ∧ !repeated then
      s.goto i (.forceWait true)
    else
      let arm := { s.arm with autosuspendOverride := s.arm.autosuspendOverride + 1 }
      { s with arm := arm.unblockResume }.ret i (.forced .retry)
  else if s.arm.vcSuspendState ≠ .suspended then
    let arm :=
      if s.arm.vcSuspendState.toInt < SuspendStatus.idle.toInt then s.arm.setSuspendState .idle
      else s.arm
    { s with arm := arm.unblockResume }.ret i (.forced .retry)
  else s.ret i (.forced .success)

/-- A wait for `vc_resume_complete`, and what the thread does when it is served. -/
def waitResume (s : State ι) (next : State ι → State ι) :
    Completion × Completion.Outcome → State ι
  | (x, .returned _) =>
    next { s with arm := { s.arm with vcResumeComplete := x }, served := s.served + 1 }
  | (_, .yields) => s

def go (s : State ι) (i : ι) (expired : Bool) : State ι :=
  match s.pc i with
  | .outside => s
  | .use type => s.useLocked i type
  | .useBlocked type =>
    match s.arm.resumeBlocker.waitForCompletion with
    | (x, .returned _) =>
      { s with arm := { s.arm with resumeBlocker := x } }.goto i (.useUnblocked type)
    | (_, .yields) => s
  | .useUnblocked type => { s with arm := s.arm.unblocked }.useLocked i type
  | .useResume => s.waitResume (·.ret i .used) s.arm.vcResumeComplete.useInternal
  | .force =>
    if s.arm.blockedCount ≠ 0 then
      { s with arm := { s.arm with
          blockedBlocker := s.arm.blockedBlocker.reinitCompletion } }.goto i .forceBlocked
    else s.forceLocked i 0
  | .forceBlocked =>
    match s.arm.blockedBlocker.waitForCompletionInterruptibleTimeout expired with
    | (x, .returned 1) =>
      { s with arm := { s.arm with blockedBlocker := x } }.goto i (.forceLoop 0)
    | (_, .returned _) => s.ret i (.forced .error)
    | (_, .yields) => s
  | .forceLoop resumeCount => s.forceLocked i resumeCount
  | .forceResume resumeCount =>
    match s.arm.vcResumeComplete.waitForCompletionInterruptibleTimeout expired with
    | (_, .returned 0) => s.ret i (.forced .error)
    | wait => s.waitResume (·.goto i (.forceLoop (resumeCount + 1))) wait
  | .forceWait repeated =>
    match s.arm.vcSuspendComplete.waitForCompletionInterruptibleTimeout expired with
    | (x, .returned rc) =>
      { s with arm := { s.arm with vcSuspendComplete := x } }.goto i
        (.forceWaited (rc ≠ 0) repeated)
    | (_, .yields) => s
  | .forceWaited completed repeated => s.forceWaited i completed repeated
  | .allow =>
    let (arm, resume) := s.arm.unblockResume.vchiqCheckResume
    { s with arm }.goto i (if resume then .allowResume else .allowRead)
  | .allowResume => s.waitResume (·.goto i .allowRead) s.arm.vcResumeComplete.waitForCompletion
  | .allowRead => s.ret i (.allowed (s.arm.vcSuspendState = .suspended))

/-- A thread starts a call if it is in none. -/
def call (s : State ι) (i : ι) (pc : Pc) : State ι :=
  match s.pc i with
  | .outside => s.goto i pc
  | _ => s

def step (s : State ι) : Event ι → State ι
  | .use i type => s.call i (.use type)
  | .release counted => { s with arm := s.arm.vchiqReleaseInternal counted }
  | .forceSuspend i => s.call i .force
  | .allowResume i => s.call i .allow
  | .checkSuspend => { s with arm := s.arm.vchiqCheckSuspend }
  | .checkResume => { s with arm := s.arm.vchiqPlatformCheckResume }
  | .slotHandler => { s with arm := s.arm.slotHandlerRound }
  | .connected => { s with arm := s.arm.connStateChanged }
  | .go i expired => s.go i expired

abbrev run (s : State ι) (es : List (Event ι)) : State ι := Machine.run step s es

end State

end Suspend
