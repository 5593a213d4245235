-- SUMMARY: In every run the suspend and resume states keep in step, and VideoCore once suspended is never resumed.
import Ampi.Vchiq.Suspend
import Mathlib.Tactic.Common

/-!
# Runs of suspends and resumes

The platform can not suspend VideoCore, so a suspend that the slot handler takes up is never
over. Until then the completions are those of a VideoCore that runs.
-/

namespace Completion

/-- A wait finds the counter at zero, or takes one from it. -/
theorem waitForCompletion_cases (x : Completion) :
    (x.done = 0#32 ∧ x.waitForCompletion = (x, .yields)) ∨
      ∃ y, y.done.toNat + 1 = x.done.toNat ∧ x.waitForCompletion = (y, .returned 0) := by
  unfold waitForCompletion
  split
  next h => exact .inl ⟨h, rfl⟩
  next h =>
    refine .inr ⟨_, ?_, rfl⟩
    dsimp only
    bv_omega

theorem waitTimeout_cases (x : Completion) (expired : Bool) :
    (x.done = 0#32 ∧ x.waitForCompletionInterruptibleTimeout expired = (x, .yields)) ∨
      (x.done = 0#32 ∧ x.waitForCompletionInterruptibleTimeout expired = (x, .returned 0)) ∨
      ∃ y, y.done.toNat + 1 = x.done.toNat ∧
        x.waitForCompletionInterruptibleTimeout expired = (y, .returned 1) := by
  unfold waitForCompletionInterruptibleTimeout
  split
  next h =>
    cases expired with
    | false => exact .inl ⟨h, rfl⟩
    | true => exact .inr (.inl ⟨h, rfl⟩)
  next h =>
    refine .inr (.inr ⟨_, ?_, rfl⟩)
    dsimp only
    bv_omega

theorem useInternal_cases (x : Completion) :
    (x.done = 0#32 ∧ x.useInternal = (x, .yields)) ∨
      ∃ y, y.done.toNat + 1 = x.done.toNat ∧ x.useInternal = (y, .returned 1) := by
  by_cases h : x.done = 0#32
  · refine .inl ⟨h, ?_⟩
    rw [useInternal, tryWaitForCompletion, if_pos h]
    simp [waitForCompletion, h]
  · refine .inr ⟨{ x with done := x.done - 1#32 }, ?_, ?_⟩
    · dsimp only
      bv_omega
    · rw [useInternal, tryWaitForCompletion, if_neg h]
      rfl

end Completion

namespace Suspend
namespace ArmState

/-- The states and their completions with nobody in between. -/
structure InStep (a : ArmState) : Prop where
  suspendState : a.vcSuspendState = .idle ∨ a.vcSuspendState = .requested ∨
    a.vcSuspendState = .inProgress
  suspendComplete : a.vcSuspendComplete.done = 0#32
  resumed : a.vcSuspendState ≠ .inProgress → a.vcResumeState = .resumed
  suspending : a.vcSuspendState = .inProgress →
    (a.vcResumeState = .idle ∨ a.vcResumeState = .requested) ∧ a.vcResumeComplete.done = 0#32
  blocker : a.resumeBlocked → a.resumeBlocker.done = 0#32
  awake : a.wakeAddress = 0

/-- What the threads wait for to be unblocked. -/
def blockers (a : ArmState) : Bool × Completion × Nat × Completion :=
  (a.resumeBlocked, a.resumeBlocker, a.blockedCount, a.blockedBlocker)

/-- The state stays in step, lets the blockers be, and does not resume. -/
structure Keeps (a a' : ArmState) : Prop where
  inStep : a'.InStep
  blockers : a'.blockers = a.blockers
  resumed : a'.vcResumeState = .resumed →
    a.vcResumeState = .resumed ∧ a'.vcResumeComplete = a.vcResumeComplete

/-- Nor is VideoCore suspended. -/
structure Runs (a a' : ArmState) : Prop extends Keeps a a' where
  running : a.vcResumeState = .resumed → a'.vcResumeState = .resumed

variable {a a' a'' : ArmState}

theorem Keeps.trans (h : a.Keeps a') (h' : a'.Keeps a'') : a.Keeps a'' where
  inStep := h'.inStep
  blockers := h'.blockers.trans h.blockers
  resumed hresumed := by
    obtain ⟨hr', hc'⟩ := h'.resumed hresumed
    obtain ⟨hr, hc⟩ := h.resumed hr'
    exact ⟨hr, hc'.trans hc⟩

theorem Runs.trans (h : a.Runs a') (h' : a'.Runs a'') : a.Runs a'' :=
  ⟨h.toKeeps.trans h'.toKeeps, fun hr => h'.running (h.running hr)⟩

theorem Runs.resumed_iff (h : a.Runs a') :
    a'.vcResumeState = .resumed ↔ a.vcResumeState = .resumed :=
  ⟨fun hr => (h.resumed hr).1, h.running⟩

/-- What changes neither the suspend and resume states, nor the blockers. -/
theorem InStep.same (h : a.InStep) (hs : a'.vcSuspendState = a.vcSuspendState)
    (hr : a'.vcResumeState = a.vcResumeState) (hsc : a'.vcSuspendComplete = a.vcSuspendComplete)
    (hrc : a'.vcResumeComplete = a.vcResumeComplete) (hb : a'.blockers = a.blockers)
    (hw : a'.wakeAddress = a.wakeAddress) : a.Runs a' where
  inStep := by
    obtain ⟨h₁, h₂, h₃, h₄, h₅, h₆⟩ := h
    simp only [blockers, Prod.mk.injEq] at hb
    refine ⟨?_, ?_, ?_, ?_, ?_, hw.trans h₆⟩
    · rwa [hs]
    · rwa [hsc]
    · rwa [hs, hr]
    · rwa [hs, hr, hrc]
    · rwa [hb.1, hb.2.1]
  blockers := hb
  resumed hresumed := ⟨hr ▸ hresumed, hrc⟩
  running hresumed := hr.trans hresumed

theorem InStep.refl (h : a.InStep) : a.Runs a := h.same rfl rfl rfl rfl rfl rfl

/-- A count that is not zero makes VideoCore wanted, so a release does nothing. -/
theorem vchiqReleaseInternal_eq (a : ArmState) (counted : Bool) :
    a.vchiqReleaseInternal counted = a := by
  unfold ArmState.vchiqReleaseInternal
  split
  · rfl
  next h =>
    rw [if_neg]
    have hwanted : a.vchiqVideocoreWanted = true := by
      unfold vchiqVideocoreWanted
      split
      · rfl
      · exact if_neg fun hzero => h (.inl hzero)
    simp [hwanted]

theorem unblocked_eq (a : ArmState) :
    a.unblocked = { a with
      blockedCount := a.blockedCount - 1
      blockedBlocker := if a.blockedCount - 1 = 0 then a.blockedBlocker.completeAll
        else a.blockedBlocker } := by
  unfold unblocked
  dsimp only
  split <;> rfl

/-- The cancellation of a forced suspend is undone with the lock still held. -/
theorem count_forceCanceled (type : UseType) :
    (a.setSuspendState .forceCanceled).count type = (a.setSuspendState .idle).count type := by
  have hclear : (a.setSuspendState .forceCanceled).stopSuspendTimer.countUse.clearRequest =
      (a.setSuspendState .idle).stopSuspendTimer.countUse.clearRequest := by
    cases htimer : a.suspendTimerRunning <;>
      simp [ArmState.countUse, ArmState.clearRequest, ArmState.stopSuspendTimer, setSuspendState,
        htimer, SuspendStatus.toInt, Completion.reinitCompletion, Completion.completeAll]
  rw [ArmState.count, hclear]
  rfl

theorem count_idle (h : a.vcSuspendState = .idle) (type : UseType) :
    (a.count type).vcSuspendState = .idle ∧ (a.count type).resumeBlocked = a.resumeBlocked ∧
      (a.count type).blockedCount = a.blockedCount := by
  cases htimer : a.suspendTimerRunning <;>
    simp [ArmState.count, stopSuspendTimer, countUse, clearRequest, setSuspendState, needResume, h,
      htimer, SuspendStatus.toInt]

namespace InStep

theorem init : vchiqArmInitState.InStep := by
  constructor <;> simp [vchiqArmInitState, setResumeState, setSuspendState,
    Completion.reinitCompletion]

theorem resumed_iff (h : a.InStep) :
    a.vcResumeState = .resumed ↔ a.vcSuspendState ≠ .inProgress := by
  refine ⟨fun hr hs => ?_, h.resumed⟩
  rcases (h.suspending hs).1 with hr' | hr' <;> simp [hr] at hr'

theorem stopSuspendTimer (h : a.InStep) : a.Runs a.stopSuspendTimer := by
  unfold ArmState.stopSuspendTimer
  split
  · exact h.same rfl rfl rfl rfl rfl rfl
  · exact h.refl

/-- The suspend is requested no more, or had not been. -/
theorem setIdle (h : a.InStep) (hs : a.vcSuspendState ≠ .inProgress) :
    a.Runs (a.setSuspendState .idle) where
  inStep :=
    { suspendState := .inl rfl
      suspendComplete := rfl
      resumed := fun _ => h.resumed hs
      suspending := by simp [setSuspendState]
      blocker := h.blocker
      awake := h.awake }
  blockers := rfl
  resumed hr := ⟨hr, rfl⟩
  running hr := hr

theorem vchiqArmVcsuspend (h : a.InStep) : a.Runs a.vchiqArmVcsuspend := by
  have hrequested (hs : a.vcSuspendState = .idle) :
      a.Runs (a.setSuspendState .requested).requestPoll :=
    ⟨⟨⟨.inr (.inl rfl), h.suspendComplete, fun _ => h.resumed (by simp [hs]), by
      simp [setSuspendState, requestPoll], h.blocker, h.awake⟩, rfl, fun hr => ⟨hr, rfl⟩⟩,
      fun hr => hr⟩
  unfold ArmState.vchiqArmVcsuspend
  rcases h.suspendState with hs | hs | hs
  · rw [hs]
    exact hrequested hs
  · rw [hs]
    exact h.refl
  · rw [hs]
    exact h.refl

theorem vchiqPlatformCheckSuspend (h : a.InStep) : a.Keeps a.vchiqPlatformCheckSuspend := by
  unfold ArmState.vchiqPlatformCheckSuspend
  split
  · exact ⟨⟨.inr (.inr rfl), h.suspendComplete, by simp [setSuspendState],
      fun _ => ⟨.inl rfl, rfl⟩, h.blocker, h.awake⟩, rfl, by simp [setSuspendState]⟩
  · exact h.refl.toKeeps

theorem slotHandlerRound (h : a.InStep) : a.Keeps a.slotHandlerRound := by
  unfold ArmState.slotHandlerRound
  split
  · have hk := h.vchiqPlatformCheckSuspend
    exact hk.trans (Runs.toKeeps (hk.inStep.same rfl rfl rfl rfl rfl rfl))
  · exact h.refl.toKeeps

theorem vchiqCheckSuspend (h : a.InStep) : a.Runs a.vchiqCheckSuspend := by
  unfold ArmState.vchiqCheckSuspend
  split
  · exact h.vchiqArmVcsuspend
  · exact h.refl

theorem vchiqCheckResume (h : a.InStep) : a.Runs a.vchiqCheckResume.1 := by
  unfold ArmState.vchiqCheckResume
  split
  next hneed =>
    have hs : a.vcSuspendState = .inProgress := by
      rw [needResume, decide_eq_true_eq] at hneed
      by_contra hne
      rw [h.resumed hne] at hneed
      exact absurd hneed.2.1 (by decide)
    refine ⟨⟨⟨h.suspendState, h.suspendComplete, fun hne => absurd hs hne,
      fun _ => ⟨.inr rfl, (h.suspending hs).2⟩, h.blocker, h.awake⟩, rfl, fun hr => by cases hr⟩,
      fun hr => ?_⟩
    exact absurd hs (h.resumed_iff.1 hr)
  · exact h.refl

theorem vchiqPlatformCheckResume (h : a.InStep) : a.vchiqPlatformCheckResume = a := if_pos h.awake

theorem connStateChanged (h : a.InStep) : a.Runs a.connStateChanged :=
  h.same rfl rfl rfl rfl rfl rfl

theorem initiateSuspend (h : a.InStep) : a.Runs a.initiateSuspend := by
  unfold ArmState.initiateSuspend
  split
  · have hstop := h.stopSuspendTimer
    dsimp only
    split
    · exact hstop.trans hstop.inStep.vchiqArmVcsuspend
    · split
      · exact hstop
      · exact hstop.trans hstop.inStep.vchiqArmVcsuspend
  · exact h.refl

theorem countUse (h : a.InStep) : a.Runs a.countUse := h.same rfl rfl rfl rfl rfl rfl

theorem clearRequest (h : a.InStep) : a.Runs a.clearRequest := by
  unfold ArmState.clearRequest
  split
  next hle =>
    refine h.setIdle fun hs => ?_
    rw [hs] at hle
    exact absurd hle (by decide)
  · exact h.refl

/-- What a use does to the state when it is not held up. -/
theorem count (h : a.InStep) (type : UseType) : a.Runs (a.count type) := by
  have hstop := h.stopSuspendTimer
  have hcounted := hstop.trans hstop.inStep.countUse
  have hcleared := hcounted.trans hcounted.inStep.clearRequest
  unfold ArmState.count
  dsimp only
  split
  next hneed =>
    have hresume := hcleared.inStep.vchiqCheckResume
    rw [ArmState.vchiqCheckResume, if_pos hneed.2] at hresume
    exact hcleared.trans hresume
  · exact hcleared

/-- The blocker holds up whoever it is asked by. -/
theorem useLoop (h : a.InStep) (turns : Nat) :
    a.useLoop (turns + 1) =
      if a.resumeBlocked then
        if a.vcSuspendState = .idle then (a.setSuspendState .forceCanceled, false)
        else ({ a with blockedCount := a.blockedCount + 1 }, true)
      else (a, false) := by
  unfold ArmState.useLoop
  split
  next hblocked =>
    split
    · rfl
    · rw [Completion.tryWaitForCompletion, if_pos (h.blocker hblocked)]
      rfl
  · rfl

theorem useLoop_waits (h : a.InStep) {turns : Nat} (hloop : a.useLoop (turns + 1) = (a', true)) :
    a.resumeBlocked ∧ a' = { a with blockedCount := a.blockedCount + 1 } := by
  rw [h.useLoop] at hloop
  split at hloop
  next hblocked =>
    split at hloop
    · cases hloop
    · exact ⟨hblocked, (Prod.mk.inj hloop).1.symm⟩
  · cases hloop

theorem useLoop_left (h : a.InStep) {turns : Nat} (hloop : a.useLoop (turns + 1) = (a', false))
    (type : UseType) : a.Runs (a'.count type) := by
  rw [h.useLoop] at hloop
  split at hloop
  · split at hloop
    next hidle =>
      rw [← (Prod.mk.inj hloop).1, count_forceCanceled]
      have hset := h.setIdle (by rw [hidle]; decide)
      exact hset.trans (hset.inStep.count type)
    · cases hloop
  · rw [← (Prod.mk.inj hloop).1]
    exact h.count type

end InStep
end ArmState

/-! ## Threads -/

namespace Pc

/-- Counted in `blocked_count`. -/
def isBlocked : Pc → Bool
  | useBlocked _ | useUnblocked _ => true
  | _ => false

def atResumeBlocker : Pc → Bool
  | useBlocked _ => true
  | _ => false

def atBlockedBlocker : Pc → Bool
  | forceBlocked => true
  | _ => false

/-- In the timed wait of a forced suspend. -/
def forcing : Pc → Bool
  | forceWait _ | forceWaited _ _ => true
  | _ => false

/-- In no forced suspend, and not held up by one. -/
def isUnforced : Pc → Bool
  | outside | use _ | useResume | allow | allowResume | allowRead => true
  | _ => false

/-- Nobody counts on the thread. -/
structure Plain (pc : Pc) : Prop where
  isBlocked : pc.isBlocked = false
  atResumeBlocker : pc.atResumeBlocker = false
  atBlockedBlocker : pc.atBlockedBlocker = false
  forcing : pc.forcing = false

end Pc

/-- The call does not force a suspend. -/
def Event.Unforced {ι : Type*} : Event ι → Prop
  | .forceSuspend _ => False
  | _ => True

namespace State

variable {ι : Type*} [Fintype ι]

/-- The state keeps in step with the threads. -/
structure Inv (s : State ι) : Prop where
  inStep : s.arm.InStep
  served : s.arm.vcResumeState = .resumed →
    s.arm.vcResumeComplete.done.toNat + s.served = 2147483647
  blockedCount : s.arm.blockedCount = Parties.count Pc.isBlocked s.pc
  released : s.arm.resumeBlocked = false →
    Parties.count Pc.atResumeBlocker s.pc ≤ s.arm.resumeBlocker.done.toNat
  passed : s.arm.blockedCount = 0 →
    Parties.count Pc.atBlockedBlocker s.pc ≤ s.arm.blockedBlocker.done.toNat
  forced : s.arm.resumeBlocked → 0 < Parties.count Pc.forcing s.pc
  returns : ∀ r ∈ s.returns, r.2 ≠ .forced .success

namespace Inv

variable {s s' : State ι} {i : ι} {pc' : Pc}

theorem init : Inv ({} : State ι) where
  inStep := .init
  served _ := rfl
  blockedCount := by
    change 0 = Parties.count Pc.isBlocked _
    rw [eq_comm, Parties.count_eq_zero]
    exact fun _ => rfl
  released _ := by
    rw [Parties.count_eq_zero.2 fun _ => rfl]
    exact Nat.zero_le _
  passed _ := by
    rw [Parties.count_eq_zero.2 fun _ => rfl]
    exact Nat.zero_le _
  forced := nofun
  returns _ := nofun

theorem keeps (h : Inv s) {arm : ArmState} (hk : s.arm.Keeps arm) : Inv { s with arm } := by
  have hb := hk.blockers
  simp only [ArmState.blockers, Prod.mk.injEq] at hb
  obtain ⟨hblocked, hblocker, hcount, hpassed⟩ := hb
  refine ⟨hk.inStep, fun hr => ?_, ?_, ?_, ?_, ?_, h.returns⟩
  · obtain ⟨hr', hc⟩ := hk.resumed hr
    change arm.vcResumeComplete.done.toNat + s.served = _
    rw [hc]
    exact h.served hr'
  · change arm.blockedCount = _
    rw [hcount]
    exact h.blockedCount
  · change arm.resumeBlocked = false → _ ≤ arm.resumeBlocker.done.toNat
    rw [hblocked, hblocker]
    exact h.released
  · change arm.blockedCount = 0 → _ ≤ arm.blockedBlocker.done.toNat
    rw [hcount, hpassed]
    exact h.passed
  · change arm.resumeBlocked = true → _
    rw [hblocked]
    exact h.forced

variable [DecidableEq ι]

section Counts

variable {p : Pc → Bool}

theorem count_goto (h : p (s.pc i) = p pc') :
    Parties.count p (s.goto i pc').pc = Parties.count p s.pc := by
  have hc := Parties.count_update p s.pc i pc'
  rw [h] at hc
  exact Nat.add_right_cancel hc

theorem count_enter (h : p (s.pc i) = false) (h' : p pc' = true) :
    Parties.count p (s.goto i pc').pc = Parties.count p s.pc + 1 := by
  have hc := Parties.count_update p s.pc i pc'
  rw [h, h'] at hc
  exact hc

theorem count_leave (h : p (s.pc i) = true) (h' : p pc' = false) :
    Parties.count p (s.goto i pc').pc + 1 = Parties.count p s.pc := by
  have hc := Parties.count_update p s.pc i pc'
  rw [h, h'] at hc
  exact hc

end Counts

/-- A thread moves, and nobody counts on it before or after. -/
theorem move (h : Inv s) (hold : (s.pc i).Plain) (hnew : pc'.Plain) : Inv (s.goto i pc') := by
  refine ⟨h.inStep, h.served, ?_, ?_, ?_, ?_, h.returns⟩
  · rw [count_goto (hold.isBlocked.trans hnew.isBlocked.symm)]
    exact h.blockedCount
  · rw [count_goto (hold.atResumeBlocker.trans hnew.atResumeBlocker.symm)]
    exact h.released
  · rw [count_goto (hold.atBlockedBlocker.trans hnew.atBlockedBlocker.symm)]
    exact h.passed
  · rw [count_goto (hold.forcing.trans hnew.forcing.symm)]
    exact h.forced

omit [DecidableEq ι] in
/-- A call that has not succeeded in forcing a suspend returns. -/
theorem log (h : Inv s) (i : ι) {r : Return} (hr : r ≠ .forced .success) :
    Inv { s with returns := s.returns ++ [(i, r)] } := by
  refine ⟨h.1, h.2, h.3, h.4, h.5, h.6, fun r' hr' => ?_⟩
  rcases List.mem_append.1 hr' with hr' | hr'
  · exact h.returns r' hr'
  · rw [List.mem_singleton.1 hr']
    exact hr

theorem ret (h : Inv s) (hold : (s.pc i).Plain) {r : Return} (hr : r ≠ .forced .success) :
    Inv (s.ret i r) :=
  (h.log i hr).move hold ⟨rfl, rfl, rfl, rfl⟩

/-- A use that resume does not hold up, or that has to wait. -/
theorem useLocked (h : Inv s) {type : UseType} (hpc : s.pc i = .use type) :
    Inv (s.useLocked i type) := by
  have hplain : (s.pc i).Plain := hpc ▸ ⟨rfl, rfl, rfl, rfl⟩
  unfold State.useLocked
  split
  next arm hloop =>
    obtain ⟨hblocked, rfl⟩ := h.inStep.useLoop_waits hloop
    refine ⟨⟨h.1.1, h.1.2, h.1.3, h.1.4, h.1.5, h.1.6⟩, h.served, ?_, ?_, ?_, ?_, h.returns⟩
    · exact (congrArg (· + 1) h.blockedCount).trans (count_enter hplain.isBlocked rfl).symm
    · exact fun hun => absurd (hblocked.symm.trans hun) (by decide)
    · exact fun hzero => absurd hzero (Nat.succ_ne_zero _)
    · exact fun hb => (h.forced hb).trans_eq (count_goto hplain.forcing).symm
  next arm hloop =>
    exact (h.keeps (h.inStep.useLoop_left hloop type).toKeeps).move hplain ⟨rfl, rfl, rfl, rfl⟩

/-- A thread has been let through by the resume blocker. -/
theorem useBlocked (h : Inv s) {type : UseType} (hpc : s.pc i = .useBlocked type)
    {x : Completion} (hx : x.done.toNat + 1 = s.arm.resumeBlocker.done.toNat) :
    Inv ({ s with arm := { s.arm with resumeBlocker := x } }.goto i (.useUnblocked type)) := by
  have hunblocked : s.arm.resumeBlocked = false := by
    rw [← Bool.not_eq_true]
    intro hblocked
    rw [h.inStep.blocker hblocked] at hx
    exact absurd hx (Nat.succ_ne_zero _)
  refine ⟨⟨h.1.1, h.1.2, h.1.3, h.1.4, fun hb => ?_, h.1.6⟩, h.served, ?_, fun _ => ?_, ?_, ?_,
    h.returns⟩
  · exact absurd (hunblocked.symm.trans hb) (by decide)
  · exact h.blockedCount.trans (count_goto (by rw [hpc]; rfl)).symm
  · have hleave : Parties.count Pc.atResumeBlocker (s.goto i (.useUnblocked type)).pc + 1 =
        Parties.count Pc.atResumeBlocker s.pc := count_leave (by rw [hpc]; rfl) rfl
    have hreleased := h.released hunblocked
    change Parties.count _ (s.goto i (.useUnblocked type)).pc ≤ x.done.toNat
    omega
  · exact fun hzero => (count_goto (by rw [hpc]; rfl)).trans_le (h.passed hzero)
  · exact fun hb => absurd (hunblocked.symm.trans hb) (by decide)

omit [Fintype ι] in
theorem useLocked_goto (s : State ι) (i : ι) (type : UseType) (pc : Pc) :
    (s.goto i pc).useLocked i type = s.useLocked i type := by
  simp only [State.useLocked, State.goto, Function.update_idem]

/-- It is blocked no more. -/
theorem useUnblocked (h : Inv s) (hcard : Fintype.card ι ≤ 2147483647) {type : UseType}
    (hpc : s.pc i = .useUnblocked type) :
    Inv ({ s with arm := s.arm.unblocked }.goto i (.use type)) := by
  have hleave : Parties.count Pc.isBlocked (s.goto i (.use type)).pc + 1 =
      Parties.count Pc.isBlocked s.pc := count_leave (by rw [hpc]; rfl) rfl
  have hcount := h.blockedCount
  rw [ArmState.unblocked_eq]
  refine ⟨⟨h.1.1, h.1.2, h.1.3, h.1.4, h.1.5, h.1.6⟩, h.served, ?_, fun hb => ?_, fun hzero => ?_,
    fun hb => ?_, h.returns⟩
  · change s.arm.blockedCount - 1 = Parties.count _ (s.goto i (.use type)).pc
    omega
  · exact (count_goto (by rw [hpc]; rfl)).trans_le (h.released hb)
  · change s.arm.blockedCount - 1 = 0 at hzero
    change _ ≤ (if s.arm.blockedCount - 1 = 0 then s.arm.blockedBlocker.completeAll
      else s.arm.blockedBlocker).done.toNat
    rw [if_pos hzero]
    exact Parties.count_le_card.trans hcard
  · exact (h.forced hb).trans_eq (count_goto (by rw [hpc]; rfl)).symm

omit [DecidableEq ι] in
/-- Resume is unblocked. -/
theorem unblockResume (h : Inv s) (hcard : Fintype.card ι ≤ 2147483647) :
    Inv { s with arm := s.arm.unblockResume } :=
  ⟨⟨h.1.1, h.1.2, h.1.3, h.1.4, nofun, h.1.6⟩, h.served, h.blockedCount,
    fun _ => Parties.count_le_card.trans hcard, h.passed, nofun, h.returns⟩

theorem forceLocked (h : Inv s) (hplain : (s.pc i).Plain) (resumeCount : Nat) :
    Inv (s.forceLocked i resumeCount) := by
  unfold State.forceLocked
  split
  · split
    · exact h.ret hplain nofun
    · exact h.move hplain ⟨rfl, rfl, rfl, rfl⟩
  · dsimp only
    have hne : s.arm.blockResume.vcSuspendState ≠ .suspended := by
      intro hs
      change s.arm.vcSuspendState = .suspended at hs
      rcases h.inStep.suspendState with hs' | hs' | hs' <;> simp [hs] at hs'
    rw [if_neg hne]
    have hstep : s.arm.blockResume.InStep := ⟨h.1.1, h.1.2, h.1.3, h.1.4, fun _ => rfl, h.1.6⟩
    have hblocked : Inv ({ s with arm := s.arm.blockResume }.goto i (.forceWait false)) := by
      refine ⟨hstep, h.served, ?_, nofun, ?_, fun _ => ?_, h.returns⟩
      · exact h.blockedCount.trans (count_goto hplain.isBlocked).symm
      · exact fun hzero => (count_goto hplain.atBlockedBlocker).trans_le (h.passed hzero)
      · exact (Nat.succ_pos _).trans_eq (count_enter hplain.forcing rfl).symm
    exact hblocked.keeps hstep.initiateSuspend.toKeeps

/-- A thread leaves the timed wait of a forced suspend, and unblocks resume. -/
theorem forceRetry (h : Inv s) (hcard : Fintype.card ι ≤ 2147483647) {completed repeated : Bool}
    (hpc : s.pc i = .forceWaited completed repeated) {arm : ArmState} (hk : s.arm.Keeps arm) :
    Inv ({ s with arm := arm.unblockResume }.ret i (.forced .retry)) := by
  have hunblocked := ((h.log i (r := .forced .retry) nofun).keeps hk).unblockResume hcard
  refine ⟨hunblocked.inStep, hunblocked.served, ?_, fun hb => ?_, fun hzero => ?_, nofun,
    hunblocked.returns⟩
  · exact hunblocked.blockedCount.trans (count_goto (by rw [hpc]; rfl)).symm
  · exact (count_goto (s := s) (by rw [hpc]; rfl)).trans_le (hunblocked.released hb)
  · exact (count_goto (s := s) (by rw [hpc]; rfl)).trans_le (hunblocked.passed hzero)

theorem forceWaited (h : Inv s) (hcard : Fintype.card ι ≤ 2147483647) {completed repeated : Bool}
    (hpc : s.pc i = .forceWaited completed repeated) :
    Inv (s.forceWaited i completed repeated) := by
  have hne : s.arm.vcSuspendState ≠ .suspended ∧ 0 ≤ s.arm.vcSuspendState.toInt := by
    rcases h.inStep.suspendState with hs | hs | hs <;> rw [hs] <;> decide
  unfold State.forceWaited
  split
  · split
    · refine ⟨h.inStep, h.served, ?_, fun hb => ?_, fun hzero => ?_, fun hb => ?_, h.returns⟩
      · exact h.blockedCount.trans (count_goto (by rw [hpc]; rfl)).symm
      · exact (count_goto (by rw [hpc]; rfl)).trans_le (h.released hb)
      · exact (count_goto (by rw [hpc]; rfl)).trans_le (h.passed hzero)
      · exact (h.forced hb).trans_eq (count_goto (by rw [hpc]; rfl)).symm
    · exact h.forceRetry hcard hpc
        (ArmState.Runs.toKeeps (h.inStep.same rfl rfl rfl rfl rfl rfl))
  · rw [if_pos hne.1]
    dsimp only
    rw [if_neg (show ¬s.arm.vcSuspendState.toInt < SuspendStatus.idle.toInt from
      not_lt_of_ge hne.2)]
    exact h.forceRetry hcard hpc h.inStep.refl.toKeeps

/-- A forced suspend does not wait for the blocked threads any longer. -/
theorem forceBlocked (h : Inv s) (hpc : s.pc i = .forceBlocked) {x : Completion}
    (hx : s.arm.blockedBlocker.done.toNat ≤ x.done.toNat + 1) (hnew : pc'.Plain) :
    Inv ({ s with arm := { s.arm with blockedBlocker := x } }.goto i pc') := by
  refine ⟨⟨h.1.1, h.1.2, h.1.3, h.1.4, h.1.5, h.1.6⟩, h.served, ?_, fun hb => ?_, fun hzero => ?_,
    fun hb => ?_, h.returns⟩
  · exact h.blockedCount.trans (count_goto (by rw [hpc, hnew.isBlocked]; rfl)).symm
  · exact (count_goto (by rw [hpc, hnew.atResumeBlocker]; rfl)).trans_le (h.released hb)
  · have hleave := count_leave (s := s) (p := Pc.atBlockedBlocker) (by rw [hpc]; rfl)
      hnew.atBlockedBlocker
    have hpassed := h.passed hzero
    change Parties.count _ (s.goto i pc').pc ≤ x.done.toNat
    omega
  · exact (h.forced hb).trans_eq (count_goto (by rw [hpc, hnew.forcing]; rfl)).symm

omit [DecidableEq ι] in
/-- A wait for `vc_resume_complete` is served. -/
theorem resumed (h : Inv s) {x : Completion}
    (hx : x.done.toNat + 1 = s.arm.vcResumeComplete.done.toNat) :
    Inv { s with arm := { s.arm with vcResumeComplete := x }, served := s.served + 1 } := by
  have hrunning : s.arm.vcSuspendState ≠ .inProgress := by
    intro hs
    rw [(h.inStep.suspending hs).2] at hx
    exact absurd hx (Nat.succ_ne_zero _)
  refine ⟨⟨h.1.1, h.1.2, h.1.3, fun hs => absurd hs hrunning, h.1.5, h.1.6⟩, fun hr => ?_,
    h.blockedCount, h.released, h.passed, h.forced, h.returns⟩
  have hserved := h.served hr
  change x.done.toNat + (s.served + 1) = 2147483647
  omega

theorem go (h : Inv s) (hcard : Fintype.card ι ≤ 2147483647) (i : ι) (expired : Bool) :
    Inv (s.go i expired) := by
  unfold State.go
  cases hpc : s.pc i with
  | outside => exact h
  | use type => exact h.useLocked hpc
  | useBlocked type =>
    dsimp only
    rcases s.arm.resumeBlocker.waitForCompletion_cases with ⟨-, hwait⟩ | ⟨x, hx, hwait⟩
    · rw [hwait]
      exact h
    · rw [hwait]
      exact h.useBlocked hpc hx
  | useUnblocked type =>
    dsimp only
    rw [← useLocked_goto _ i type (.use type)]
    exact (h.useUnblocked hcard hpc).useLocked (Function.update_self ..)
  | useResume =>
    have hplain : (s.pc i).Plain := hpc ▸ ⟨rfl, rfl, rfl, rfl⟩
    dsimp only
    rcases s.arm.vcResumeComplete.useInternal_cases with ⟨-, hwait⟩ | ⟨x, hx, hwait⟩
    · rw [hwait]
      exact h
    · rw [hwait]
      exact (h.resumed hx).ret hplain (by simp)
  | force =>
    have hplain : (s.pc i).Plain := hpc ▸ ⟨rfl, rfl, rfl, rfl⟩
    dsimp only
    split
    next hblocked =>
      refine ⟨⟨h.1.1, h.1.2, h.1.3, h.1.4, h.1.5, h.1.6⟩, h.served, ?_, fun hb => ?_,
        fun hzero => absurd hzero hblocked, fun hb => ?_, h.returns⟩
      · exact h.blockedCount.trans (count_goto hplain.isBlocked).symm
      · exact (count_goto hplain.atResumeBlocker).trans_le (h.released hb)
      · exact (h.forced hb).trans_eq (count_goto hplain.forcing).symm
    · exact h.forceLocked hplain 0
  | forceBlocked =>
    dsimp only
    rcases s.arm.blockedBlocker.waitTimeout_cases expired with
      ⟨-, hwait⟩ | ⟨-, hwait⟩ | ⟨x, hx, hwait⟩
    · rw [hwait]
      exact h
    · rw [hwait]
      exact (h.log i (r := .forced .error) (by simp)).forceBlocked hpc (Nat.le_succ _)
        ⟨rfl, rfl, rfl, rfl⟩
    · rw [hwait]
      exact h.forceBlocked hpc hx.ge ⟨rfl, rfl, rfl, rfl⟩
  | forceLoop resumeCount => exact h.forceLocked (hpc ▸ ⟨rfl, rfl, rfl, rfl⟩) resumeCount
  | forceResume resumeCount =>
    have hplain : (s.pc i).Plain := hpc ▸ ⟨rfl, rfl, rfl, rfl⟩
    dsimp only
    rcases s.arm.vcResumeComplete.waitTimeout_cases expired with
      ⟨-, hwait⟩ | ⟨-, hwait⟩ | ⟨x, hx, hwait⟩
    · rw [hwait]
      exact h
    · rw [hwait]
      exact h.ret hplain (by simp)
    · rw [hwait]
      exact (h.resumed hx).move hplain ⟨rfl, rfl, rfl, rfl⟩
  | forceWait repeated =>
    dsimp only
    -- nobody completes a suspend
    rw [Completion.waitForCompletionInterruptibleTimeout, if_pos h.inStep.suspendComplete]
    cases expired with
    | false => exact h
    | true =>
      refine ⟨h.inStep, h.served, ?_, fun hb => ?_, fun hzero => ?_, fun hb => ?_, h.returns⟩
      · exact h.blockedCount.trans (count_goto (by rw [hpc]; rfl)).symm
      · exact (count_goto (s := s) (by rw [hpc]; rfl)).trans_le (h.released hb)
      · exact (count_goto (s := s) (by rw [hpc]; rfl)).trans_le (h.passed hzero)
      · exact (h.forced hb).trans_eq (count_goto (s := s) (by rw [hpc]; rfl)).symm
  | forceWaited completed repeated => exact h.forceWaited hcard hpc
  | allow =>
    have hplain : (s.pc i).Plain := hpc ▸ ⟨rfl, rfl, rfl, rfl⟩
    have hunblocked := h.unblockResume hcard
    have hresume := hunblocked.keeps hunblocked.inStep.vchiqCheckResume.toKeeps
    dsimp only
    refine hresume.move hplain ?_
    split <;> exact ⟨rfl, rfl, rfl, rfl⟩
  | allowResume =>
    dsimp only
    rcases s.arm.vcResumeComplete.waitForCompletion_cases with ⟨-, hwait⟩ | ⟨x, hx, hwait⟩
    · rw [hwait]
      exact h
    · rw [hwait]
      exact (h.resumed hx).move (hpc ▸ ⟨rfl, rfl, rfl, rfl⟩) ⟨rfl, rfl, rfl, rfl⟩
  | allowRead =>
    exact h.ret (hpc ▸ ⟨rfl, rfl, rfl, rfl⟩) (by simp)

theorem call (h : Inv s) (hnew : pc'.Plain) : Inv (s.call i pc') := by
  unfold State.call
  split
  next hpc => exact h.move (hpc ▸ ⟨rfl, rfl, rfl, rfl⟩) hnew
  · exact h

theorem step (h : Inv s) (hcard : Fintype.card ι ≤ 2147483647) (e : Event ι) : Inv (s.step e) := by
  cases e with
  | use i type => exact h.call ⟨rfl, rfl, rfl, rfl⟩
  | release counted =>
    unfold State.step
    dsimp only
    rw [ArmState.vchiqReleaseInternal_eq]
    exact h
  | forceSuspend i => exact h.call ⟨rfl, rfl, rfl, rfl⟩
  | allowResume i => exact h.call ⟨rfl, rfl, rfl, rfl⟩
  | checkSuspend => exact h.keeps h.inStep.vchiqCheckSuspend.toKeeps
  | checkResume =>
    unfold State.step
    dsimp only
    rw [h.inStep.vchiqPlatformCheckResume]
    exact h
  | slotHandler => exact h.keeps h.inStep.slotHandlerRound
  | connected => exact h.keeps h.inStep.connStateChanged.toKeeps
  | go i expired => exact h.go hcard i expired

end Inv

variable [DecidableEq ι]

/-! ## Nobody is forgotten -/

/-- The states, their completions and the threads keep in step: a thread that nothing lets
through waits for one that will. -/
structure Coherent (s : State ι) : Prop where
  inStep : s.arm.InStep
  blockedCount : s.arm.blockedCount = Parties.count Pc.isBlocked s.pc
  held : ∀ i type, s.pc i = .useBlocked type → s.arm.resumeBlocker.done = 0#32 →
    ∃ j, (s.pc j).forcing
  waiting : ∀ i, s.pc i = .forceBlocked → s.arm.blockedBlocker.done = 0#32 →
    ∃ j, (s.pc j).isBlocked

omit [DecidableEq ι] in
theorem exists_of_count_pos {s : State ι} {p : Pc → Bool} (h : 0 < Parties.count p s.pc) :
    ∃ i, p (s.pc i) := by
  by_contra hnone
  refine h.ne' (Parties.count_eq_zero.2 fun i => ?_)
  rw [← Bool.not_eq_true]
  exact fun hi => hnone ⟨i, hi⟩

omit [DecidableEq ι] in
theorem Inv.coherent {s : State ι} (h : Inv s) : s.Coherent where
  inStep := h.inStep
  blockedCount := h.blockedCount
  held i type hpc hdone := by
    cases hblocked : s.arm.resumeBlocked with
    | true => exact exists_of_count_pos (h.forced hblocked)
    | false =>
      have hreleased := h.released hblocked
      rw [hdone] at hreleased
      have hpos : 0 < Parties.count Pc.atResumeBlocker s.pc :=
        Parties.count_pos (i := i) (by rw [hpc]; rfl)
      exact absurd hreleased (Nat.not_le_of_lt hpos)
  waiting i hpc hdone := by
    refine exists_of_count_pos ?_
    rw [← h.blockedCount]
    apply Nat.pos_of_ne_zero
    intro hzero
    have hpassed := h.passed hzero
    rw [hdone] at hpassed
    have hpos : 0 < Parties.count Pc.atBlockedBlocker s.pc :=
      Parties.count_pos (i := i) (by rw [hpc]; rfl)
    exact absurd hpassed (Nat.not_le_of_lt hpos)

theorem inv_run (hcard : Fintype.card ι ≤ 2147483647) (es : List (Event ι)) :
    Inv (run {} es) :=
  Machine.run_invariant (I := Inv) (fun _ e h => h.step hcard e) es .init

/-- In every run of fewer than `2 ^ 31` threads. -/
theorem run_coherent (hcard : Fintype.card ι ≤ 2147483647) (es : List (Event ι)) :
    (run {} es).Coherent := (inv_run hcard es).coherent

/-- A use is held up by a forced suspend. -/
theorem run_coherent_blocked : (run {} [.forceSuspend 0, .go 0 false, .slotHandler, .use 1 .service,
    .go 1 false] : State (Fin 2)).Coherent := run_coherent (by simp) _

/-- No forced suspend succeeds, for a use does not cancel its wait and the platform does not
end it. -/
theorem forceSuspend_fails (hcard : Fintype.card ι ≤ 2147483647) (es : List (Event ι)) (i : ι) :
    (i, .forced .success) ∉ (run {} es).returns :=
  fun hmem => (inv_run hcard es).returns _ hmem rfl

/-- Its wait is over after two timeouts, since a suspend is in progress. -/
theorem forceSuspend_fails_twice : ((0 : Fin 1), .forced .success) ∉
    (run {} [.forceSuspend 0, .go 0 false, .slotHandler, .go 0 true, .go 0 false, .go 0 true,
      .go 0 false]).returns := forceSuspend_fails (by simp) _ 0

/-! ## Suspended for good -/

/-- The slot handler does not find a suspend requested. -/
def Undisturbed (s : State ι) : Event ι → Prop
  | .slotHandler => s.arm.pollNeeded → s.arm.vcSuspendState ≠ .requested
  | _ => True

section Running

variable {s : State ι} {i : ι}

omit [Fintype ι] in
theorem useLocked_resumed (h : s.arm.InStep) (i : ι) (type : UseType) :
    (s.useLocked i type).arm.vcResumeState = .resumed ↔ s.arm.vcResumeState = .resumed := by
  unfold State.useLocked
  split
  next arm hloop =>
    obtain ⟨-, rfl⟩ := h.useLoop_waits hloop
    exact Iff.rfl
  next arm hloop => exact (h.useLoop_left hloop type).resumed_iff

omit [Fintype ι] in
theorem forceLocked_resumed (h : s.arm.InStep) (i : ι) (resumeCount : Nat) :
    (s.forceLocked i resumeCount).arm.vcResumeState = .resumed ↔
      s.arm.vcResumeState = .resumed := by
  unfold State.forceLocked
  split
  · split <;> exact Iff.rfl
  · dsimp only
    split
    · exact Iff.rfl
    · have hstep : s.arm.blockResume.InStep := ⟨h.1, h.2, h.3, h.4, fun _ => rfl, h.6⟩
      exact hstep.initiateSuspend.resumed_iff

omit [Fintype ι] in
theorem forceWaited_resumed (i : ι) (completed repeated : Bool) :
    (s.forceWaited i completed repeated).arm.vcResumeState = .resumed ↔
      s.arm.vcResumeState = .resumed := by
  unfold State.forceWaited
  split
  · split <;> exact Iff.rfl
  · split
    · dsimp only
      split <;> exact Iff.rfl
    · exact Iff.rfl

omit [Fintype ι] [DecidableEq ι] in
theorem waitResume_resumed {next : State ι → State ι}
    (hnext : ∀ t : State ι, (next t).arm = t.arm) (wait : Completion × Completion.Outcome) :
    (s.waitResume next wait).arm.vcResumeState = .resumed ↔ s.arm.vcResumeState = .resumed := by
  unfold State.waitResume
  split
  · rw [hnext]
  · exact Iff.rfl

omit [Fintype ι] in
theorem go_resumed (h : s.arm.InStep) (i : ι) (expired : Bool) :
    (s.go i expired).arm.vcResumeState = .resumed ↔ s.arm.vcResumeState = .resumed := by
  unfold State.go
  cases s.pc i with
  | outside | allowRead => exact Iff.rfl
  | use type => exact useLocked_resumed h i type
  | useBlocked type =>
    dsimp only
    split <;> exact Iff.rfl
  | useUnblocked type =>
    dsimp only
    rw [ArmState.unblocked_eq]
    exact useLocked_resumed (by exact ⟨h.1, h.2, h.3, h.4, h.5, h.6⟩) i type
  | useResume =>
    dsimp only
    exact waitResume_resumed (by exact fun _ => rfl) _
  | force =>
    dsimp only
    split
    · exact Iff.rfl
    · exact forceLocked_resumed h i 0
  | forceBlocked =>
    dsimp only
    split <;> exact Iff.rfl
  | forceLoop resumeCount => exact forceLocked_resumed h i resumeCount
  | forceResume resumeCount =>
    dsimp only
    split
    · exact Iff.rfl
    · exact waitResume_resumed (by exact fun _ => rfl) _
  | forceWait repeated =>
    dsimp only
    split <;> exact Iff.rfl
  | forceWaited completed repeated => exact forceWaited_resumed i completed repeated
  | allow =>
    have hunblocked : s.arm.unblockResume.InStep := ⟨h.1, h.2, h.3, h.4, nofun, h.6⟩
    exact hunblocked.vchiqCheckResume.resumed_iff
  | allowResume =>
    dsimp only
    exact waitResume_resumed (by exact fun _ => rfl) _

omit [Fintype ι] in
/-- VideoCore stays resumed, unless a suspend is taken up. -/
theorem step_resumed (h : s.arm.InStep) (e : Event ι) :
    (s.step e).arm.vcResumeState = .resumed ↔ s.arm.vcResumeState = .resumed ∧ s.Undisturbed e := by
  cases e with
  | use i | forceSuspend i | allowResume i =>
    unfold State.step call
    dsimp only
    split <;> exact (and_iff_left trivial).symm
  | release counted =>
    unfold State.step
    dsimp only
    rw [ArmState.vchiqReleaseInternal_eq]
    exact (and_iff_left trivial).symm
  | checkSuspend => exact h.vchiqCheckSuspend.resumed_iff.trans (and_iff_left trivial).symm
  | checkResume =>
    unfold State.step
    dsimp only
    rw [h.vchiqPlatformCheckResume]
    exact (and_iff_left trivial).symm
  | slotHandler =>
    change s.arm.slotHandlerRound.vcResumeState = .resumed ↔ _ ∧ (_ → _ ≠ _)
    unfold ArmState.slotHandlerRound ArmState.vchiqPlatformCheckSuspend
    split
    next hpoll =>
      split
      next hsuspend => simp [ArmState.setSuspendState, hpoll, hsuspend.1]
      next hsuspend =>
        dsimp only
        exact ⟨fun hr => ⟨hr, fun _ hs => hsuspend ⟨hs, hr⟩⟩, And.left⟩
    next hpoll => exact ⟨fun hr => ⟨hr, fun hp => absurd hp hpoll⟩, And.left⟩
  | connected => exact h.connStateChanged.resumed_iff.trans (and_iff_left trivial).symm
  | go i expired => exact (go_resumed h i expired).trans (and_iff_left trivial).symm

end Running

/-- VideoCore runs exactly as long as no round of the slot handler finds a suspend requested. -/
theorem run_resumed_iff (hcard : Fintype.card ι ≤ 2147483647) (es fs : List (Event ι)) :
    (run {} (es ++ fs)).arm.vcResumeState = .resumed ↔
      (run {} es).arm.vcResumeState = .resumed ∧
        Machine.Along step Undisturbed (run {} es) fs := by
  induction fs generalizing es with
  | nil => simp [Machine.Along]
  | cons e fs ih =>
    have hsplit : es ++ e :: fs = (es ++ [e]) ++ fs := by simp
    have hnext : run {} (es ++ [e]) = (run {} es).step e := Machine.run_append ..
    rw [hsplit, ih, hnext, step_resumed (inv_run hcard es).inStep, and_assoc]
    exact Iff.rfl

/-- A use that waits for VideoCore gets through exactly if no suspend has been taken up and
the permits of `complete_all` are not used up. -/
theorem use_returns_iff (hcard : Fintype.card ι ≤ 2147483647) (es : List (Event ι)) {i : ι}
    (hpc : (run {} es).pc i = .useResume) (expired : Bool) :
    ((run {} es).step (.go i expired)).pc i = .outside ↔
      Machine.Along step Undisturbed {} es ∧ (run {} es).served < 2147483647 := by
  have h := inv_run hcard es
  have hrun : Machine.Along step Undisturbed {} es ↔
      (run {} es).arm.vcSuspendState ≠ .inProgress := by
    rw [← h.inStep.resumed_iff]
    exact ((run_resumed_iff hcard [] es).trans (and_iff_right rfl)).symm
  have hgo : (run {} es).step (.go i expired) = (run {} es).waitResume (·.ret i .used)
      (run {} es).arm.vcResumeComplete.useInternal := by
    change State.go _ _ _ = _
    unfold State.go
    rw [hpc]
  rw [hgo, hrun]
  rcases (run {} es).arm.vcResumeComplete.useInternal_cases with ⟨hdone, hwait⟩ | ⟨x, hx, hwait⟩
  · rw [hwait]
    change (run {} es).pc i = .outside ↔ _
    rw [hpc]
    refine iff_of_false nofun fun hserved => ?_
    have hsum := h.served (h.inStep.resumed hserved.1)
    rw [hdone] at hsum
    exact absurd hserved.2 (hsum ▸ Nat.not_lt.2 (by simp))
  · rw [hwait]
    refine iff_of_true (Function.update_self ..) ?_
    have hne : (run {} es).arm.vcSuspendState ≠ .inProgress := by
      intro hs
      rw [(h.inStep.suspending hs).2] at hx
      exact absurd hx (Nat.succ_ne_zero _)
    have hsum := h.served (h.inStep.resumed hne)
    exact ⟨hne, by omega⟩

/-- The first use of all. -/
theorem use_returns_first :
    ((run {} [.use 0 .service, .go 0 false] : State (Fin 1)).step (.go 0 false)).pc 0 = .outside :=
  (use_returns_iff (by simp) _ rfl false).2 ⟨by simp [Machine.Along, Undisturbed], by decide⟩

/-! ## Without forced suspends -/

/-- Nobody has forced a suspend. -/
structure Unforced (s : State ι) : Prop where
  idle : s.arm.vcSuspendState = .idle
  unblocked : s.arm.resumeBlocked = false
  blockedCount : s.arm.blockedCount = 0
  pc : ∀ i, (s.pc i).isUnforced

namespace Unforced

variable {s : State ι} {i : ι} {pc' : Pc}

omit [Fintype ι] [DecidableEq ι] in
theorem arm (h : s.Unforced) {a : ArmState} (hs : a.vcSuspendState = .idle)
    (hb : a.resumeBlocked = false) (hc : a.blockedCount = 0) :
    ({ s with arm := a } : State ι).Unforced := ⟨hs, hb, hc, h.pc⟩

omit [Fintype ι] in
theorem goto (h : s.Unforced) (hpc : pc'.isUnforced) : (s.goto i pc').Unforced := by
  refine ⟨h.idle, h.unblocked, h.blockedCount, fun j => ?_⟩
  change (Function.update s.pc i pc' j).isUnforced
  by_cases hj : j = i
  · rw [hj, Function.update_self]
    exact hpc
  · rw [Function.update_of_ne hj]
    exact h.pc j

omit [Fintype ι] [DecidableEq ι] in
theorem waitResume (h : s.Unforced) {next : State ι → State ι}
    (hnext : ∀ t : State ι, t.Unforced → (next t).Unforced)
    (wait : Completion × Completion.Outcome) : (s.waitResume next wait).Unforced := by
  unfold State.waitResume
  split
  · exact hnext _ ⟨h.idle, h.unblocked, h.blockedCount, h.pc⟩
  · exact h

omit [Fintype ι] in
theorem go (h : s.Unforced) (i : ι) (expired : Bool) : (s.go i expired).Unforced := by
  have hi := h.pc i
  unfold State.go
  cases hpc : s.pc i with
  | outside => exact h
  | use type =>
    have hloop : s.arm.useLoop (s.arm.resumeBlocker.done.toNat + 1) = (s.arm, false) := by
      unfold ArmState.useLoop
      rw [h.unblocked]
      rfl
    obtain ⟨hs, hb, hc⟩ := ArmState.count_idle h.idle type
    dsimp only
    unfold useLocked
    rw [hloop]
    exact (h.arm hs (hb.trans h.unblocked) (hc.trans h.blockedCount)).goto rfl
  | useResume =>
    dsimp only
    refine h.waitResume (fun t ht => ?_) _
    exact goto ⟨ht.idle, ht.unblocked, ht.blockedCount, ht.pc⟩ (by rfl)
  | allow =>
    have hneed : s.arm.unblockResume.needResume = false := by
      simp [ArmState.needResume, ArmState.unblockResume, h.idle, SuspendStatus.toInt]
    dsimp only
    rw [ArmState.vchiqCheckResume, hneed]
    exact (h.arm (a := s.arm.unblockResume) h.idle rfl h.blockedCount).goto rfl
  | allowResume =>
    dsimp only
    exact h.waitResume (fun t ht => ht.goto rfl) _
  | allowRead => exact goto ⟨h.idle, h.unblocked, h.blockedCount, h.pc⟩ (by rfl)
  | _ =>
    rw [hpc] at hi
    cases hi

omit [Fintype ι] in
theorem call (h : s.Unforced) (hpc : pc'.isUnforced) : (s.call i pc').Unforced := by
  unfold State.call
  split
  · exact h.goto hpc
  · exact h

omit [Fintype ι] in
theorem step (h : s.Unforced) {e : Event ι} (he : e.Unforced) : (s.step e).Unforced := by
  cases e with
  | use i type => exact h.call rfl
  | release counted =>
    unfold State.step
    dsimp only
    rw [ArmState.vchiqReleaseInternal_eq]
    exact h
  | forceSuspend i => exact he.elim
  | allowResume i => exact h.call rfl
  | checkSuspend =>
    have hwanted : s.arm.vchiqVideocoreWanted = true := by
      simp [ArmState.vchiqVideocoreWanted, h.blockedCount, h.unblocked,
        vchiqPlatformVideocoreWanted]
    unfold State.step ArmState.vchiqCheckSuspend
    simp only [hwanted, Bool.not_true, Bool.false_eq_true, and_false, if_false]
    exact h
  | checkResume =>
    unfold State.step ArmState.vchiqPlatformCheckResume
    dsimp only
    split
    · exact h
    · split
      · exact ⟨h.idle, h.unblocked, h.blockedCount, h.pc⟩
      · exact h
  | slotHandler =>
    have hround : s.arm.vchiqPlatformCheckSuspend = s.arm := by
      simp [ArmState.vchiqPlatformCheckSuspend, h.idle]
    unfold State.step ArmState.slotHandlerRound
    dsimp only
    rw [hround]
    split
    · exact ⟨h.idle, h.unblocked, h.blockedCount, h.pc⟩
    · exact h
  | connected => exact ⟨h.idle, h.unblocked, h.blockedCount, h.pc⟩
  | go i expired => exact h.go i expired

omit [Fintype ι] [DecidableEq ι] in
theorem init : ({} : State ι).Unforced := ⟨rfl, rfl, rfl, fun _ => rfl⟩

end Unforced

omit [Fintype ι] in
/-- Where nobody forces a suspend, none is ever taken up, or even requested. -/
theorem undisturbed_of_unforced {es : List (Event ι)} (hes : ∀ e ∈ es, e.Unforced) :
    Machine.Along step (fun s e => s.arm.vcSuspendState = .idle ∧ s.Undisturbed e) {} es := by
  refine Machine.Along.strengthen (I := Unforced) (fun s e h he => ⟨⟨h.idle, ?_⟩, h.step he⟩)
    (Machine.along_of_forall_mem step hes) .init
  cases e with
  | slotHandler =>
    intro _ hs
    exact absurd (h.idle.symm.trans hs) nofun
  | _ => trivial

/-- A use, a round of the slot handler and the end of the use. -/
theorem undisturbed_of_unforced_use :
    Machine.Along step (fun s e => s.arm.vcSuspendState = .idle ∧ s.Undisturbed e)
      ({} : State (Fin 1)) [.use 0 .service, .go 0 false, .slotHandler, .go 0 false] :=
  undisturbed_of_unforced (by simp [Event.Unforced])

end State
end Suspend
