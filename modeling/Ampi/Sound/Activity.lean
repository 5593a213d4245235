-- SUMMARY: Whether the device counts as active after a call or the callback has failed.
import Ampi.Sound.ErrorState

/-!
# Activity after a failure

`IsActive` compares the state with `Running`, and the error state comes after it. A failed
`Start` and an error in `Callback` leave `Error`; a failed `Cancel` leaves the state in which
it found the device when its loop ended.
-/

namespace Sound

/-- `CVCHIQSoundBaseDevice_IsActive`. -/
def Device.isActive (d : Device) : Bool := d.state.toNat ≥ SoundState.running.toNat

/-- The calls of `Cancel`. -/
def MainPc.inCancel : MainPc → Bool
  | .cancelWait | .cancelUse | .cancelRelease | .queueMessage .stop _ _ => true
  | _ => false

theorem MainMove.inCancel {m m' : MainPc} (h : MainMove m m') (hm : m.inCancel = false) :
    m'.inCancel = false := by
  cases h with
  | wait h | configured h | controlled h => cases h <;> rfl
  | used p | notQueued p => cases p <;> first | rfl | exact hm
  | stop | stopped => cases hm
  | _ => rfl

theorem MainPc.not_inCancel {m : MainPc} (h : m.inStart) : m.inCancel = false := by
  cases m with
  | queueMessage p => cases p <;> first | rfl | cases h
  | _ => first | rfl | cases h

/-- How often `Start` or `Cancel` has returned `FALSE`. -/
def failures (log : List Obs) : Nat := log.count (.returned false)

@[simp] theorem failures_append (log log' : List Obs) :
    failures (log ++ log') = failures log + failures log' := List.count_append ..

@[simp] theorem failures_singleton (o : Obs) :
    failures [o] = if o = .returned false then 1 else 0 := by
  simp [failures, List.count_singleton]

namespace Sys

/-- `Start` or `Cancel`, which has been under way, returns `FALSE` in this step. -/
def callFails (s : Sys) (e : Event) : Prop :=
  s.main ≠ .idle ∧ (s.step e).main = .idle ∧ failures s.log < failures (s.step e).log

/-- `Callback` detects an error in this step. -/
def callbackFails (s : Sys) (e : Event) : Bool := !s.main.inCallback && s.raisesError e

/-- The device reports that it is not active, whatever happens short of a call of `Start` or a
further error in `Callback`. -/
def InactiveUntilStart (s : Sys) : Prop :=
  ∀ es, Machine.Along step (fun s e => e ≠ .start ∧ s.callbackFails e = false) s es →
    (s.run es).dev.isActive = false

/-! ## The failing steps -/

theorem isActive_of_error {s : Sys} (h : s.dev.state = .error) : s.dev.isActive = true := by
  simp [Device.isActive, h, SoundState.toNat]

/-- `Callback` sets `Error` in each step in which it detects an error. -/
theorem error_of_callbackFails {s : Sys} {e : Event} (h : s.callbackFails e) :
    (s.step e).dev.state = .error := by
  simp only [callbackFails, Bool.and_eq_true, Bool.not_eq_true'] at h
  obtain ⟨hc, hr⟩ := h
  unfold raisesError at hr
  split at hr
  case h_2 => cases hr
  case h_1 nResult =>
    simp only [step, hc, Bool.false_eq_true, if_false]
    split at hr
    case h_1 hs => simp [slotReturn, hs, emit, setState, toSlot]
    case h_2 count k1 k2 hs =>
      simp only [Bool.decide_and, Bool.and_eq_true, decide_eq_true_eq, Bool.not_eq_true'] at hr
      obtain ⟨rfl, hidle, herr, hk⟩ := hr
      simp [slotReturn, hs, emit, dequeued, complete, hidle, herr, hk, setState, toSlot]
    case h_3 w hs =>
      have hr : nResult ≠ 0 := by simpa using hr
      simp [slotReturn, hs, hr, Device.sendReturned, callbackChunk, setState, toSlot]
    case h_4 => cases hr

theorem failures_callbackChunk (s : Sys) (next : WriteNext) :
    failures (s.callbackChunk next).log = failures s.log := by
  cases next with
  | callback => simp [callbackChunk, emit, toSlot]
  | send w => rfl
  | ret nResult =>
    simp only [callbackChunk]
    split <;> rfl

theorem failures_complete (s : Sys) (count cookie1 cookie2 : UInt32) :
    failures (s.complete count cookie1 cookie2).log = failures s.log := by
  unfold complete
  split
  · rfl
  split
  · rfl
  dsimp only
  split
  · split
    · rfl
    · exact failures_callbackChunk { s with dev := s.dev.completed count } _
  · rfl

/-- `Callback` returns nothing. -/
theorem failures_slotReturn (s : Sys) (nResult : Int) :
    failures (s.slotReturn nResult).log = failures s.log := by
  cases hs : s.slot with
  | idle | chunkCallback => simp only [slotReturn, hs]
  | use m | errorRelease | release => simp [slotReturn, hs, emit, toSlot, setState]
  | dequeue m =>
    simp only [slotReturn, hs]
    split
    · rfl
    · cases m with
      | complete count k1 k2 => simp [dequeued, failures_complete, emit]
      | result | other => simp [dequeued, emit, toSlot]
  | write w =>
    simp only [slotReturn, hs, failures_callbackChunk]
    split <;> simp [emit]

/-- The main thread is going to leave a function that does not return `FALSE`. -/
inductive Leaving : MainPc → Prop where
  | setControl (m : Request) (r : Int) : Leaving (.queueMessage .setControl m (.release r))
  | setControlWait : Leaving (.waitEvent .setControl)
  | started : Leaving (.startRelease false)

theorem failures_mainReturn {s : Sys} (nResult : Int) (hm : Leaving s.main) :
    failures (s.mainReturn nResult).log = failures s.log := by
  cases hpc : s.main with
  | queueMessage p m q =>
    rw [hpc] at hm
    cases hm with
    | setControl m r =>
      simp only [mainReturn, hpc, queueReturned, eventLoop, callReturned]
      split
      · split <;> simp [emit, toMain]
      · simp [emit, toMain]
  | startRelease failed =>
    rw [hpc] at hm
    cases hm with
    | started => simp [mainReturn, hpc, mainReturns, emit, toMain, failures]
  | waitEvent p => simp only [mainReturn, hpc]
  | _ => rw [hpc] at hm; cases hm

theorem failures_resume {s : Sys} (hm : Leaving s.main) :
    failures s.resume.log = failures s.log := by
  cases hpc : s.main with
  | waitEvent p =>
    rw [hpc] at hm
    cases hm with
    | setControlWait =>
      simp only [resume, hpc, eventLoop, callReturned]
      split <;> rfl
  | cancelWait => rw [hpc] at hm; cases hm
  | _ => simp only [resume, hpc]

/-- The main thread does not fail where it leaves one of these functions. -/
theorem failures_step {s : Sys} (e : Event) (hm : Leaving s.main) :
    failures (s.step e).log = failures s.log := by
  have hfree : s.mainFree = false := by
    cases hpc : s.main with
    | idle => rw [hpc] at hm; cases hm
    | _ => simp [mainFree, hpc]
  cases e with
  | setChunkCallback b => rfl
  | start | cancel | setControl v d => simp [step, hfree]
  | mainReturn nResult =>
    simp only [step]
    split
    · rfl
    · exact failures_mainReturn nResult hm
  | peerVersion nResult usPeerVersion =>
    simp only [step]
    split
    case h_1 hpc => rw [hpc] at hm; cases hm
    case h_2 => rfl
  | resume =>
    simp only [step]
    split
    · rfl
    · exact failures_resume hm
  | chunkReturn r =>
    simp only [step, chunkReturn]
    split
    case h_1 n hpc => rw [hpc] at hm; cases hm
    case h_2 => exact failures_callbackChunk { s with dev := (s.dev.chunkReturned r).1 } _
    case h_3 => rfl
  | deliver reason m =>
    simp only [step]
    split
    · split <;> rfl
    · rfl
  | slotReturn nResult =>
    simp only [step]
    split
    · rfl
    · exact failures_slotReturn s nResult

theorem primed_ne_idle {d : Device} {n : Priming} : primed d n ≠ .idle := by
  cases n with
  | first => cases h : d.chunkCallback <;> simp [primed, h]
  | second => simp [primed]

/-- A failing `Start` sets `Error`, and a failing `Cancel` leaves the state alone. -/
theorem callFails_cases {s : Sys} {e : Event} (h : s.callFails e) :
    (s.step e).mainFree ∧
      (s.main.inCancel = false ∧ (s.step e).dev.state = .error ∨
        s.main.inCancel ∧ (s.step e).dev.state = s.dev.state ∧ (s.step e).slot = s.slot) := by
  obtain ⟨hne, hidle, hlt⟩ := h
  have hs := step_rule s e
  generalize heq : s.step e = s' at hs hidle hlt
  cases hs with
  | startFails _ hm _ hc => exact ⟨by simp [mainFree, hc], .inl ⟨MainPc.not_inCancel hm, rfl⟩⟩
  | @mainMove e pc _ _ _ he hm hc hl =>
    obtain rfl : pc = .idle := hidle
    refine ⟨by simp [mainFree, hc], .inr ⟨?_, rfl, rfl⟩⟩
    generalize hmain : s.main = main at hm hne
    have hleaving (h : Leaving main) : False := by
      have hsame := failures_step e (hmain ▸ h : Leaving s.main)
      rw [heq] at hsame
      exact Nat.ne_of_gt hlt hsame
    cases hm with
    | cancelRefused => exact absurd rfl hne
    | controlSet h =>
      cases h with
      | release m r => exact (hleaving (.setControl m r)).elim
      | wait => exact (hleaving .setControlWait).elim
    | started => exact (hleaving .started).elim
    | notStopped m r => rfl
  | stopped => simp [failures] at hlt
  | mainEnd | mainHeaderOnly | mainLastPacket => exact absurd hidle primed_ne_idle
  | stay | setChunkCallback | slotMove => exact absurd hidle hne
  | _ => simp_all

theorem primed_inCancel (d : Device) (n : Priming) : (primed d n).inCancel = false := by
  cases n with
  | first => cases h : d.chunkCallback <;> simp [primed, h, MainPc.inCancel]
  | second => rfl

/-- `Cancel` has been called in the running state, and nothing sets `Created` again. Where the
stream ends while it is under way, `Callback` has left `WriteChunk`. -/
structure Cancelling (s : Sys) : Prop where
  opened : s.main.inCancel → s.dev.state ≠ .created
  ended : s.main.inCancel → s.dev.state = .idle → s.slot.inWriteChunk = false

theorem Cancelling.step {s s' : Sys} {e : Event} (h : Cancelling s) (hs : Step s e s') :
    Cancelling s' := by
  have outside : s'.main.inCancel = false → Cancelling s' :=
    fun hc => ⟨by simp [hc], by simp [hc]⟩
  cases hs with
  | stay | setChunkCallback => exact ⟨h.opened, h.ended⟩
  | mainMove _ hm =>
    by_cases hcancel : s.main.inCancel
    · exact ⟨fun _ => h.opened hcancel, fun _ => h.ended hcancel⟩
    · exact outside (hm.inCancel (by simpa using hcancel))
  | slotMove _ hm => exact ⟨h.opened, fun _ _ => hm.inWriteChunk⟩
  | slotError | badCookie | terminating | slotNotSent => exact ⟨fun _ => nofun, fun _ => nofun⟩
  | slotEnd => exact ⟨fun _ => nofun, fun _ _ => rfl⟩
  | cancelled => exact ⟨fun _ => nofun, fun _ => nofun⟩
  | @queued p m hm =>
    cases p with
    | stop => exact ⟨fun _ => h.opened (by rw [hm]; rfl), fun _ => h.ended (by rw [hm]; rfl)⟩
    | _ => exact outside rfl
  | cancelResumed hm =>
    exact ⟨fun _ => h.opened (by rw [hm]; rfl), fun _ => h.ended (by rw [hm]; rfl)⟩
  | mainEnd | mainHeaderOnly | mainLastPacket => exact outside (primed_inCancel ..)
  | result | other | completeIgnored | completed | refillSilent =>
    exact ⟨h.opened, fun _ _ => rfl⟩
  -- `Callback` asks for no chunk in `Idle`
  | refill _ _ hst => exact ⟨h.opened, fun _ hidle => absurd hidle hst.1⟩
  | slotChunk hsl | slotHeader hsl | slotHeaderOnly hsl | slotPacket hsl | slotLastPacket hsl =>
    refine ⟨h.opened, fun hc hidle => ?_⟩
    have := h.ended hc hidle
    rw [hsl] at this
    cases this
  | _ => exact outside rfl

/-- The stream has ended, and neither `Start` nor `Cancel` nor `WriteChunk` is under way. -/
structure Resting (s : Sys) : Prop where
  state : s.dev.state = .idle
  notInStart : s.main.inStart = false
  notInCancel : s.main.inCancel = false
  notInWriteChunk : s.slot.inWriteChunk = false

theorem Resting.step {s s' : Sys} {e : Event} (h : Resting s) (he : e ≠ .start)
    (hfail : s.callbackFails e = false) (hs : Step s e s') : Resting s' := by
  obtain ⟨hst, hm0, hc0, hw0⟩ := h
  cases hs with
  | stay | setChunkCallback => exact ⟨hst, hm0, hc0, hw0⟩
  | mainMove _ hm => exact ⟨hst, hm.inStart hm0, hm.inCancel hc0, hw0⟩
  | slotMove _ hm => exact ⟨hst, hm0, hc0, hm.inWriteChunk⟩
  | setControl => exact ⟨hst, rfl, rfl, hw0⟩
  | startRefused | startCreated | startIdle => exact absurd rfl he
  | startFails _ hm => simp_all
  | opened hm | running hm | reset hm | resetSilent hm | mainEnd hm | mainChunk hm
  | mainNotSent hm | mainHeader hm | mainHeaderOnly hm | mainPacket hm | mainLastPacket hm =>
    rw [hm] at hm0
    cases hm0
  | @queued p m hm =>
    rw [hm] at hm0 hc0
    cases p with
    | setControl => exact ⟨hst, rfl, rfl, hw0⟩
    | stop => cases hc0
    | _ => cases hm0
  | cancelResumed hm | stopped hm =>
    rw [hm] at hc0
    cases hc0
  | slotError hsl hc => simp [callbackFails, raisesError, hsl, hc] at hfail
  | result | other | completeIgnored => exact ⟨hst, hm0, hc0, rfl⟩
  | cancelled _ hs | terminating _ _ hs => simp [hst] at hs
  | badCookie _ _ hs | completed _ _ hs | refill _ _ hs | refillSilent _ _ hs =>
    exact absurd hst hs.1
  | slotEnd hsl | slotChunk hsl | slotNotSent hsl | slotHeader hsl | slotHeaderOnly hsl
  | slotPacket hsl | slotLastPacket hsl =>
    rw [hsl] at hw0
    cases hw0

theorem Resting.inactiveUntilStart {s : Sys} (h : Resting s) : s.InactiveUntilStart := by
  intro es hes
  have hend := hes.invariant (I := Resting) (fun s e h hse => h.step hse.1 hse.2 (step_rule s e)) h
  simp [Device.isActive, hend.state, SoundState.toNat]

/-- After a failure the device is inactive until the next `Start` exactly if it is a `Cancel`
that fails, on a stream that has ended. -/
theorem inactiveUntilStart_iff (sampleRate chunkSize : UInt32) (destination : SoundDestination)
    (es : List Event) (e : Event)
    (hfail : ((ctor sampleRate chunkSize destination).run es).callFails e ∨
      ((ctor sampleRate chunkSize destination).run es).callbackFails e) :
    (((ctor sampleRate chunkSize destination).run es).step e).InactiveUntilStart ↔
      ((ctor sampleRate chunkSize destination).run es).callbackFails e = false ∧
        ((ctor sampleRate chunkSize destination).run es).main.inCancel ∧
          ((ctor sampleRate chunkSize destination).run es).dev.state = .idle := by
  have hcancel : Cancelling ((ctor sampleRate chunkSize destination).run es) :=
    Machine.run_invariant (I := Cancelling) (fun s e h => h.step (step_rule s e)) es
      ⟨by simp [ctor, MainPc.inCancel], by simp [ctor, MainPc.inCancel]⟩
  generalize (ctor sampleRate chunkSize destination).run es = s at *
  have hactive (h : (s.step e).dev.state = .error) : ¬ (s.step e).InactiveUntilStart :=
    fun hi => by simpa [isActive_of_error h] using hi [] trivial
  by_cases hcb : s.callbackFails e
  · simp [hcb, hactive (error_of_callbackFails hcb)]
  obtain ⟨hfree, hst⟩ := callFails_cases (hfail.resolve_right hcb)
  obtain ⟨hmain, -⟩ := idle_of_mainFree hfree
  obtain ⟨hin, herr⟩ | ⟨hin, hsame, hslot⟩ := hst
  · simp [hin, hactive herr]
  refine ⟨fun hi => ⟨by simpa using hcb, hin, ?_⟩, fun ⟨_, _, hidle⟩ => ?_⟩
  · have hnow : s.dev.isActive = false := by simpa [Device.isActive, hsame] using hi [] trivial
    have hne := hcancel.opened hin
    cases hs : s.dev.state <;> simp_all [Device.isActive, SoundState.toNat]
  · exact Resting.inactiveUntilStart ⟨by rw [hsame, hidle], by rw [hmain]; rfl, by rw [hmain]; rfl,
      by rw [hslot]; exact hcancel.ended hin hidle⟩

/-- A session in which `Callback` is about to queue the header of a third chunk. -/
def thirdHeader : List Event :=
  twoChunksQueued ++ [.deliver .msgAvailable (.complete 2 writeCookie1 writeCookie2),
    .slotReturn 0, .slotReturn 0, .chunkReturn ⟨1, some fun _ => 0⟩]

/-- A session that is cancelled while two chunks are outstanding. `Callback` ends the stream at
the second `COMPLETE`, before `Cancel` goes on, and the `STOP` is not queued. -/
def stopNotQueued : List Event :=
  twoChunksQueued ++ .cancel :: handled (.complete 2 writeCookie1 writeCookie2) ++
    [.deliver .msgAvailable (.complete 2 writeCookie1 writeCookie2), .slotReturn 0, .slotReturn 0,
      .chunkReturn ⟨0, none⟩, .slotReturn 0, .resume, .mainReturn 0, .mainReturn 0,
      .mainReturn (-1)]

/-- A `Cancel` that fails on the ended stream, and a header that `Callback` does not queue. -/
theorem inactiveUntilStart_cancel_header :
    (((ctor 44100 1 .auto).run stopNotQueued).step (.mainReturn 0)).InactiveUntilStart ∧
      ¬ (((ctor 44100 1 .auto).run thirdHeader).step (.slotReturn (-1))).InactiveUntilStart :=
  ⟨(inactiveUntilStart_iff 44100 1 .auto stopNotQueued (.mainReturn 0)
      (.inl ⟨fun h => absurd (congrArg MainPc.inCancel h) (by decide +kernel),
        (idle_of_mainFree (by decide +kernel)).1, by decide +kernel⟩)).2 (by decide +kernel),
    fun h => absurd ((inactiveUntilStart_iff 44100 1 .auto thirdHeader (.slotReturn (-1))
      (.inr (by decide +kernel))).1 h) (by decide +kernel)⟩

/-- The header is not queued, and the device is active in the error state. -/
theorem not_inactive_of_failure :
    ¬ ∀ es e, ((ctor 44100 1 .auto).run es).callFails e ∨
        ((ctor 44100 1 .auto).run es).callbackFails e →
      (((ctor 44100 1 .auto).run es).step e).InactiveUntilStart := by
  intro h
  have := h thirdHeader (.slotReturn (-1)) (.inr (by decide +kernel)) [] trivial
  revert this
  decide +kernel

end Sys

end Sound
