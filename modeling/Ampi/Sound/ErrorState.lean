-- SUMMARY: Whether the error state is absorbing, and the errors after which it is.
import Ampi.Sound.Trace

/-!
# The error state

`Start` and `Cancel` write the state without testing it again, so an error raised
by `Callback` while one of them is suspended can be overwritten. `Callback` itself
never leaves the error state.
-/

namespace Sound

/-- The main thread is in `Start` or `Cancel` at a point from which it can still
set a state other than `Error`. -/
def MainPc.overwritesState : MainPc → Bool
  | .initialise | .connect | .serviceOpen | .openRelease | .startUse | .peerVersion
  | .chunkCallback _ | .write .first _ | .cancelWait | .cancelUse | .cancelRelease => true
  | .queueMessage p _ _ | .waitEvent p => p ≠ .setControl
  | .idle | .write .second _ | .startRelease _ => false

theorem MainMove.overwritesState {m m' : MainPc} (h : MainMove m m')
    (hm : m.overwritesState = false) : m'.overwritesState = false := by
  cases h with
  | wait h | configured h | controlled h => cases h <;> simp_all [MainPc.overwritesState]
  | _ => simp_all [MainPc.overwritesState]

namespace Sys

/-- Once the state is `Error` it stays `Error`. -/
def ErrorAbsorbs (s : Sys) : Prop :=
  ∀ es₁ es₂, (s.run es₁).dev.state = .error → (s.run (es₁ ++ es₂)).dev.state = .error

/-- `Callback` raises an error in this step: `vchi_msg_dequeue` has failed, a
`COMPLETE` has foreign cookies, or a send of `WriteChunk` has failed. -/
def raisesError (s : Sys) : Event → Bool
  | .slotReturn nResult =>
    match s.slot with
    | .errorRelease => true
    | .dequeue (.complete _ k1 k2) =>
      nResult = 0 ∧ s.dev.state ≠ .idle ∧ s.dev.state ≠ .error ∧ !goodCookies k1 k2
    | .write _ => nResult ≠ 0
    | _ => false
  | _ => false

/-- `Callback` raises no error while the main thread is going to overwrite it. -/
def errorSafe (s : Sys) (e : Event) : Bool := s.raisesError e → !s.main.overwritesState

/-- In the error state nothing is left that would set another one. -/
structure ErrorStable (s : Sys) : Prop where
  mainDone : s.main.overwritesState = false
  slotDone : s.slot.inCallback = false

namespace ErrorStable

/-- In the error state a step keeps the state. -/
theorem keeps {s s' : Sys} {e : Event} (h : ErrorStable s) (he : s.dev.state = .error)
    (hs : Step s e s') : s'.dev.state = .error ∧ ErrorStable s' := by
  obtain ⟨hm0, hc0⟩ := h
  cases hs with
  | stay | setChunkCallback => exact ⟨he, hm0, hc0⟩
  | mainMove _ hm => exact ⟨he, hm.overwritesState hm0, hc0⟩
  | slotMove _ hm => exact ⟨he, hm0, hm.inCallback⟩
  | setControl | startRefused => exact ⟨he, rfl, hc0⟩
  | startFails => exact ⟨rfl, rfl, hc0⟩
  | startCreated _ hs | startIdle _ hs | cancelled _ hs => simp [he] at hs
  -- the main thread is past the points where it sets a state
  | opened hm | running hm | reset hm | resetSilent hm | mainEnd hm | mainChunk hm
  | cancelResumed hm | stopped hm =>
    rw [hm] at hm0
    cases hm0
  | mainNotSent hm => exact ⟨he, rfl, hc0⟩
  | @mainHeader n _ _ hm | @mainHeaderOnly n _ hm | @mainPacket n _ _ _ hm
  | @mainLastPacket n _ _ _ hm =>
    rw [hm] at hm0
    cases n with
    | first => cases hm0
    | second => exact ⟨he, rfl, hc0⟩
  | queued hm =>
    rw [hm] at hm0
    exact ⟨he, hm0, hc0⟩
  | slotError | slotNotSent => exact ⟨rfl, hm0, rfl⟩
  | result | other | completeIgnored | slotHeader | slotHeaderOnly | slotPacket | slotLastPacket =>
    exact ⟨he, hm0, rfl⟩
  -- a `COMPLETE` is ignored in the error state
  | badCookie _ _ hs | completed _ _ hs | refill _ _ hs | refillSilent _ _ hs => simp_all
  | terminating _ _ hs => simp [he] at hs
  | slotEnd hsl | slotChunk hsl =>
    rw [hsl] at hc0
    cases hc0

/-- A step enters the error state only where it is stable. -/
theorem enters {s s' : Sys} {e : Event} (h : s.dev.state ≠ .error) (hok : s.errorSafe e)
    (hs : Step s e s') (he' : s'.dev.state = .error) : ErrorStable s' := by
  have raised : s.raisesError e → s.main.overwritesState = false := by
    intro hr
    simpa [errorSafe, hr] using hok
  cases hs with
  | startFails _ _ _ hc => exact ⟨rfl, hc⟩
  | @slotError r hsl => exact ⟨raised (by simp [raisesError, hsl]), rfl⟩
  | badCookie hsl _ hs hk => exact ⟨raised (by simp [raisesError, hsl, hs, hk]), rfl⟩
  | slotNotSent hsl _ hr => exact ⟨raised (by simp [raisesError, hsl, hr]), rfl⟩
  | stay | setChunkCallback | mainMove | slotMove | setControl | startRefused | startCreated
  | startIdle | reset | resetSilent | mainChunk | mainNotSent | mainHeader | mainHeaderOnly
  | mainPacket | mainLastPacket | queued | cancelResumed | result | other | completeIgnored
  | completed | refill | refillSilent | slotChunk | slotHeader | slotHeaderOnly | slotPacket
  | slotLastPacket => exact absurd he' h
  | opened | running | mainEnd | cancelled | stopped | terminating | slotEnd => cases he'

theorem step {s s' : Sys} {e : Event} (h : s.dev.state = .error → ErrorStable s)
    (hok : s.errorSafe e) (hs : Step s e s') : s'.dev.state = .error → ErrorStable s' := by
  intro he'
  by_cases he : s.dev.state = .error
  · exact ((h he).keeps he hs).2
  · exact enters he hok hs he'

theorem run {s : Sys} {es : List Event} (h : ErrorStable s) (he : s.dev.state = .error) :
    (s.run es).dev.state = .error :=
  (Machine.run_invariant (I := fun s => s.dev.state = .error ∧ ErrorStable s)
    (fun s e h => h.2.keeps h.1 (step_rule s e)) es ⟨he, h⟩).1

end ErrorStable

/-- The error state is absorbing in every run whose steps are all `errorSafe`. -/
theorem error_absorbs {sampleRate chunkSize : UInt32} {destination : SoundDestination}
    {es₁ es₂ : List Event}
    (hok : Machine.Along step (errorSafe · ·) (ctor sampleRate chunkSize destination) es₁)
    (herr : ((ctor sampleRate chunkSize destination).run es₁).dev.state = .error) :
    ((ctor sampleRate chunkSize destination).run (es₁ ++ es₂)).dev.state = .error := by
  have stable := hok.invariant (I := fun s => s.dev.state = .error → ErrorStable s)
    (fun s e h hse => ErrorStable.step h hse (step_rule s e)) nofun
  rw [run, Machine.run_append]
  exact (stable herr).run herr

/-- A foreign `COMPLETE` between calls; neither `Start` nor `Cancel` brings the
device back. -/
theorem error_absorbs_between_calls :
    ((ctor 44100 1 .auto).run
      (twoChunksQueued ++ handled (.complete 2 0 0) ++ [.start, .cancel])).dev.state = .error :=
  error_absorbs (by decide +kernel) (by decide +kernel)

/-- The same `COMPLETE` while `Cancel` waits: `Cancel` goes on to `Idle`. -/
theorem not_errorAbsorbs : ¬ (ctor 44100 1 .auto).ErrorAbsorbs := by
  intro h
  have := h (twoChunksQueued ++ .cancel :: handled (.complete 2 0 0)) (.resume :: mainCalls 5)
    (by decide +kernel)
  revert this
  decide +kernel

end Sys
end Sound
