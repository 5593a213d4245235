-- SUMMARY: What `Callback` does after `Cancel`: silence until the next `Start`, except for a refill in `Terminating`.
import Ampi.Sound.Trace

/-!
# After `Cancel`

`Callback` tests for `Cancelled` only. The first `COMPLETE` that leaves no more
than one chunk queued moves the device on to `Terminating`, and until the main
thread has run again a further `COMPLETE` finds a state that refills.
-/

namespace Sound

/-- A `WRITE` header or a packet of samples. -/
def AudioMsg.isChunk : AudioMsg → Bool
  | .write .. | .data _ => true
  | .request _ => false

/-- `Callback` calls the chunk callback or queues a part of a chunk. -/
@[simp] def Obs.isSlotChunk : Obs → Bool
  | .chunkCallback c => c = .slotHandler
  | .queued c m => c = .slotHandler && m.isChunk
  | _ => false

def slotChunks (log : List Obs) : List Obs := log.filter Obs.isSlotChunk

@[simp] theorem slotChunks_nil : slotChunks [] = [] := rfl

@[simp] theorem slotChunks_cons (o : Obs) (l : List Obs) :
    slotChunks (o :: l) = if o.isSlotChunk then o :: slotChunks l else slotChunks l :=
  List.filter_cons

@[simp] theorem slotChunks_append (l l' : List Obs) :
    slotChunks (l ++ l') = slotChunks l ++ slotChunks l' := List.filter_append ..

theorem slotChunks_quiet {log log' : List Obs} (h : QuietLog log log') :
    slotChunks log' = slotChunks log :=
  h.view fun l o ho => by cases o <;> simp_all [slotChunks, Obs.quiet, Obs.isSlotChunk]

namespace Sys

/-- Once `Cancel` has set `Cancelled`, `Callback` calls the chunk callback no more
and queues no part of a chunk, as long as `Start` is not called. -/
def CancelSilences (s : Sys) : Prop :=
  ∀ es₁ es₂ : List Event, (s.run es₁).mainFree → (s.run es₁).dev.state = .running →
    (∀ e ∈ es₂, e ≠ .start) →
    slotChunks (s.run (es₁ ++ .cancel :: es₂)).log = slotChunks (s.run es₁).log

/-- `Cancel` does not catch `Callback` inside `WriteChunk`, and no `COMPLETE`
handled in `Terminating` leaves a queue short enough for a refill. -/
def cancelSafe (s : Sys) : Event → Bool
  | .cancel => s.dev.state = .running → !s.slot.inWriteChunk
  | e => s.refillTest e → s.dev.state = .terminating → !s.dev.chunkCallback

/-- What holds from `Cancel` to the next `Start`. -/
structure AfterCancel (s : Sys) : Prop where
  notInStart : s.main.inStart = false
  notInWriteChunk : s.slot.inWriteChunk = false
  ended : s.dev.state ≠ .created ∧ s.dev.state ≠ .running ∧ s.dev.state ≠ .unknown

namespace AfterCancel

theorem step {s s' : Sys} {e : Event} (h : AfterCancel s) (he : e ≠ .start) (hok : s.cancelSafe e)
    (hs : Step s e s') : AfterCancel s' ∧ slotChunks s'.log = slotChunks s.log := by
  obtain ⟨hm0, hw0, hst⟩ := h
  cases hs with
  | stay | setChunkCallback => exact ⟨⟨hm0, hw0, hst⟩, rfl⟩
  | mainMove _ hm _ hl => exact ⟨⟨hm.inStart hm0, hw0, hst⟩, slotChunks_quiet hl⟩
  | slotMove _ hm _ hl => exact ⟨⟨hm0, hm.inWriteChunk, hst⟩, slotChunks_quiet hl⟩
  | setControl => exact ⟨⟨rfl, hw0, hst⟩, rfl⟩
  | startRefused | startCreated | startIdle => exact absurd rfl he
  -- the main thread is not inside `Start`
  | startFails _ hm => simp_all
  | opened hm | running hm | reset hm | resetSilent hm | mainEnd hm | mainChunk hm
  | mainNotSent hm | mainHeader hm | mainHeaderOnly hm | mainPacket hm | mainLastPacket hm =>
    rw [hm] at hm0
    cases hm0
  | queued hm =>
    rw [hm] at hm0
    exact ⟨⟨hm0, hw0, hst⟩, by simp⟩
  | cancelled | cancelResumed => exact ⟨⟨rfl, hw0, by simp_all⟩, rfl⟩
  | stopped => exact ⟨⟨rfl, hw0, by simp⟩, by simp⟩
  | slotError => exact ⟨⟨hm0, rfl, by simp⟩, by simp⟩
  | result | other | completeIgnored | completed | refillSilent =>
    exact ⟨⟨hm0, rfl, hst⟩, by simp⟩
  | badCookie | terminating => exact ⟨⟨hm0, rfl, by simp⟩, by simp⟩
  -- of the states left only `Terminating` refills, and there no refill is due
  | refill hsl hc hs hk hr hcb =>
    have hterm : s.dev.state = .terminating := by
      cases h : s.dev.state <;> simp_all
    have htest := refillTest_eq_true hsl hc ⟨hs.1, hs.2.1⟩ hk hr
    simp [cancelSafe, htest, hterm, hcb] at hok
  | slotEnd hsl | slotChunk hsl | slotNotSent hsl | slotHeader hsl | slotHeaderOnly hsl
  | slotPacket hsl | slotLastPacket hsl =>
    rw [hsl] at hw0
    cases hw0

theorem run {s : Sys} {es : List Event} (h : AfterCancel s) (hstart : ∀ e ∈ es, e ≠ .start)
    (hok : Machine.Along Sys.step (cancelSafe · ·) s es) :
    slotChunks (s.run es).log = slotChunks s.log := by
  have hes := Machine.along_and.2 ⟨Machine.along_of_forall_mem Sys.step hstart, hok⟩
  exact hes.const (fun s => slotChunks s.log)
    (fun s e hI hse => hI.step hse.1 hse.2 (step_rule s e)) h

end AfterCancel

theorem step_cancel {s : Sys} (hfree : s.mainFree) (hrun : s.dev.state = .running) :
    s.step .cancel = (s.setState .cancelled).toMain .cancelWait := by
  simp [Sys.step, hfree, cancel, hrun]

/-- `Cancel` silences `Callback` until the next `Start` when the steps from `Cancel`
on are all `cancelSafe`. -/
theorem cancel_silences {sampleRate chunkSize : UInt32} {destination : SoundDestination}
    {es₁ es₂ : List Event} (hfree : ((ctor sampleRate chunkSize destination).run es₁).mainFree)
    (hrun : ((ctor sampleRate chunkSize destination).run es₁).dev.state = .running)
    (hstart : ∀ e ∈ es₂, e ≠ .start)
    (hok : Machine.Along step (cancelSafe · ·) ((ctor sampleRate chunkSize destination).run es₁)
      (.cancel :: es₂)) :
    slotChunks ((ctor sampleRate chunkSize destination).run (es₁ ++ .cancel :: es₂)).log =
      slotChunks ((ctor sampleRate chunkSize destination).run es₁).log := by
  obtain ⟨hcan, hes₂⟩ := hok
  have hfree' : ((ctor sampleRate chunkSize destination).run es₁).slot.inWriteChunk = false := by
    simpa [cancelSafe, hrun] using hcan
  rw [run_at]
  rw [step_cancel hfree hrun] at hes₂ ⊢
  exact AfterCancel.run ⟨rfl, hfree', by simp⟩ hstart hes₂

/-- The main thread runs between the two `COMPLETE`s. -/
def cancelledInTime : List Event :=
  handled (.complete 2 writeCookie1 writeCookie2) ++ [.resume] ++ mainCalls 5 ++
    handled (.complete 2 writeCookie1 writeCookie2)

theorem cancel_silences_in_time :
    slotChunks ((ctor 44100 1 .auto).run (twoChunksQueued ++ .cancel :: cancelledInTime)).log =
      slotChunks ((ctor 44100 1 .auto).run twoChunksQueued).log :=
  cancel_silences (by decide +kernel) (by decide +kernel)
    (by simp [cancelledInTime, handled, mainCalls]) (by decide +kernel)

/-- Both `COMPLETE`s are handled before the main thread runs again: the second one
is answered with another call of the chunk callback. -/
theorem not_cancelSilences : ¬ (ctor 44100 1 .auto).CancelSilences := by
  intro h
  have := h twoChunksQueued (handled (.complete 2 writeCookie1 writeCookie2) ++
    handled (.complete 2 writeCookie1 writeCookie2)) (by decide +kernel) (by decide +kernel)
    (by simp [handled])
  revert this
  decide +kernel

end Sys
end Sound
