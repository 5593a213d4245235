-- SUMMARY: Whether a short return of the chunk callback ends playback, and the returns after which it does.
import Ampi.Sound.Trace

/-!
# End of stream

A call of the chunk callback that returns fewer elements than it was asked for
ends playback. `WriteChunk` only tests for zero and for a null buffer, and `Start`
makes its second priming call whatever the first one returned.
-/

namespace Sound

/-- The callback returned fewer than `chunkSize` elements. -/
def ChunkReturn.short (chunkSize : UInt32) (r : ChunkReturn) : Bool :=
  r.nWords < chunkSize || r.buffer.isNone

/-- The test of `WriteChunk`. -/
def ChunkReturn.atEnd (r : ChunkReturn) : Bool := r.nWords = 0 || r.buffer.isNone

theorem ChunkReturn.atEnd_eq_true {r : ChunkReturn} :
    r.atEnd = true ↔ r.nWords = 0 ∨ r.buffer = none := by
  simp [atEnd]

/-- A call of the chunk callback or a header is still to come before the main
thread returns to its caller. -/
def MainPc.willWrite : MainPc → Bool
  | .initialise | .connect | .serviceOpen | .openRelease | .startUse | .peerVersion
  | .chunkCallback _ | .write .first _ | .write .second (.header _ _) => true
  | .queueMessage p _ _ | .waitEvent p => p = .config ∨ p = .control ∨ p = .openAudio ∨ p = .start
  | .idle | .write .second (.data _ _ _) | .startRelease _ | .cancelWait | .cancelUse
  | .cancelRelease => false

theorem MainMove.willWrite {m m' : MainPc} (h : MainMove m m') (hm : m.willWrite = false) :
    m'.willWrite = false := by
  cases h with
  | wait h | configured h | controlled h => cases h <;> simp_all [MainPc.willWrite]
  | _ => simp_all [MainPc.willWrite]

namespace Sys

def inCallback (s : Sys) : Bool := s.main.inCallback || s.slot.inCallback

/-- From the return `r` of the chunk callback in `s` to `s'`, playback has ended. -/
structure PlaybackEnds (s : Sys) (r : ChunkReturn) (s' : Sys) : Prop where
  noCall : chunkCalls s'.log = chunkCalls s.log
  ownHeader : headers (audioMsgs s'.log) = headers (audioMsgs s.log) ∨
    headers (audioMsgs s'.log) = headers (audioMsgs s.log) ++ [r.nWords * 2]
  leavesRunning : s'.main.inWriteChunk = false → s'.slot.inWriteChunk = false →
    s'.dev.state ≠ .running

/-- Every short return of the chunk callback ends playback until the next `Start`. -/
def ShortReturnEnds (s : Sys) : Prop :=
  ∀ es₁ r es₂, (s.run es₁).inCallback → r.short s.dev.chunkSize → (∀ e ∈ es₂, e ≠ .start) →
    PlaybackEnds (s.run es₁) r (s.run (es₁ ++ .chunkReturn r :: es₂))

/-- The return is one that `WriteChunk` takes for the end, and neither context is
about to call the chunk callback or to queue a header: in `Start` it is the second
priming call, and from `Callback` it finds `Start` past its second header. -/
def endsStream (s : Sys) (r : ChunkReturn) : Bool :=
  r.atEnd &&
    match s.main with
    | .chunkCallback .first => false
    | .chunkCallback .second => !s.slot.headerPending
    | m => !m.willWrite

/-- What holds from the end of the stream to the next `Start`. -/
structure Ended (s : Sys) : Prop where
  state : s.dev.state = .idle ∨ s.dev.state = .error
  mainDone : s.main.willWrite = false
  slotDone : s.slot.headerPending = false

namespace Ended

/-- Neither a call of the chunk callback nor a header shows in the log. -/
def playback (s : Sys) : Nat × List UInt32 := (chunkCalls s.log, headers (audioMsgs s.log))

theorem playback_quiet {log log' : List Obs} (h : QuietLog log log') :
    (chunkCalls log', headers (audioMsgs log')) = (chunkCalls log, headers (audioMsgs log)) := by
  rw [chunkCalls_quiet h, audioMsgs_quiet h]

theorem step {s s' : Sys} {e : Event} (h : Ended s) (he : e ≠ .start) (hs : Step s e s') :
    Ended s' ∧ playback s' = playback s := by
  obtain ⟨hst, hm0, hp0⟩ := h
  cases hs with
  | stay | setChunkCallback => exact ⟨⟨hst, hm0, hp0⟩, rfl⟩
  | mainMove _ hm _ hl => exact ⟨⟨hst, hm.willWrite hm0, hp0⟩, playback_quiet hl⟩
  | slotMove _ hm _ hl =>
    exact ⟨⟨hst, hm0, SlotPc.headerPending_of_not_inWriteChunk hm.inWriteChunk⟩, playback_quiet hl⟩
  | setControl => exact ⟨⟨hst, rfl, hp0⟩, rfl⟩
  | startRefused | startCreated | startIdle => exact absurd rfl he
  | startFails _ _ _ _ hl => exact ⟨⟨.inr rfl, rfl, hp0⟩, playback_quiet hl⟩
  -- the main thread has nothing left to ask for or to announce
  | opened hm | running hm | reset hm | resetSilent hm | mainEnd hm | mainChunk hm =>
    rw [hm] at hm0
    cases hm0
  | @mainNotSent n w _ hm => exact ⟨⟨hst, rfl, hp0⟩, rfl⟩
  | @mainHeader n _ _ hm | @mainHeaderOnly n _ hm =>
    rw [hm] at hm0
    cases n <;> cases hm0
  | @mainPacket n _ _ _ hm | @mainLastPacket n _ _ _ hm =>
    rw [hm] at hm0
    cases n with
    | first => cases hm0
    | second =>
      exact ⟨⟨hst, rfl, hp0⟩,
        by simp [playback, WritePc.msg, primedObs, chunkCalls, audioMsgs, headers]⟩
  | queued hm =>
    rw [hm] at hm0
    exact ⟨⟨hst, hm0, hp0⟩, by simp [playback, chunkCalls, audioMsgs, headers]⟩
  | cancelled _ hrun => rw [hrun] at hst; simp at hst
  | cancelResumed => exact ⟨⟨hst, rfl, hp0⟩, rfl⟩
  | stopped => exact ⟨⟨.inl rfl, rfl, hp0⟩, by simp [playback, chunkCalls, audioMsgs]⟩
  | slotError => exact ⟨⟨.inr rfl, hm0, rfl⟩, by simp [playback, chunkCalls, audioMsgs]⟩
  | result | other | completeIgnored =>
    exact ⟨⟨hst, hm0, rfl⟩, by simp [playback, chunkCalls, audioMsgs]⟩
  | badCookie _ _ hs | completed _ _ hs | refill _ _ hs | refillSilent _ _ hs =>
    exact absurd hst (by simp [hs])
  | terminating _ _ hcan => rw [hcan] at hst; simp at hst
  | slotEnd hsl | slotChunk hsl | slotHeader hsl | slotHeaderOnly hsl =>
    rw [hsl] at hp0
    cases hp0
  | slotNotSent => exact ⟨⟨.inr rfl, hm0, rfl⟩, rfl⟩
  | slotPacket | slotLastPacket =>
    exact ⟨⟨hst, hm0, rfl⟩, by simp [playback, WritePc.msg, chunkCalls, audioMsgs, headers]⟩

theorem run {s : Sys} {es : List Event} (h : Ended s) (hstart : ∀ e ∈ es, e ≠ .start) :
    Ended (s.run es) ∧ playback (s.run es) = playback s := by
  have hes := Machine.along_of_forall_mem Sys.step (s := s) hstart
  exact ⟨hes.invariant (fun s e hI he => (hI.step he (step_rule s e)).1) h,
    hes.const playback (fun s e hI he => hI.step he (step_rule s e)) h⟩

/-- A return that `endsStream` ends the stream. -/
theorem of_chunkReturn {s : Sys} {r : ChunkReturn} (hin : s.inCallback) (hr : s.endsStream r) :
    Ended (s.step (.chunkReturn r)) ∧ playback (s.step (.chunkReturn r)) = playback s := by
  obtain ⟨dev, main, slot, log⟩ := s
  obtain ⟨hend, hpc⟩ : r.atEnd = true ∧ _ := by simpa [endsStream] using hr
  have hret := dev.chunkReturned_end (ChunkReturn.atEnd_eq_true.1 hend)
  simp only [Sys.step, chunkReturn, hret]
  cases main with
  | chunkCallback n =>
    cases n with
    | first => cases hpc
    | second =>
      have hp : slot.headerPending = false := by simpa using hpc
      exact ⟨⟨.inl rfl, rfl, hp⟩, rfl⟩
  | _ =>
    have hm := by simpa only [Bool.not_eq_true'] using hpc
    cases slot with
    | chunkCallback => exact ⟨⟨.inl rfl, hm, rfl⟩, rfl⟩
    | _ => cases hin

end Ended

/-- A zero count or a null buffer ends playback, if it comes from the second priming
call of `Start` or, with `Start` past its second header, from `Callback`. -/
theorem end_return_ends {sampleRate chunkSize : UInt32} {destination : SoundDestination}
    {es₁ es₂ : List Event} {r : ChunkReturn}
    (hin : ((ctor sampleRate chunkSize destination).run es₁).inCallback)
    (hend : ((ctor sampleRate chunkSize destination).run es₁).endsStream r)
    (hstart : ∀ e ∈ es₂, e ≠ .start) :
    PlaybackEnds ((ctor sampleRate chunkSize destination).run es₁) r
      ((ctor sampleRate chunkSize destination).run (es₁ ++ .chunkReturn r :: es₂)) := by
  rw [run_at]
  obtain ⟨hended, hplay⟩ := Ended.of_chunkReturn hin hend
  obtain ⟨hended', hplay'⟩ := hended.run hstart
  obtain ⟨hcalls, hheaders⟩ := Prod.ext_iff.1 (hplay'.trans hplay)
  exact ⟨hcalls, .inl hheaders, fun _ _ => by rcases hended'.state with h | h <;> simp [h]⟩

/-- The first call fills its chunk and the second one has no more. -/
theorem end_return_ends_second :
    PlaybackEnds ((ctor 44100 2 .auto).run (startUp ++ primeOne ⟨2, some fun _ => 0⟩)) ⟨0, none⟩
      ((ctor 44100 2 .auto).run (startUp ++ primeOne ⟨2, some fun _ => 0⟩ ++
        .chunkReturn ⟨0, none⟩ ::
          (mainCalls 1 ++ handled (.complete 4 writeCookie1 writeCookie2)))) :=
  end_return_ends (by decide +kernel) (by decide +kernel) (by simp [mainCalls, handled])

/-- One word of two is returned, and the callback is called again at once. -/
theorem not_shortReturnEnds : ¬ (ctor 44100 2 .auto).ShortReturnEnds := by
  intro h
  have := (h startUp ⟨1, some fun _ => 0⟩ (mainCalls 2) (by decide +kernel) (by decide)
    (by simp [mainCalls])).noCall
  revert this
  decide +kernel

end Sys
end Sound
