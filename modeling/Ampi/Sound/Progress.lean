-- SUMMARY: Whether a running or cancelled device always has a WRITE outstanding, and the steps after which it does.
import Ampi.Sound.Outstanding

/-!
# Progress

In `Running` and `Cancelled` the only thing that moves the device on is a
`COMPLETE`. A session without an outstanding `WRITE` gets none: playback stays
silent, and `Cancel` waits for ever.
-/

namespace Sound

/-- `Start` has not queued its first header, or it will fail. -/
def MainPc.beforeFirstHeader : MainPc → Bool
  | .startUse | .peerVersion | .chunkCallback .first | .write .first (.header _ _)
  | .startRelease true => true
  | _ => false

theorem MainMove.beforeFirstHeader {m m' : MainPc} (h : MainMove m m')
    (hm : m.beforeFirstHeader = true) : m'.beforeFirstHeader = true := by
  cases h with
  | wait h | configured h | controlled h | controlSet h => cases h <;> cases hm
  | _ => first | rfl | cases hm

theorem SlotMove.headerPending {pc pc' : SlotPc} (h : SlotMove pc pc') :
    pc.headerPending = false := by
  cases h <;> rfl

theorem MainPc.not_beforeFirstHeader {pc : MainPc} (h : pc.inStart = false) :
    pc.beforeFirstHeader = false := by
  cases pc <;> simp_all [MainPc.inStart, MainPc.beforeFirstHeader]

/-- A `WRITE` of the current session is among `q`. -/
def VideoCore.owes (v : VideoCore) (q : List Outstanding) : Bool :=
  q.any fun o => o.session = v.session

namespace Sys

/-- A `WRITE` of the current session has not been completed. -/
def sessionLive (s : Sys) : Bool := (videoCore s.log).owes s.queue

/-- `Start` is not running, and neither is `Callback`. -/
def betweenCalls (s : Sys) : Bool :=
  !s.main.inStart &&
    match s.slot with
    | .idle => true
    | _ => false

/-- Between calls a device that is `Running` or `Cancelled` has a `COMPLETE` to come. -/
def NeverStalls (s : Sys) : Prop :=
  ∀ es, Machine.Along step (vcAnswers · ·) s es → (s.run es).betweenCalls →
    (s.run es).dev.state = .running ∨ (s.run es).dev.state = .cancelled → (s.run es).sessionLive

/-- `Callback` handles the `COMPLETE` of the session's last outstanding `WRITE`. -/
def completesLast (s : Sys) : Event → Bool
  | .slotReturn nResult =>
    match s.slot with
    | .dequeue (.complete _ _ _) =>
      nResult = 0 ∧ !s.main.inCallback ∧ s.sessionLive ∧
        !(videoCore s.log).owes s.queue.tail
    | _ => false
  | _ => false

/-- `Start` primes with a registered callback, and the `COMPLETE` of the session's
last outstanding `WRITE` passes the refill test, in `Running` with a registered
callback. -/
def progressSafe (s : Sys) (e : Event) : Bool :=
  s.dev.state = .running ∨ s.dev.state = .cancelled →
    (s.resetsPositions e → s.dev.chunkCallback) ∧
      (s.completesLast e → s.refillTest e ∧ (s.dev.state = .running → s.dev.chunkCallback))

/-- In `Running` and `Cancelled` there is a `COMPLETE` to come, or a header that
is still to be queued. -/
def Progressing (s : Sys) : Prop :=
  s.dev.state = .running ∨ s.dev.state = .cancelled →
    s.main.beforeFirstHeader ∨ s.sessionLive ∨ s.slot.headerPending

namespace Progressing

/-- A step that leaves VideoCore's queue alone. -/
theorem keep {s s' : Sys} (h : Progressing s) (hv : videoCore s'.log = videoCore s.log)
    (hst : s'.dev.state = .running ∨ s'.dev.state = .cancelled →
      s.dev.state = .running ∨ s.dev.state = .cancelled)
    (hm : s.main.beforeFirstHeader → s'.main.beforeFirstHeader)
    (hp : s.slot.headerPending → s'.slot.headerPending) : Progressing s' := by
  intro hs'
  have hl : s'.sessionLive = s.sessionLive := by simp only [sessionLive, queue, hv]
  rw [hl]
  exact (h (hst hs')).imp hm (Or.imp_right hp)

/-- A header has been queued for the current session. -/
theorem of_header {s s' : Sys} {c : Ctx} {n : UInt32} {b : Buffer}
    (hv : videoCore s'.log = videoCore (s.log ++ [.queued c (WritePc.msg (.header n b))])) :
    Progressing s' := by
  intro _
  refine .inr (.inl ?_)
  simp [sessionLive, queue, hv, VideoCore.owes, VideoCore.next, WritePc.msg]

/-- A `COMPLETE` has been handled that is not for the session's last `WRITE`. -/
theorem of_complete {s s' : Sys} (h : Progressing s) {count k1 k2 : UInt32}
    (hslot : s.slot = .dequeue (.complete count k1 k2)) (hmain : s'.main = s.main)
    (hv : videoCore s'.log = { videoCore s.log with queue := s.queue.tail })
    (hc : s.main.inCallback = false)
    (hst : s.dev.state = .running ∨ s.dev.state = .cancelled)
    (hlast : s.completesLast (.slotReturn 0) = false) : Progressing s' := by
  intro _
  have hpc : s.slot.headerPending = false := by rw [hslot]; rfl
  have hlive : s'.sessionLive = (videoCore s.log).owes s.queue.tail := by
    simp [sessionLive, queue, hv, VideoCore.owes]
  rw [hmain, hlive]
  rcases h hst with h | h | h
  · exact .inl h
  · exact .inr (.inl (by simpa [completesLast, hslot, hc, h] using hlast))
  · simp [hpc] at h

theorem step {s s' : Sys} {e : Event} (h : Progressing s) (hok : s.progressSafe e)
    (hs : Step s e s') : Progressing s' := by
  have hok' : ∀ {r : Int}, e = .slotReturn r → s.completesLast e →
      s.dev.state = .running ∨ s.dev.state = .cancelled →
        s.refillTest e ∧ (s.dev.state = .running → s.dev.chunkCallback) := by
    intro r _ hlast hst
    simp only [progressSafe, decide_eq_true_eq] at hok
    exact (hok hst).2 hlast
  have quiet : ∀ os, (∀ v, os.foldl VideoCore.next v = v) →
      videoCore (s.log ++ os) = videoCore s.log := by
    intro os hos
    rw [videoCore_append, hos]
  cases hs with
  | stay => exact h
  | setChunkCallback => exact h
  | mainMove _ hm _ hl => exact h.keep (videoCore_quiet hl) id hm.beforeFirstHeader id
  | slotMove _ hm _ hl =>
    exact h.keep (videoCore_quiet hl) id id fun hp => by simp [hm.headerPending] at hp
  | setControl hm | cancelResumed hm =>
    exact h.keep rfl id (by simp [hm, MainPc.beforeFirstHeader]) id
  | startRefused hm | queued hm =>
    exact h.keep (quiet _ fun _ => rfl) id (by simp [hm, MainPc.beforeFirstHeader]) id
  | cancelled hm hst =>
    exact h.keep rfl (fun _ => .inl hst) (by simp [hm, MainPc.beforeFirstHeader]) id
  -- the device is not in a session
  | startCreated _ hst | startIdle _ hst => exact fun hs' => by simp [hst] at hs'
  | startFails | opened | mainEnd | stopped | slotError | badCookie | terminating | slotEnd
  | slotNotSent => exact fun hs' => by simp at hs'
  | completeIgnored _ _ hst =>
    exact fun hs' => by rcases hst with hst | hst <;> simp [hst] at hs'
  -- `Start` up to its first header
  | running | reset | mainNotSent => exact fun _ => .inl rfl
  | resetSilent hm hc hcb hv =>
    intro hs'
    simp only [progressSafe, decide_eq_true_eq] at hok
    have := (hok hs').1 (by simp [resetsPositions, hm, hc, hv])
    simp [hcb] at this
  | @mainChunk n _ _ hm =>
    exact h.keep rfl id (by cases n <;> simp [hm, MainPc.beforeFirstHeader]) id
  -- a header is queued
  | mainHeader => exact of_header rfl
  | @mainHeaderOnly n b => exact of_header (s := s) (c := .main) (n := 0) (b := b) (by simp)
  | slotHeader | slotHeaderOnly => exact of_header rfl
  -- packets
  | @mainPacket n _ _ _ hm =>
    exact h.keep (quiet _ fun _ => rfl) id (by cases n <;> simp [hm, MainPc.beforeFirstHeader]) id
  | @mainLastPacket n _ _ _ hm =>
    exact h.keep (by simp [WritePc.msg, VideoCore.next]) id
      (by cases n <;> simp [hm, MainPc.beforeFirstHeader]) id
  | slotPacket hm | slotLastPacket hm =>
    exact h.keep (quiet _ fun _ => rfl) id id (by simp [hm, SlotPc.headerPending])
  -- `Callback`
  | result hm | other hm =>
    exact h.keep (quiet _ fun _ => rfl) id id (by simp [hm, SlotPc.headerPending])
  | slotChunk hm => exact h.keep rfl id id fun _ => rfl
  | refill => exact fun _ => .inr (.inr rfl)
  | completed hm hc _ _ hr =>
    have htest : s.refillTest (.slotReturn 0) = false := by simp [refillTest, hm, hr]
    intro hs'
    refine h.of_complete hm rfl (by simp [VideoCore.next, queue]) hc hs' ?_ hs'
    by_contra hl
    have := (hok' rfl (by simpa using hl) hs').1
    simp [htest] at this
  | refillSilent hm hc hst _ _ hcb =>
    intro hs'
    refine h.of_complete hm rfl (by simp [VideoCore.next, queue]) hc hs' ?_ hs'
    by_contra hl
    have hrun : s.dev.state = .running := hs'.resolve_right hst.2.2
    have := (hok' rfl (by simpa using hl) hs').2 hrun
    simp [hcb] at this

end Progressing

theorem of_betweenCalls {s : Sys} (h : s.betweenCalls) :
    s.main.beforeFirstHeader = false ∧ s.slot.headerPending = false := by
  obtain ⟨dev, main, slot, log⟩ := s
  obtain ⟨hm, hs⟩ : main.inStart = false ∧ _ := by simpa [betweenCalls] using h
  refine ⟨MainPc.not_beforeFirstHeader hm, ?_⟩
  cases slot <;> first | rfl | cases hs

/-- A device whose steps are all `progressSafe` never stalls. -/
theorem never_stalls {sampleRate chunkSize : UInt32} {destination : SoundDestination}
    {es : List Event}
    (hok : Machine.Along step (progressSafe · ·) (ctor sampleRate chunkSize destination) es)
    (hcalls : ((ctor sampleRate chunkSize destination).run es).betweenCalls)
    (hst : ((ctor sampleRate chunkSize destination).run es).dev.state = .running ∨
      ((ctor sampleRate chunkSize destination).run es).dev.state = .cancelled) :
    ((ctor sampleRate chunkSize destination).run es).sessionLive := by
  have h := hok.invariant (I := Progressing) (fun s e h hse => h.step hse (step_rule s e))
    (fun hs => by simp [ctor] at hs)
  obtain ⟨hm, hs⟩ := of_betweenCalls hcalls
  rcases h hst with h | h | h
  · exact absurd h (by simp [hm])
  · exact h
  · exact absurd h (by simp [hs])

/-- A chunk is refilled, and `Cancel` waits with two of them outstanding. -/
theorem never_stalls_cancelled :
    ((ctor 44100 1 .auto).run (twoChunksQueued ++ refilled ++ [.cancel])).sessionLive :=
  never_stalls (by decide +kernel) (by decide +kernel) (by decide +kernel)

/-- `Start` succeeds without a callback: nothing is queued, and nothing will come. -/
theorem not_neverStalls : ¬ (ctor 44100 1 .auto).NeverStalls := by
  intro h
  have := h (.setChunkCallback false :: startUp.tail ++ mainCalls 1) (by decide +kernel)
    (by decide +kernel) (by decide +kernel)
  revert this
  decide +kernel

end Sys
end Sound
