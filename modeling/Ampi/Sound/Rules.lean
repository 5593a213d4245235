-- SUMMARY: One rule for each segment of the sound device's code, and the inversion of the step function into them.
import Ampi.Sound.Device
import Mathlib.Tactic.Common
import Mathlib.Tactic.Tauto

/-!
# What one step does

`Sys.step` runs one segment of code. The rules below list the segments with the
condition under which each is taken; `Sys.step_rule` splits the function into
them once, so that an invariant is proved rule by rule.

Segments that neither queue a message nor touch the state, the positions or the
registered callback are grouped in `MainMove` and `SlotMove`.
-/

namespace Sound

/-! ## Fields of an updated system -/

namespace Sys

@[simp] theorem setState_dev (s : Sys) (st : SoundState) :
    (s.setState st).dev = { s.dev with state := st } := rfl

@[simp] theorem toMain_dev (s : Sys) (pc : MainPc) : (s.toMain pc).dev = s.dev := rfl

end Sys

/-! ## Quiet moves -/

/-- Observations other than chunk callbacks, audio messages and resets. -/
def Obs.quiet : Obs → Bool
  | .serviceOpened | .serviceUse _ | .serviceRelease _ | .returned _ => true
  | _ => false

/-- The log grows by quiet observations. -/
inductive QuietLog (log : List Obs) : List Obs → Prop where
  | refl : QuietLog log log
  | snoc {log' : List Obs} {o : Obs} (h : QuietLog log log') (ho : o.quiet) :
      QuietLog log (log' ++ [o])

/-- A view of the log that ignores quiet observations ignores a quiet extension. -/
theorem QuietLog.view {β : Type*} {f : List Obs → β} {log log' : List Obs}
    (h : QuietLog log log') (hf : ∀ l o, o.quiet → f (l ++ [o]) = f l) : f log' = f log := by
  induction h with
  | refl => rfl
  | snoc _ ho ih => rw [hf _ _ ho, ih]

/-- Inside `CallMessage` for `p`, past its `vchi_msg_queue`. -/
inductive CallPending (p : Purpose) : MainPc → Prop where
  | release (m : Request) (r : Int) : CallPending p (.queueMessage p m (.release r))
  | wait : CallPending p (.waitEvent p)

/-- Moves of the main thread inside a call that queue nothing and leave the
device's state and positions alone. -/
inductive MainMove : MainPc → MainPc → Prop where
  | cancelRefused : MainMove .idle .idle
  | initialised : MainMove .initialise .connect
  | connected : MainMove .connect .serviceOpen
  | serviceOpened : MainMove .serviceOpen .openRelease
  | config (m : Request) : MainMove .openRelease (.queueMessage .config m .use)
  | used (p : Purpose) (m : Request) :
      MainMove (.queueMessage p m .use) (.queueMessage p m .queue)
  | notQueued (p : Purpose) (m : Request) (r : Int) (hr : r ≠ 0) :
      MainMove (.queueMessage p m .queue) (.queueMessage p m (.release r))
  | wait {p : Purpose} {pc : MainPc} (h : CallPending p pc)
      (hp : p = .config ∨ p = .control ∨ p = .setControl) : MainMove pc (.waitEvent p)
  | configured {pc : MainPc} (h : CallPending .config pc) (m : Request) :
      MainMove pc (.queueMessage .control m .use)
  | controlled {pc : MainPc} (h : CallPending .control pc) :
      MainMove pc (.queueMessage .openAudio .openAudio .use)
  | controlSet {pc : MainPc} (h : CallPending .setControl pc) : MainMove pc .idle
  | startUsed : MainMove .startUse .peerVersion
  | badVersion : MainMove .peerVersion (.startRelease true)
  | started : MainMove (.startRelease false) .idle
  | stop (m : Request) : MainMove .cancelUse (.queueMessage .stop m .use)
  | notStopped (m : Request) (r : Int) : MainMove (.queueMessage .stop m (.release r)) .idle
  | stopped (m : Request) : MainMove (.queueMessage .stop m (.release 0)) .cancelRelease

/-- Moves of the slot handler that queue nothing and leave the device alone. -/
inductive SlotMove : SlotPc → SlotPc → Prop where
  | deliver (m : VcMsg) : SlotMove .idle (.use m)
  | used (m : VcMsg) : SlotMove (.use m) (.dequeue m)
  | notDequeued (m : VcMsg) : SlotMove (.dequeue m) .errorRelease
  | done : SlotMove .release .idle

/-- The calls of `Start`: the main thread is between its entry and its return. -/
def MainPc.inStart : MainPc → Bool
  | .initialise | .connect | .serviceOpen | .openRelease | .startUse | .peerVersion
  | .chunkCallback _ | .write _ _ | .startRelease _ => true
  | .queueMessage p _ _ | .waitEvent p => p = .config ∨ p = .control ∨ p = .openAudio ∨ p = .start
  | .idle | .cancelWait | .cancelUse | .cancelRelease => false

/-- The main thread is inside `WriteChunk`. -/
def MainPc.inWriteChunk : MainPc → Bool
  | .chunkCallback _ | .write _ _ => true
  | _ => false

/-- Only a call of `Start` enters `Start`. -/
theorem MainMove.inStart {m m' : MainPc} (h : MainMove m m') (hm : m.inStart = false) :
    m'.inStart = false := by
  cases h with
  | wait h | configured h | controlled h => cases h <;> simp_all [MainPc.inStart]
  | _ => simp_all [MainPc.inStart]

namespace Sys

/-! ## The rules -/

/-- Where the main thread goes when a priming call of `WriteChunk` returns 0. -/
def primed (d : Device) : Priming → MainPc
  | .first => if d.chunkCallback then .chunkCallback .second else .startRelease false
  | .second => .startRelease false

/-- What is seen when a priming call of `WriteChunk` returns 0. -/
def primedObs (d : Device) : Priming → List Obs
  | .first => if d.chunkCallback then [.chunkCallback .main] else []
  | .second => []

inductive Step (s : Sys) : Event → Sys → Prop where
  | stay (e : Event) : Step s e s
  | setChunkCallback (b : Bool) :
      Step s (.setChunkCallback b) { s with dev := { s.dev with chunkCallback := b } }
  | mainMove {e : Event} {pc : MainPc} {event : Bool} {result : Int} {log : List Obs}
      (he : e ≠ .start) (hm : MainMove s.main pc) (hc : s.slot.inCallback = false)
      (hl : QuietLog s.log log) :
      Step s e { s with dev := { s.dev with event, result }, main := pc, log }
  | slotMove {e : Event} {pc : SlotPc} {log : List Obs} (he : e ≠ .start)
      (hm : SlotMove s.slot pc) (hc : s.main.inCallback = false) (hl : QuietLog s.log log) :
      Step s e { s with slot := pc, log }
  -- `SetControl`
  | setControl {v : Int} {d : SoundDestination} {m : Request} {destination : SoundDestination}
      (hm : s.main = .idle) (hc : s.slot.inCallback = false) :
      Step s (.setControl v d) { s with
        dev := { s.dev with destination, event := false }
        main := .queueMessage .setControl m .use }
  -- `Start`
  | startRefused (hm : s.main = .idle) :
      Step s .start { s with main := .idle, log := s.log ++ [.returned false] }
  | startCreated (hm : s.main = .idle) (hs : s.dev.state = .created)
      (hc : s.slot.inCallback = false) : Step s .start { s with main := .initialise }
  | startIdle (hm : s.main = .idle) (hs : s.dev.state = .idle) (hc : s.slot.inCallback = false) :
      Step s .start { s with main := .queueMessage .start .start .use }
  | startFails {e : Event} {event : Bool} {result : Int} {log : List Obs} (he : e ≠ .start)
      (hm : s.main.inStart) (hw : s.main.inWriteChunk = false) (hc : s.slot.inCallback = false)
      (hl : QuietLog s.log log) :
      Step s e { s with
        dev := { s.dev with event, result, state := .error }, main := .idle, log }
  | opened {r : Int} {m : Request} (hm : s.main = .queueMessage .openAudio m (.release 0))
      (hc : s.slot.inCallback = false) :
      Step s (.mainReturn r) { s with
        dev := { s.dev with state := .idle }, main := .queueMessage .start .start .use,
        log := s.log ++ [.serviceRelease .main] }
  | running {r : Int} {m : Request} (hm : s.main = .queueMessage .start m (.release 0))
      (hc : s.slot.inCallback = false) :
      Step s (.mainReturn r) { s with
        dev := { s.dev with state := .running }, main := .startUse,
        log := s.log ++ [.serviceRelease .main] }
  | reset {v : Int} (hm : s.main = .peerVersion) (hc : s.slot.inCallback = false)
      (hcb : s.dev.chunkCallback) (hv : 2 ≤ v) :
      Step s (.peerVersion 0 v) { s with
        dev := { s.dev with writePos := 0, completePos := 0 }, main := .chunkCallback .first,
        log := s.log ++ [.positionsReset, .chunkCallback .main] }
  | resetSilent {v : Int} (hm : s.main = .peerVersion) (hc : s.slot.inCallback = false)
      (hcb : s.dev.chunkCallback = false) (hv : 2 ≤ v) :
      Step s (.peerVersion 0 v) { s with
        dev := { s.dev with writePos := 0, completePos := 0 }, main := .startRelease false,
        log := s.log ++ [.positionsReset] }
  -- `WriteChunk` on the main thread
  | mainEnd {n : Priming} {r : ChunkReturn} (hm : s.main = .chunkCallback n)
      (hr : r.nWords = 0 ∨ r.buffer = none) :
      Step s (.chunkReturn r) { s with
        dev := { s.dev with state := .idle }, main := primed s.dev n,
        log := s.log ++ primedObs s.dev n }
  | mainChunk {n : Priming} {r : ChunkReturn} {b : Buffer} (hm : s.main = .chunkCallback n)
      (hr : r.nWords ≠ 0) (hb : r.buffer = some b) :
      Step s (.chunkReturn r) { s with main := .write n (.header (r.nWords * 2) b) }
  | mainNotSent {n : Priming} {w : WritePc} {r : Int} (hm : s.main = .write n w)
      (hc : s.slot.inCallback = false) (hr : r ≠ 0) :
      Step s (.mainReturn r) { s with main := .startRelease true }
  | mainHeader {n : Priming} {nBytes : UInt32} {b : Buffer}
      (hm : s.main = .write n (.header nBytes b)) (hc : s.slot.inCallback = false)
      (hn : nBytes ≠ 0) :
      Step s (.mainReturn 0) { s with
        dev := { s.dev with writePos := s.dev.writePos + nBytes },
        main := .write n (.data nBytes b 0),
        log := s.log ++ [.queued .main (WritePc.msg (.header nBytes b))] }
  | mainHeaderOnly {n : Priming} {b : Buffer} (hm : s.main = .write n (.header 0 b))
      (hc : s.slot.inCallback = false) :
      Step s (.mainReturn 0) { s with
        main := primed s.dev n,
        log := s.log ++ [.queued .main (WritePc.msg (.header 0 b))] ++ primedObs s.dev n }
  | mainPacket {n : Priming} {nBytes : UInt32} {b : Buffer} {off : Nat}
      (hm : s.main = .write n (.data nBytes b off)) (hc : s.slot.inCallback = false)
      (hn : nBytes - bytesToQueue nBytes ≠ 0) :
      Step s (.mainReturn 0) { s with
        main := .write n (.data (nBytes - bytesToQueue nBytes) b
          (off + (bytesToQueue nBytes).toNat)),
        log := s.log ++ [.queued .main (WritePc.msg (.data nBytes b off))] }
  | mainLastPacket {n : Priming} {nBytes : UInt32} {b : Buffer} {off : Nat}
      (hm : s.main = .write n (.data nBytes b off)) (hc : s.slot.inCallback = false)
      (hn : nBytes - bytesToQueue nBytes = 0) :
      Step s (.mainReturn 0) { s with
        main := primed s.dev n,
        log := s.log ++ [.queued .main (WritePc.msg (.data nBytes b off))] ++ primedObs s.dev n }
  -- `QueueMessage`
  | queued {p : Purpose} {m : Request} (hm : s.main = .queueMessage p m .queue)
      (hc : s.slot.inCallback = false) :
      Step s (.mainReturn 0) { s with
        main := .queueMessage p m (.release 0), log := s.log ++ [.queued .main (.request m)] }
  -- `Cancel`
  | cancelled (hm : s.main = .idle) (hs : s.dev.state = .running)
      (hc : s.slot.inCallback = false) :
      Step s .cancel { s with dev := { s.dev with state := .cancelled }, main := .cancelWait }
  | cancelResumed (hm : s.main = .cancelWait) (hs : s.dev.state ≠ .cancelled)
      (hc : s.slot.inCallback = false) : Step s .resume { s with main := .cancelUse }
  | stopped {r : Int} (hm : s.main = .cancelRelease) (hc : s.slot.inCallback = false) :
      Step s (.mainReturn r) { s with
        dev := { s.dev with state := .idle }, main := .idle,
        log := s.log ++ [.serviceRelease .main, .returned true] }
  -- `Callback`
  | slotError {r : Int} (hm : s.slot = .errorRelease) (hc : s.main.inCallback = false) :
      Step s (.slotReturn r) { s with
        dev := { s.dev with state := .error }, slot := .idle,
        log := s.log ++ [.serviceRelease .slotHandler] }
  | result {success : Int} (hm : s.slot = .dequeue (.result success))
      (hc : s.main.inCallback = false) :
      Step s (.slotReturn 0) { s with
        dev := { s.dev with result := success, event := true }, slot := .release,
        log := s.log ++ [.dequeued (.result success)] }
  | other {type : Int} (hm : s.slot = .dequeue (.other type)) (hc : s.main.inCallback = false) :
      Step s (.slotReturn 0) { s with
        slot := .release, log := s.log ++ [.dequeued (.other type)] }
  | completeIgnored {count k1 k2 : UInt32} (hm : s.slot = .dequeue (.complete count k1 k2))
      (hc : s.main.inCallback = false) (hs : s.dev.state = .idle ∨ s.dev.state = .error) :
      Step s (.slotReturn 0) { s with
        slot := .release, log := s.log ++ [.dequeued (.complete count k1 k2)] }
  | badCookie {count k1 k2 : UInt32} (hm : s.slot = .dequeue (.complete count k1 k2))
      (hc : s.main.inCallback = false) (hs : s.dev.state ≠ .idle ∧ s.dev.state ≠ .error)
      (hk : goodCookies k1 k2 = false) :
      Step s (.slotReturn 0) { s with
        dev := { s.dev with state := .error }, slot := .release,
        log := s.log ++ [.dequeued (.complete count k1 k2)] }
  | completed {count k1 k2 : UInt32} (hm : s.slot = .dequeue (.complete count k1 k2))
      (hc : s.main.inCallback = false) (hs : s.dev.state ≠ .idle ∧ s.dev.state ≠ .error)
      (hk : goodCookies k1 k2) (hr : (s.dev.completed count).refillDue = false) :
      Step s (.slotReturn 0) { s with
        dev := s.dev.completed count, slot := .release,
        log := s.log ++ [.dequeued (.complete count k1 k2)] }
  | terminating {count k1 k2 : UInt32} (hm : s.slot = .dequeue (.complete count k1 k2))
      (hc : s.main.inCallback = false) (hs : s.dev.state = .cancelled)
      (hk : goodCookies k1 k2) (hr : (s.dev.completed count).refillDue) :
      Step s (.slotReturn 0) { s with
        dev := { s.dev.completed count with state := .terminating }, slot := .release,
        log := s.log ++ [.dequeued (.complete count k1 k2)] }
  | refill {count k1 k2 : UInt32} (hm : s.slot = .dequeue (.complete count k1 k2))
      (hc : s.main.inCallback = false)
      (hs : s.dev.state ≠ .idle ∧ s.dev.state ≠ .error ∧ s.dev.state ≠ .cancelled)
      (hk : goodCookies k1 k2) (hr : (s.dev.completed count).refillDue)
      (hcb : s.dev.chunkCallback) :
      Step s (.slotReturn 0) { s with
        dev := s.dev.completed count, slot := .chunkCallback,
        log := s.log ++ [.dequeued (.complete count k1 k2), .chunkCallback .slotHandler] }
  | refillSilent {count k1 k2 : UInt32} (hm : s.slot = .dequeue (.complete count k1 k2))
      (hc : s.main.inCallback = false)
      (hs : s.dev.state ≠ .idle ∧ s.dev.state ≠ .error ∧ s.dev.state ≠ .cancelled)
      (hk : goodCookies k1 k2) (hr : (s.dev.completed count).refillDue)
      (hcb : s.dev.chunkCallback = false) :
      Step s (.slotReturn 0) { s with
        dev := s.dev.completed count, slot := .release,
        log := s.log ++ [.dequeued (.complete count k1 k2)] }
  -- `WriteChunk` on the slot handler
  | slotEnd {r : ChunkReturn} (hm : s.slot = .chunkCallback) (hw : s.main.inCallback = false)
      (hr : r.nWords = 0 ∨ r.buffer = none) :
      Step s (.chunkReturn r) { s with dev := { s.dev with state := .idle }, slot := .release }
  | slotChunk {r : ChunkReturn} {b : Buffer} (hm : s.slot = .chunkCallback)
      (hw : s.main.inCallback = false) (hr : r.nWords ≠ 0) (hb : r.buffer = some b) :
      Step s (.chunkReturn r) { s with slot := .write (.header (r.nWords * 2) b) }
  | slotNotSent {w : WritePc} {r : Int} (hm : s.slot = .write w)
      (hc : s.main.inCallback = false) (hr : r ≠ 0) :
      Step s (.slotReturn r) { s with dev := { s.dev with state := .error }, slot := .release }
  | slotHeader {nBytes : UInt32} {b : Buffer} (hm : s.slot = .write (.header nBytes b))
      (hc : s.main.inCallback = false) (hn : nBytes ≠ 0) :
      Step s (.slotReturn 0) { s with
        dev := { s.dev with writePos := s.dev.writePos + nBytes },
        slot := .write (.data nBytes b 0),
        log := s.log ++ [.queued .slotHandler (WritePc.msg (.header nBytes b))] }
  | slotHeaderOnly {b : Buffer} (hm : s.slot = .write (.header 0 b))
      (hc : s.main.inCallback = false) :
      Step s (.slotReturn 0) { s with
        slot := .release,
        log := s.log ++ [.queued .slotHandler (WritePc.msg (.header 0 b))] }
  | slotPacket {nBytes : UInt32} {b : Buffer} {off : Nat}
      (hm : s.slot = .write (.data nBytes b off)) (hc : s.main.inCallback = false)
      (hn : nBytes - bytesToQueue nBytes ≠ 0) :
      Step s (.slotReturn 0) { s with
        slot := .write (.data (nBytes - bytesToQueue nBytes) b
          (off + (bytesToQueue nBytes).toNat)),
        log := s.log ++ [.queued .slotHandler (WritePc.msg (.data nBytes b off))] }
  | slotLastPacket {nBytes : UInt32} {b : Buffer} {off : Nat}
      (hm : s.slot = .write (.data nBytes b off)) (hc : s.main.inCallback = false)
      (hn : nBytes - bytesToQueue nBytes = 0) :
      Step s (.slotReturn 0) { s with
        slot := .release,
        log := s.log ++ [.queued .slotHandler (WritePc.msg (.data nBytes b off))] }

end Sys

/-! ## Inversion of the step function -/

/-- `WriteChunk` takes a zero count or a null buffer for the end of the stream. -/
theorem Device.chunkReturned_end (d : Device) {r : ChunkReturn}
    (hr : r.nWords = 0 ∨ r.buffer = none) :
    d.chunkReturned r = ({ d with state := .idle }, .ret 0) := by
  unfold Device.chunkReturned
  rcases hr with hr | hr
  · cases r.buffer <;> simp [hr]
  · simp [hr]

namespace Sys

/-- `CallMessage` for `p` returns to its caller. -/
theorem callReturned_rule {dev : Device} {main : MainPc} {slot : SlotPc} {log log' : List Obs}
    {e : Event} {p : Purpose} {event : Bool} {result nResult : Int}
    (he : e ≠ .start) (hp : p = .config ∨ p = .control ∨ p = .setControl)
    (hm : CallPending p main) (hc : slot.inCallback = false) (hl : QuietLog log log') :
    Step ⟨dev, main, slot, log⟩ e
      (callReturned ⟨{ dev with event, result }, main, slot, log'⟩ p nResult) := by
  have hstart : p ≠ .setControl → main.inStart := by
    intro hne
    cases hm <;> cases p <;> simp_all [MainPc.inStart]
  have hw : main.inWriteChunk = false := by cases hm <;> rfl
  obtain rfl | rfl | rfl := hp
  · unfold callReturned
    dsimp only
    split
    · exact .startFails he (hstart (by simp)) hw hc (.snoc hl rfl)
    · exact .mainMove he (.configured hm _) hc hl
  · unfold callReturned
    dsimp only
    split
    · exact .startFails he (hstart (by simp)) hw hc (.snoc hl rfl)
    · exact .mainMove he (.controlled hm) hc hl
  · exact .mainMove he (.controlSet hm) hc hl

/-- The loop of `CallMessage` tests `m_Event`. -/
theorem eventLoop_rule {dev : Device} {main : MainPc} {slot : SlotPc} {log log' : List Obs}
    {e : Event} {p : Purpose} (he : e ≠ .start)
    (hp : p = .config ∨ p = .control ∨ p = .setControl) (hm : CallPending p main)
    (hc : slot.inCallback = false) (hl : QuietLog log log') :
    Step ⟨dev, main, slot, log⟩ e (eventLoop ⟨dev, main, slot, log'⟩ p) := by
  unfold eventLoop
  dsimp only
  split
  · exact callReturned_rule he hp hm hc hl
  · exact .mainMove he (.wait hm hp) hc hl

/-- `QueueMessage` returns to its caller. -/
theorem queueReturned_rule {dev : Device} {slot : SlotPc} {log : List Obs} {p : Purpose}
    {m : Request} {r nResult : Int} (hc : slot.inCallback = false) :
    Step ⟨dev, .queueMessage p m (.release r), slot, log⟩ (.mainReturn nResult)
      (queueReturned ⟨dev, .queueMessage p m (.release r), slot, log ++ [.serviceRelease .main]⟩
        p r) := by
  have hl : QuietLog log (log ++ [.serviceRelease .main]) := .snoc .refl rfl
  have call : ∀ p, p = .config ∨ p = .control ∨ p = .setControl →
      Step ⟨dev, .queueMessage p m (.release r), slot, log⟩ (.mainReturn nResult)
        (if r = 0 then
          eventLoop ⟨dev, .queueMessage p m (.release r), slot, log ++ [.serviceRelease .main]⟩ p
        else callReturned ⟨{ dev with result := r }, .queueMessage p m (.release r), slot,
          log ++ [.serviceRelease .main]⟩ p r) := by
    intro p hp
    split
    · exact eventLoop_rule (by simp) hp (.release m r) hc hl
    · exact callReturned_rule (by simp) hp (.release m r) hc hl
  unfold queueReturned
  cases p with
  | config => exact call .config (by simp)
  | control => exact call .control (by simp)
  | setControl => exact call .setControl (by simp)
  | openAudio =>
    dsimp only
    split
    · exact .startFails (by simp) rfl rfl hc (.snoc hl rfl)
    next hr =>
      obtain rfl : r = 0 := by simpa using hr
      exact .opened rfl hc
  | start =>
    dsimp only
    split
    · exact .startFails (by simp) rfl rfl hc (.snoc hl rfl)
    next hr =>
      obtain rfl : r = 0 := by simpa using hr
      exact .running rfl hc
  | stop =>
    dsimp only
    split
    · exact .mainMove (by simp) (.notStopped m r) hc (.snoc hl rfl)
    next hr =>
      obtain rfl : r = 0 := by simpa using hr
      exact .mainMove (by simp) (.stopped m) hc hl

/-- A priming call of `WriteChunk` returns 0. -/
theorem primingChunk_ret (s : Sys) (n : Priming) :
    s.primingChunk n (.ret 0) =
      { s with main := primed s.dev n, log := s.log ++ primedObs s.dev n } := by
  cases n with
  | first =>
    cases h : s.dev.chunkCallback <;>
      simp [primingChunk, firstChunk, secondChunk, Device.writeChunk, primed, primedObs, h, toMain,
        emit]
  | second => simp [primingChunk, secondChunk, primed, primedObs, toMain]

/-- A priming call of `WriteChunk` returns an error. -/
theorem primingChunk_error (s : Sys) (n : Priming) {r : Int} (hr : r ≠ 0) :
    s.primingChunk n (.ret r) = { s with main := .startRelease true } := by
  cases n <;> simp [primingChunk, firstChunk, secondChunk, hr, toMain]

/-- A priming call of `WriteChunk` is about to queue its next message. -/
theorem primingChunk_send (s : Sys) (n : Priming) (w : WritePc) :
    s.primingChunk n (.send w) = { s with main := .write n w } := by
  cases n <;> rfl

/-- A send of `WriteChunk` returns on the main thread. -/
theorem mainWrite_rule {dev : Device} {slot : SlotPc} {log : List Obs} {n : Priming}
    {w : WritePc} {r : Int} (hc : slot.inCallback = false) :
    Step ⟨dev, .write n w, slot, log⟩ (.mainReturn r)
      (mainReturn ⟨dev, .write n w, slot, log⟩ r) := by
  unfold mainReturn
  dsimp only [Device.sendReturned]
  by_cases hr : r = 0
  · subst hr
    cases w with
    | header nBytes b =>
      by_cases hn : nBytes = 0
      · subst hn
        have h : Step ⟨dev, .write n (.header 0 b), slot, log⟩ _ _ := .mainHeaderOnly rfl hc
        simpa [packetLoop, primingChunk_ret, emit] using h
      · have h : Step ⟨dev, .write n (.header nBytes b), slot, log⟩ _ _ := .mainHeader rfl hc hn
        simpa [packetLoop, hn, primingChunk_send, emit] using h
    | data nBytes b off =>
      by_cases hn : nBytes - bytesToQueue nBytes = 0
      · have h : Step ⟨dev, .write n (.data nBytes b off), slot, log⟩ _ _ :=
          .mainLastPacket rfl hc hn
        simpa [packetLoop, hn, primingChunk_ret, emit] using h
      · have h : Step ⟨dev, .write n (.data nBytes b off), slot, log⟩ _ _ :=
          .mainPacket rfl hc hn
        simpa [packetLoop, hn, primingChunk_send, emit] using h
  · have h : Step ⟨dev, .write n w, slot, log⟩ _ _ := .mainNotSent rfl hc hr
    simpa [hr, primingChunk_error] using h

theorem mainReturn_rule (s : Sys) (r : Int) (hc : s.slot.inCallback = false) :
    Step s (.mainReturn r) (s.mainReturn r) := by
  obtain ⟨dev, main, slot, log⟩ := s
  have fails : ∀ pc : MainPc, pc.inStart → pc.inWriteChunk = false →
      Step ⟨dev, pc, slot, log⟩ (.mainReturn r) (startFails ⟨dev, pc, slot, log⟩) :=
    fun pc hpc hw => .startFails (by simp) hpc hw hc (.snoc .refl rfl)
  cases main with
  | idle => exact .stay _
  | initialise =>
    unfold mainReturn
    dsimp only
    split
    · exact fails _ rfl rfl
    · exact .mainMove (by simp) .initialised hc .refl
  | connect =>
    unfold mainReturn
    dsimp only
    split
    · exact fails _ rfl rfl
    · exact .mainMove (by simp) .connected hc .refl
  | serviceOpen =>
    unfold mainReturn
    dsimp only
    split
    · exact fails _ rfl rfl
    · exact .mainMove (by simp) .serviceOpened hc (.snoc .refl rfl)
  | openRelease => exact .mainMove (by simp) (.config _) hc (.snoc .refl rfl)
  | queueMessage p m q =>
    cases q with
    | use => exact .mainMove (by simp) (.used p m) hc (.snoc .refl rfl)
    | queue =>
      unfold mainReturn
      dsimp only
      split
      next hr =>
        subst hr
        exact .queued rfl hc
      next hr => exact .mainMove (by simp) (.notQueued p m r hr) hc .refl
    | release nResult => exact queueReturned_rule hc
  | waitEvent p => exact .stay _
  | startUse => exact .mainMove (by simp) .startUsed hc (.snoc .refl rfl)
  | peerVersion => exact .stay _
  | chunkCallback n => exact .stay _
  | write n w => exact mainWrite_rule hc
  | startRelease failed =>
    cases failed with
    | true => exact .startFails (by simp) rfl rfl hc (.snoc (.snoc .refl rfl) rfl)
    | false => exact .mainMove (by simp) .started hc (.snoc (.snoc .refl rfl) rfl)
  | cancelWait => exact .stay _
  | cancelUse => exact .mainMove (by simp) (.stop _) hc (.snoc .refl rfl)
  | cancelRelease =>
    have h : Step ⟨dev, .cancelRelease, slot, log⟩ (.mainReturn r) _ := .stopped rfl hc
    simpa [mainReturn, emit, setState, mainReturns, toMain] using h

theorem resume_rule (s : Sys) (hc : s.slot.inCallback = false) : Step s .resume s.resume := by
  obtain ⟨dev, main, slot, log⟩ := s
  cases main with
  | waitEvent p =>
    by_cases hp : p = .config ∨ p = .control ∨ p = .setControl
    · exact eventLoop_rule (by simp) hp .wait hc .refl
    · unfold resume eventLoop
      dsimp only
      split
      · cases p <;> simp_all [callReturned] <;> exact .stay _
      · exact .stay _
  | cancelWait =>
    unfold resume
    dsimp only
    split
    · exact .stay _
    next hs => exact .cancelResumed rfl hs hc
  | _ => exact .stay _

theorem versionReturned_rule {dev : Device} {slot : SlotPc} {log : List Obs} (r v : Int)
    (hc : slot.inCallback = false) :
    Step ⟨dev, .peerVersion, slot, log⟩ (.peerVersion r v)
      (versionReturned ⟨dev, .peerVersion, slot, log⟩ r v) := by
  unfold versionReturned
  split
  · exact .mainMove (by simp) .badVersion hc .refl
  next hr =>
    obtain ⟨rfl, hv⟩ : r = 0 ∧ 2 ≤ v := by omega
    cases hcb : dev.chunkCallback with
    | true =>
      have h : Step ⟨dev, .peerVersion, slot, log⟩ (.peerVersion 0 v) _ := .reset rfl hc hcb hv
      simpa [emit, firstChunk, Device.writeChunk, hcb, toMain] using h
    | false =>
      have h : Step ⟨dev, .peerVersion, slot, log⟩ (.peerVersion 0 v) _ :=
        .resetSilent rfl hc hcb hv
      simpa [emit, firstChunk, secondChunk, Device.writeChunk, hcb, toMain] using h

/-- `Callback` handles the `COMPLETE` it has dequeued. -/
theorem complete_rule {dev : Device} {main : MainPc} {log : List Obs} (count k1 k2 : UInt32)
    (hc : main.inCallback = false) :
    Step ⟨dev, main, .dequeue (.complete count k1 k2), log⟩ (.slotReturn 0)
      (complete ⟨dev, main, .dequeue (.complete count k1 k2),
        log ++ [.dequeued (.complete count k1 k2)]⟩ count k1 k2) := by
  unfold complete
  dsimp only
  split
  next hs => exact .completeIgnored rfl hc hs
  next hs =>
    have hs : dev.state ≠ .idle ∧ dev.state ≠ .error := by simpa [not_or] using hs
    split
    next hk => exact .badCookie rfl hc hs (by simpa using hk)
    next hk =>
      have hk : goodCookies k1 k2 := by simpa using hk
      split
      next hr =>
        split
        next hcan => exact .terminating rfl hc hcan hk hr
        next hcan =>
          have hs : dev.state ≠ .idle ∧ dev.state ≠ .error ∧ dev.state ≠ .cancelled :=
            ⟨hs.1, hs.2, hcan⟩
          cases hcb : dev.chunkCallback with
          | true =>
            have h : Step ⟨dev, main, .dequeue (.complete count k1 k2), log⟩ (.slotReturn 0) _ :=
              .refill rfl hc hs hk hr hcb
            simpa [callbackChunk, Device.writeChunk, Device.completed, hcb, toSlot, emit] using h
          | false =>
            have h : Step ⟨dev, main, .dequeue (.complete count k1 k2), log⟩ (.slotReturn 0) _ :=
              .refillSilent rfl hc hs hk hr hcb
            simpa [callbackChunk, Device.writeChunk, Device.completed, hcb, toSlot, emit] using h
      next hr => exact .completed rfl hc hs hk (by simpa using hr)

/-- A send of `WriteChunk` returns on the slot handler. -/
theorem slotWrite_rule {dev : Device} {main : MainPc} {log : List Obs} {w : WritePc} {r : Int}
    (hc : main.inCallback = false) :
    Step ⟨dev, main, .write w, log⟩ (.slotReturn r) (slotReturn ⟨dev, main, .write w, log⟩ r) := by
  unfold slotReturn
  dsimp only [Device.sendReturned]
  by_cases hr : r = 0
  · subst hr
    cases w with
    | header nBytes b =>
      by_cases hn : nBytes = 0
      · subst hn
        have h : Step ⟨dev, main, .write (.header 0 b), log⟩ _ _ := .slotHeaderOnly rfl hc
        simpa [packetLoop, callbackChunk, toSlot, emit] using h
      · have h : Step ⟨dev, main, .write (.header nBytes b), log⟩ _ _ := .slotHeader rfl hc hn
        simpa [packetLoop, hn, callbackChunk, toSlot, emit] using h
    | data nBytes b off =>
      by_cases hn : nBytes - bytesToQueue nBytes = 0
      · have h : Step ⟨dev, main, .write (.data nBytes b off), log⟩ _ _ :=
          .slotLastPacket rfl hc hn
        simpa [packetLoop, hn, callbackChunk, toSlot, emit] using h
      · have h : Step ⟨dev, main, .write (.data nBytes b off), log⟩ _ _ := .slotPacket rfl hc hn
        simpa [packetLoop, hn, callbackChunk, toSlot, emit] using h
  · have h : Step ⟨dev, main, .write w, log⟩ _ _ := .slotNotSent rfl hc hr
    simpa [hr, callbackChunk, setState, toSlot] using h

theorem slotReturn_rule (s : Sys) (r : Int) (hc : s.main.inCallback = false) :
    Step s (.slotReturn r) (s.slotReturn r) := by
  obtain ⟨dev, main, slot, log⟩ := s
  cases slot with
  | use m => exact .slotMove (by simp) (.used m) hc (.snoc .refl rfl)
  | dequeue m =>
    unfold slotReturn
    dsimp only
    split
    · exact .slotMove (by simp) (.notDequeued m) hc .refl
    next hr =>
      obtain rfl : r = 0 := by simpa using hr
      cases m with
      | result success => exact .result rfl hc
      | complete count k1 k2 => exact complete_rule count k1 k2 hc
      | other type => exact .other rfl hc
  | errorRelease => exact .slotError rfl hc
  | write w => exact slotWrite_rule hc
  | release => exact .slotMove (by simp) .done hc (.snoc .refl rfl)
  | _ => exact .stay _

theorem chunkReturn_rule (s : Sys) (r : ChunkReturn) :
    Step s (.chunkReturn r) (s.chunkReturn r) := by
  obtain ⟨dev, main, slot, log⟩ := s
  by_cases hr : r.nWords = 0 ∨ r.buffer = none
  · have hend := Device.chunkReturned_end dev hr
    by_cases hm : ∃ n, main = .chunkCallback n
    · obtain ⟨n, rfl⟩ := hm
      have h : Step ⟨dev, .chunkCallback n, slot, log⟩ (.chunkReturn r) _ := .mainEnd rfl hr
      cases n <;> simpa [chunkReturn, hend, primingChunk_ret, primed, primedObs] using h
    · have hw : main.inCallback = false := by cases main <;> simp_all [MainPc.inCallback]
      by_cases hs : slot = .chunkCallback
      · subst hs
        have h : Step ⟨dev, main, .chunkCallback, log⟩ (.chunkReturn r) _ := .slotEnd rfl hw hr
        cases main <;> simp_all [chunkReturn, callbackChunk, toSlot]
      · cases main <;> cases slot <;> simp_all [chunkReturn] <;> exact .stay _
  · obtain ⟨hn, hb⟩ : r.nWords ≠ 0 ∧ r.buffer ≠ none := by simpa [not_or] using hr
    obtain ⟨b, hb⟩ := Option.ne_none_iff_exists'.1 hb
    have hsend : dev.chunkReturned r = (dev, .send (.header (r.nWords * 2) b)) := by
      simp [Device.chunkReturned, hb, hn]
    by_cases hm : ∃ n, main = .chunkCallback n
    · obtain ⟨n, rfl⟩ := hm
      have h : Step ⟨dev, .chunkCallback n, slot, log⟩ (.chunkReturn r) _ := .mainChunk rfl hn hb
      simpa [chunkReturn, hsend, primingChunk_send] using h
    · have hw : main.inCallback = false := by cases main <;> simp_all [MainPc.inCallback]
      by_cases hs : slot = .chunkCallback
      · subst hs
        have h : Step ⟨dev, main, .chunkCallback, log⟩ (.chunkReturn r) _ := .slotChunk rfl hw hn hb
        cases main <;> simp_all [chunkReturn, callbackChunk, toSlot]
      · cases main <;> cases slot <;> simp_all [chunkReturn] <;> exact .stay _

theorem idle_of_mainFree {s : Sys} (h : s.mainFree) :
    s.main = .idle ∧ s.slot.inCallback = false := by
  unfold mainFree at h
  split at h <;> simp_all

/-- Every step is an instance of a rule. -/
theorem step_rule (s : Sys) (e : Event) : Step s e (s.step e) := by
  cases e with
  | setChunkCallback b => exact .setChunkCallback b
  | start =>
    simp only [step]
    split
    next hf =>
      obtain ⟨hm, hc⟩ := idle_of_mainFree hf
      unfold start
      split
      · have h : Step s .start _ := .startRefused hm
        simpa [mainReturns, toMain, emit] using h
      next hs =>
        split
        next hcr => exact .startCreated hm hcr hc
        next hcr =>
          have hidle : s.dev.state = .idle := by
            cases h : s.dev.state <;> simp_all [SoundState.toNat]
          exact .startIdle hm hidle hc
    · exact .stay _
  | cancel =>
    simp only [step]
    split
    next hf =>
      obtain ⟨hm, hc⟩ := idle_of_mainFree hf
      unfold cancel
      split
      · exact .mainMove (by simp) (hm ▸ .cancelRefused) hc (.snoc .refl rfl)
      next hs => exact .cancelled hm (by simpa using hs) hc
    · exact .stay _
  | setControl v d =>
    simp only [step]
    split
    next hf =>
      obtain ⟨hm, hc⟩ := idle_of_mainFree hf
      exact .setControl hm hc
    · exact .stay _
  | mainReturn r =>
    simp only [step]
    split
    · exact .stay _
    next hc => exact mainReturn_rule s r (by simpa using hc)
  | peerVersion r v =>
    obtain ⟨dev, main, slot, log⟩ := s
    cases main <;> simp only [step] <;> try exact .stay _
    split
    · exact .stay _
    next hc => exact versionReturned_rule r v (by simpa using hc)
  | resume =>
    simp only [step]
    split
    · exact .stay _
    next hc => exact resume_rule s (by simpa using hc)
  | chunkReturn r => exact chunkReturn_rule s r
  | deliver reason m =>
    obtain ⟨dev, main, slot, log⟩ := s
    cases slot <;> simp only [step] <;> try exact .stay _
    split
    · exact .stay _
    next hc =>
      have hw : main.inCallback = false := by simp_all [not_or]
      exact .slotMove (by simp) (.deliver m) hw .refl
  | slotReturn r =>
    simp only [step]
    split
    · exact .stay _
    next hc => exact slotReturn_rule s r (by simpa using hc)

/-! ## The reset of the positions -/

/-- `Start` resets the positions in this step. -/
def resetsPositions (s : Sys) : Event → Bool
  | .peerVersion nResult usPeerVersion =>
    match s.main with
    | .peerVersion => !s.slot.inCallback ∧ nResult = 0 ∧ 2 ≤ usPeerVersion
    | _ => false
  | _ => false

/-! ## The refill test -/

/-- `Callback` handles a `COMPLETE` that leaves no more than one chunk queued. -/
def refillTest (s : Sys) : Event → Bool
  | .slotReturn nResult =>
    match s.slot with
    | .dequeue (.complete count k1 k2) =>
      nResult = 0 ∧ !s.main.inCallback ∧ s.dev.state ≠ .idle ∧ s.dev.state ≠ .error ∧
        goodCookies k1 k2 ∧ (s.dev.completed count).refillDue
    | _ => false
  | _ => false

theorem refillTest_eq_true {s : Sys} {count k1 k2 : UInt32}
    (hm : s.slot = .dequeue (.complete count k1 k2)) (hc : s.main.inCallback = false)
    (hs : s.dev.state ≠ .idle ∧ s.dev.state ≠ .error) (hk : goodCookies k1 k2)
    (hr : (s.dev.completed count).refillDue) : s.refillTest (.slotReturn 0) = true := by
  simp [refillTest, hm, hc, hs, hk, hr]

end Sys
end Sound
