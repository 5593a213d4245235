-- SUMMARY: The sound device: `CVCHIQSoundBaseDevice` as a machine of two contexts that switch inside VCHI calls.
import Ampi.Machine
import Ampi.Sound.Message

/-!
# The sound device

`vchiqsoundbasedevice.c` as a machine. The main thread runs `Start`, `Cancel` and
`SetControl`, the slot handler runs `Callback`, and the CPU can change hands only
inside a VCHI call or a yield loop. A program counter therefore names the call
that is pending, and one step runs the code from the return of that call to the
next one. The user's chunk callback is a call too, but not one that yields: while
a context is inside it, the other context does not move.

Assertions are taken to return (`NDEBUG`, or a hook that returns).
-/

namespace Sound

/-- `CVCHIQSoundBaseDevice`. Only whether a chunk callback is registered is
recorded; what each call of it returns is an input of the run. -/
structure Device where
  chunkCallback : Bool := false
  sampleRate : UInt32
  chunkSize : UInt32
  destination : SoundDestination
  state : SoundState := .created
  event : Bool := false
  result : Int := 0
  writePos : UInt32 := 0
  completePos : UInt32 := 0

/-- `m_nChunkSize*sizeof (s16)`. -/
def Device.chunkBytes (d : Device) : UInt32 := d.chunkSize * 2

/-- `Buffer` after the call: the words it points to, read bytewise. -/
abbrev Buffer := Nat → UInt8

/-- What one call of the chunk callback returns: the count and the buffer, which
is `none` when the callback left `Buffer` null. -/
structure ChunkReturn where
  nWords : UInt32
  buffer : Option Buffer

inductive Ctx where
  | main | slotHandler
  deriving DecidableEq, Repr

/-! ## `WriteChunk` -/

/-- The send `WriteChunk` is waiting for. -/
inductive WritePc where
  | header (nBytes : UInt32) (buffer : Buffer)
  | data (nBytes : UInt32) (buffer : Buffer) (offset : Nat)

/-- What `WriteChunk` does next: call the chunk callback, queue a message, or
return. -/
inductive WriteNext where
  | callback
  | send (w : WritePc)
  | ret (nResult : Int)

def bytesToQueue (nBytes : UInt32) : UInt32 := if nBytes ≤ maxPacket then nBytes else maxPacket

/-- The message a pending send will append. -/
def WritePc.msg : WritePc → AudioMsg
  | .header nBytes _ => .write nBytes writeCookie1 writeCookie2 0 maxPacket
  | .data nBytes buffer offset =>
    .data ((List.range (bytesToQueue nBytes).toNat).map fun i => buffer (offset + i))

/-- The test of `while (nBytes > 0)`. -/
def packetLoop (nBytes : UInt32) (buffer : Buffer) (offset : Nat) : WriteNext :=
  if nBytes = 0 then .ret 0 else .send (.data nBytes buffer offset)

namespace Device

def writeChunk (d : Device) : WriteNext := if d.chunkCallback then .callback else .ret 0

/-- `WriteChunk` from the return of the chunk callback. -/
def chunkReturned (d : Device) (r : ChunkReturn) : Device × WriteNext :=
  match r.buffer with
  | none => ({ d with state := .idle }, .ret 0)
  | some buffer =>
    if r.nWords = 0 then ({ d with state := .idle }, .ret 0)
    else (d, .send (.header (r.nWords * 2) buffer))

/-- `WriteChunk` from the return of `vchi_msg_queue`. -/
def sendReturned (d : Device) (w : WritePc) (nResult : Int) : Device × WriteNext :=
  if nResult ≠ 0 then (d, .ret nResult)
  else match w with
    | .header nBytes buffer =>
      ({ d with writePos := d.writePos + nBytes }, packetLoop nBytes buffer 0)
    | .data nBytes buffer offset =>
      let n := bytesToQueue nBytes
      (d, packetLoop (nBytes - n) buffer (offset + n.toNat))

/-- `m_nCompletePos` after a `COMPLETE`. -/
def completed (d : Device) (count : UInt32) : Device :=
  { d with completePos := d.completePos + (count &&& 0x3FFFFFFF) }

/-- No more than one chunk is left queued. -/
def refillDue (d : Device) : Bool := d.writePos - d.completePos ≤ d.chunkBytes

end Device

/-! ## Program counters -/

/-- Where `QueueMessage` is. -/
inductive QueuePc where
  | use | queue | release (nResult : Int)

/-- Who called `QueueMessage`. The first two and `setControl` go through
`CallMessage`. -/
inductive Purpose where
  | config | control | openAudio | start | stop | setControl
  deriving DecidableEq, Repr

/-- The two priming calls of `WriteChunk` in `Start`. -/
inductive Priming where
  | first | second
  deriving DecidableEq, Repr

inductive MainPc where
  | idle
  | initialise | connect | serviceOpen | openRelease
  | queueMessage (p : Purpose) (m : Request) (q : QueuePc)
  | waitEvent (p : Purpose)
  | startUse | peerVersion
  | chunkCallback (n : Priming)
  | write (n : Priming) (w : WritePc)
  | startRelease (failed : Bool)
  | cancelWait | cancelUse | cancelRelease

inductive SlotPc where
  | idle
  | use (m : VcMsg)
  | dequeue (m : VcMsg)
  | errorRelease
  | chunkCallback
  | write (w : WritePc)
  | release

/-- The main thread is inside the chunk callback. -/
def MainPc.inCallback : MainPc → Bool
  | .chunkCallback _ => true
  | _ => false

/-- The slot handler is inside the chunk callback. -/
def SlotPc.inCallback : SlotPc → Bool
  | .chunkCallback => true
  | _ => false

/-- What can be seen from outside: calls made and messages queued or taken. -/
inductive Obs where
  | chunkCallback (c : Ctx)
  | queued (c : Ctx) (m : AudioMsg)
  | dequeued (m : VcMsg)
  | serviceOpened
  | serviceUse (c : Ctx)
  | serviceRelease (c : Ctx)
  | positionsReset
  | returned (b : Bool)
  deriving DecidableEq, Repr

structure Sys where
  dev : Device
  main : MainPc := .idle
  slot : SlotPc := .idle
  log : List Obs := []

/-- `CVCHIQSoundBaseDevice_Ctor`. -/
def Sys.ctor (sampleRate chunkSize : UInt32) (destination : SoundDestination) : Sys :=
  { dev := { sampleRate, chunkSize, destination } }

inductive Event where
  /-- `AMPiSetChunkCallback`: with a function, or with null. -/
  | setChunkCallback (registered : Bool)
  | start
  | cancel
  | setControl (nVolume : Int) (destination : SoundDestination)
  /-- The VCHI call that the main thread has pending returns `nResult`. -/
  | mainReturn (nResult : Int)
  /-- `vchi_get_peer_version` returns. -/
  | peerVersion (nResult : Int) (usPeerVersion : Int)
  /-- The main thread gets the CPU back in a yield loop. -/
  | resume
  | chunkReturn (r : ChunkReturn)
  /-- The slot handler calls `Callback`, with `m` at the head of the service's queue. -/
  | deliver (reason : CallbackReason) (m : VcMsg)
  /-- The VCHI call that the slot handler has pending returns `nResult`. -/
  | slotReturn (nResult : Int)

namespace Sys

def emit (s : Sys) (o : Obs) : Sys := { s with log := s.log ++ [o] }

def setState (s : Sys) (st : SoundState) : Sys := { s with dev := { s.dev with state := st } }

def toMain (s : Sys) (pc : MainPc) : Sys := { s with main := pc }

def toSlot (s : Sys) (pc : SlotPc) : Sys := { s with slot := pc }

/-- `return b` of `Start` or `Cancel`. -/
def mainReturns (s : Sys) (b : Bool) : Sys := (s.toMain .idle).emit (.returned b)

/-! ## `QueueMessage` and `CallMessage` -/

def queueMessage (s : Sys) (p : Purpose) (m : Request) : Sys := s.toMain (.queueMessage p m .use)

def callMessage (s : Sys) (p : Purpose) (m : Request) : Sys :=
  queueMessage { s with dev := { s.dev with event := false } } p m

/-! ## `Start` -/

def startFails (s : Sys) : Sys := (s.setState .error).mainReturns false

/-- `Start` from the point where the device is idle. -/
def startIdle (s : Sys) : Sys := s.queueMessage .start .start

def start (s : Sys) : Sys :=
  if s.dev.state.toNat > SoundState.idle.toNat then s.mainReturns false
  else if s.dev.state = .created then s.toMain .initialise
  else s.startIdle

/-- The second priming call of `WriteChunk` has got as far as `n`. -/
def secondChunk (s : Sys) : WriteNext → Sys
  | .callback => (s.toMain (.chunkCallback .second)).emit (.chunkCallback .main)
  | .send w => s.toMain (.write .second w)
  | .ret nResult => s.toMain (.startRelease (nResult ≠ 0))

/-- The first priming call of `WriteChunk` has got as far as `n`. -/
def firstChunk (s : Sys) : WriteNext → Sys
  | .callback => (s.toMain (.chunkCallback .first)).emit (.chunkCallback .main)
  | .send w => s.toMain (.write .first w)
  | .ret nResult =>
    if nResult = 0 then s.secondChunk s.dev.writeChunk else s.toMain (.startRelease true)

def primingChunk (s : Sys) : Priming → WriteNext → Sys
  | .first => s.firstChunk
  | .second => s.secondChunk

/-- `Start` from the return of `vchi_get_peer_version`. -/
def versionReturned (s : Sys) (nResult usPeerVersion : Int) : Sys :=
  if nResult ≠ 0 ∨ usPeerVersion < 2 then s.toMain (.startRelease true)
  else
    let s := emit { s with dev := { s.dev with writePos := 0, completePos := 0 } } .positionsReset
    s.firstChunk s.dev.writeChunk

/-! ## `Cancel` and `SetControl` -/

def cancel (s : Sys) : Sys :=
  if s.dev.state ≠ .running then s.mainReturns false
  else (s.setState .cancelled).toMain .cancelWait

def setControl (s : Sys) (nVolume : Int) (destination : SoundDestination) : Sys :=
  let nVolume := if VOLUME_MIN ≤ nVolume ∧ nVolume ≤ VOLUME_MAX then nVolume else VOLUME_DEFAULT
  let dest := if destination ≠ .unknown then destination else s.dev.destination
  let s := { s with dev := { s.dev with destination := dest } }
  s.callMessage .setControl (.control (volumeToChip nVolume) s.dev.destination.toUInt32)

/-! ## The main thread's continuations -/

/-- The caller of `CallMessage` goes on with its result. -/
def callReturned (s : Sys) (p : Purpose) (nResult : Int) : Sys :=
  match p with
  | .config =>
    if nResult ≠ 0 then s.startFails
    else s.callMessage .control
      (.control (volumeToChip VOLUME_DEFAULT) s.dev.destination.toUInt32)
  | .control => if nResult ≠ 0 then s.startFails else s.queueMessage .openAudio .openAudio
  | .setControl => s.toMain .idle
  | .openAudio | .start | .stop => s

/-- The loop of `CallMessage`: `while (!m_Event) ampi_co_yield ()`. -/
def eventLoop (s : Sys) (p : Purpose) : Sys :=
  if s.dev.event then s.callReturned p s.dev.result else s.toMain (.waitEvent p)

/-- The caller of `QueueMessage` goes on with its result. -/
def queueReturned (s : Sys) (p : Purpose) (nResult : Int) : Sys :=
  match p with
  | .config | .control | .setControl =>
    if nResult = 0 then s.eventLoop p
    else callReturned { s with dev := { s.dev with result := nResult } } p nResult
  | .openAudio => if nResult ≠ 0 then s.startFails else (s.setState .idle).startIdle
  | .start =>
    if nResult ≠ 0 then s.startFails else (s.setState .running).toMain .startUse
  | .stop => if nResult ≠ 0 then s.mainReturns false else s.toMain .cancelRelease

def mainReturn (s : Sys) (nResult : Int) : Sys :=
  match s.main with
  | .initialise => if nResult ≠ 0 then s.startFails else s.toMain .connect
  | .connect => if nResult ≠ 0 then s.startFails else s.toMain .serviceOpen
  | .serviceOpen =>
    if nResult ≠ 0 then s.startFails else (s.toMain .openRelease).emit .serviceOpened
  | .openRelease =>
    (s.emit (.serviceRelease .main)).callMessage .config (.config 2 s.dev.sampleRate 16)
  | .queueMessage p m .use => (s.toMain (.queueMessage p m .queue)).emit (.serviceUse .main)
  | .queueMessage p m .queue =>
    let s := s.toMain (.queueMessage p m (.release nResult))
    if nResult = 0 then s.emit (.queued .main (.request m)) else s
  | .queueMessage p _ (.release nResult) => (s.emit (.serviceRelease .main)).queueReturned p nResult
  | .startUse => (s.toMain .peerVersion).emit (.serviceUse .main)
  | .write n w =>
    let s := if nResult = 0 then s.emit (.queued .main w.msg) else s
    let (dev, next) := s.dev.sendReturned w nResult
    primingChunk { s with dev } n next
  | .startRelease failed =>
    let s := s.emit (.serviceRelease .main)
    if failed then s.startFails else s.mainReturns true
  | .cancelUse => (s.emit (.serviceUse .main)).queueMessage .stop (.stop 0)
  | .cancelRelease => ((s.emit (.serviceRelease .main)).setState .idle).mainReturns true
  | _ => s

/-- The main thread re-tests the condition of the loop it yields in. -/
def resume (s : Sys) : Sys :=
  match s.main with
  | .waitEvent p => s.eventLoop p
  | .cancelWait => if s.dev.state = .cancelled then s else s.toMain .cancelUse
  | _ => s

/-! ## `Callback` -/

/-- `WriteChunk`, called from `Callback`, has got as far as `n`. -/
def callbackChunk (s : Sys) : WriteNext → Sys
  | .callback => (s.toSlot .chunkCallback).emit (.chunkCallback .slotHandler)
  | .send w => s.toSlot (.write w)
  | .ret nResult => (if nResult ≠ 0 then s.setState .error else s).toSlot .release

/-- The cookies of a `COMPLETE` are those of the device's `WRITE`s. -/
def goodCookies (cookie1 cookie2 : UInt32) : Bool :=
  cookie1 = writeCookie1 ∧ cookie2 = writeCookie2

/-- The `COMPLETE` case of `Callback`. -/
def complete (s : Sys) (count cookie1 cookie2 : UInt32) : Sys :=
  if s.dev.state = .idle ∨ s.dev.state = .error then s.toSlot .release
  else if ¬goodCookies cookie1 cookie2 then (s.setState .error).toSlot .release
  else
    let s := { s with dev := s.dev.completed count }
    if s.dev.refillDue then
      if s.dev.state = .cancelled then (s.setState .terminating).toSlot .release
      else s.callbackChunk s.dev.writeChunk
    else s.toSlot .release

/-- `Callback` from the return of a successful `vchi_msg_dequeue`. -/
def dequeued (s : Sys) (m : VcMsg) : Sys :=
  match m with
  | .result success =>
    toSlot { s with dev := { s.dev with result := success, event := true } } .release
  | .complete count cookie1 cookie2 => s.complete count cookie1 cookie2
  | .other _ => s.toSlot .release

def slotReturn (s : Sys) (nResult : Int) : Sys :=
  match s.slot with
  | .use m => (s.toSlot (.dequeue m)).emit (.serviceUse .slotHandler)
  | .dequeue m =>
    if nResult ≠ 0 then s.toSlot .errorRelease else (s.emit (.dequeued m)).dequeued m
  | .errorRelease => ((s.emit (.serviceRelease .slotHandler)).setState .error).toSlot .idle
  | .write w =>
    let s := if nResult = 0 then s.emit (.queued .slotHandler w.msg) else s
    let (dev, next) := s.dev.sendReturned w nResult
    callbackChunk { s with dev } next
  | .release => (s.emit (.serviceRelease .slotHandler)).toSlot .idle
  | _ => s

/-- The chunk callback of the context that is inside it returns. -/
def chunkReturn (s : Sys) (r : ChunkReturn) : Sys :=
  let (dev, next) := s.dev.chunkReturned r
  match s.main, s.slot with
  | .chunkCallback n, _ => primingChunk { s with dev } n next
  | _, .chunkCallback => callbackChunk { s with dev } next
  | _, _ => s

/-! ## The machine -/

/-- The main thread is outside the library and may call into it. -/
def mainFree (s : Sys) : Bool := match s.main with | .idle => !s.slot.inCallback | _ => false

def step (s : Sys) : Event → Sys
  | .setChunkCallback b => { s with dev := { s.dev with chunkCallback := b } }
  | .start => if s.mainFree then s.start else s
  | .cancel => if s.mainFree then s.cancel else s
  | .setControl v d => if s.mainFree then s.setControl v d else s
  | .mainReturn r => if s.slot.inCallback then s else s.mainReturn r
  | .peerVersion r v =>
    match s.main with
    | .peerVersion => if s.slot.inCallback then s else s.versionReturned r v
    | _ => s
  | .resume => if s.slot.inCallback then s else s.resume
  | .chunkReturn r => s.chunkReturn r
  | .deliver reason m =>
    match s.slot with
    | .idle => if s.main.inCallback ∨ reason ≠ .msgAvailable then s else s.toSlot (.use m)
    | _ => s
  | .slotReturn r => if s.main.inCallback then s else s.slotReturn r

abbrev run (s : Sys) (es : List Event) : Sys := Machine.run step s es

theorem run_at (s : Sys) (es₁ : List Event) (e : Event) (es₂ : List Event) :
    s.run (es₁ ++ e :: es₂) = ((s.run es₁).step e).run es₂ := Machine.run_append ..

end Sys

/-! ## A first call of `Start` -/

/-- `n` pending calls of the main thread succeed one after the other. -/
def mainCalls (n : Nat) : List Event := List.replicate n (.mainReturn 0)

/-- The slot handler runs `Callback` for `m` to its end, every call succeeding and
no chunk being asked for. -/
def handled (m : VcMsg) : List Event :=
  [.deliver .msgAvailable m, .slotReturn 0, .slotReturn 0, .slotReturn 0]

/-- `Start` on a new device with a registered callback, up to its first call of
the callback; every request succeeds. -/
def startUp : List Event :=
  [.setChunkCallback true, .start] ++ mainCalls 7 ++ handled (.result 0) ++ [.resume] ++
    mainCalls 3 ++ handled (.result 0) ++ [.resume] ++ mainCalls 7 ++ [.peerVersion 0 2]

/-- One priming call: the callback returns `r`, and the header and the only packet
of the chunk are queued. -/
def primeOne (r : ChunkReturn) : List Event := .chunkReturn r :: mainCalls 2

/-- `Start` on a new device, with chunks of at most one packet. -/
def startedWith (r₁ r₂ : ChunkReturn) : List Event :=
  startUp ++ primeOne r₁ ++ primeOne r₂ ++ mainCalls 1

/-- A session of two one-word chunks, both outstanding. -/
def twoChunksQueued : List Event :=
  startedWith ⟨1, some fun _ => 0⟩ ⟨1, some fun _ => 0⟩

/-- The slot handler runs `Callback` for a `COMPLETE` of a one-word chunk and
refills with another one. -/
def refilled : List Event :=
  [.deliver .msgAvailable (.complete 2 writeCookie1 writeCookie2), .slotReturn 0, .slotReturn 0,
    .chunkReturn ⟨1, some fun _ => 0⟩, .slotReturn 0, .slotReturn 0, .slotReturn 0]

end Sound
