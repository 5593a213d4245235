-- SUMMARY: The threads in queue_message and vchi_msg_queue, with slot_mutex and quota_spinlock.
import Ampi.Vchiq.Closing
import Ampi.Vchiq.MessageSize
import Ampi.Vchiq.Publishing
import Ampi.Vchiq.Turnover

/-!
# Queueing

Any number of threads run `queue_message`, with the two mutexes, `quota_spinlock` and the waits as
the source has them; what they put into the stream is that of `Slots`. A thread stops only where
it waits, and around the filling of its space, where the receiver may look. Whatever else the
quotas, `closing` and the states of the services depend on may change at every stop, in any way.
A wait may also be interrupted, which does not happen in this build; `vchiq_copy_from_user` does not
fail in it either.
-/

/-- `VCHIQ_STATUS_T`. -/
inductive Status where
  | error | success | retry
  deriving DecidableEq, Repr

namespace Queueing

open Slots Closing
open Turnover (makeMsg)

/-- `VCHIQ_MSG_CLOSE`. -/
def msgClose : UInt32 := 4

/-- The arguments of `queue_message`; the service is given by its port. -/
structure Call where
  message : Message
  service : Option Nat
  isBlocking : Bool := false
  noMutexLock : Bool := false
  noMutexUnlock : Bool := false

/-- A DATA message has a service, and is queued without the flags for the mutex (`BUG_ON`). -/
def Call.proper (call : Call) : Bool :=
  msgType call.message.msgid ≠ msgData ||
    call.service.isSome && !call.noMutexLock && !call.noMutexUnlock

/-- What the code elsewhere changes as well. -/
structure Shared where
  dataQuota : UInt16
  dataUseCount : UInt16
  previousDataIndex : Int
  dataQuotaEvent : UInt32
  quotas : Nat → Quota
  closing : Nat → Bool
  srvstate : Nat → SrvState
  remoteport : Nat → UInt32
  /-- `sync_release` is set. -/
  syncRelease : Bool

/-- What the threads share. -/
structure Global (ι : Type*) where
  transport : Slots.State
  shared : Shared
  /-- The mutexes, with the threads that have locked them. -/
  slotMutex : Option ι := none
  syncMutex : Option ι := none
  /-- How often `spin_lock` has been called without `spin_unlock`. -/
  critical : Int := 0
  syncData : Block
  /-- Not in the source: the messages that `queue_message_sync` has sent. -/
  syncSent : List Message := []

/-- Where a thread stands. -/
inductive Pc where
  | outside
  /-- In `mutex_lock_interruptible`, at the beginning. -/
  | lock (call : Call)
  | dataWait (call : Call) (port : Nat)
  | dataLock (call : Call) (port : Nat)
  | quotaWait (call : Call) (port : Nat)
  | quotaLock (call : Call) (port : Nat)
  /-- In `reserve_space`. -/
  | slotWait (call : Call)
  | filling (call : Call) (slot off : Nat)
  | publishing (call : Call)
  | returned (call : Call) (status : Status)
  /-- In `queue_message_sync`. -/
  | syncLock (m : Message)
  | syncWait (m : Message)
  | syncReturned (m : Message) (status : Status)
  /-- `vchiq_queue_message` has queued nothing. -/
  | failed
  /-- `BUG_ON`. -/
  | fault

/-- The thread is not in `queue_message`. -/
def Pc.free : Pc → Bool
  | .outside | .returned _ _ | .syncReturned _ _ | .failed => true
  | _ => false

/-- What `vchiq_queue_message` returns. -/
def Pc.status : Pc → Option Status
  | .returned _ status | .syncReturned _ status => some status
  | .failed => some .error
  | _ => none

namespace Global

variable {ι : Type*}

def spinLock (g : Global ι) : Global ι := { g with critical := g.critical + 1 }

def spinUnlock (g : Global ι) : Global ι := { g with critical := g.critical - 1 }

/-- `slot_mutex` is free, and locked. -/
def mutexLock (g : Global ι) (i : ι) : Global ι := { g with slotMutex := some i }

def mutexUnlock (g : Global ι) : Global ι := { g with slotMutex := none }

def setQuota (g : Global ι) (port : Nat) (q : Quota) : Global ι :=
  { g with shared := { g.shared with quotas := Function.update g.shared.quotas port q } }

/-! ## `queue_message`, from the last part to the first -/

/-- The counts for a DATA message. -/
def countData (g : Global ι) (port : Nat) : Global ι :=
  let q := g.shared.quotas port
  let q := { q with messageUseCount := q.messageUseCount + 1 }
  let txEndIndex := State.txIndex (g.transport.localTxPos - 1)
  let g :=
    if txEndIndex ≠ g.shared.previousDataIndex then
      { g with
        shared :=
          { g.shared with
            previousDataIndex := txEndIndex
            dataUseCount := g.shared.dataUseCount + 1 } }
    else g
  g.setQuota port
    (if txEndIndex ≠ q.previousTxIndex then
      { q with previousTxIndex := txEndIndex, slotUseCount := q.slotUseCount + 1 }
    else q)

/-- The message is written into its space. -/
def fill (g : Global ι) (call : Call) : Global ι :=
  let g := { g with transport := g.transport.step .sender }
  if msgType call.message.msgid = msgData then
    match call.service with
    | none => g
    | some port => (g.spinLock.countData port).spinUnlock
  else g

/-- `tx_pos` is moved over the message. -/
def publish (g : Global ι) (call : Call) : Global ι × Pc :=
  let g := { g with transport := g.transport.step .sender }
  let g :=
    if msgType call.message.msgid = msgClose then
      match call.service with
      | none => g
      | some port =>
        { g with
          shared :=
            { g.shared with srvstate := Function.update g.shared.srvstate port .closesent } }
    else g
  (if call.noMutexUnlock then g else g.mutexUnlock, .returned call .success)

/-- With what `reserve_space` has returned, or where it waits. -/
def reserved (g : Global ι) (call : Call) : Global ι × Pc :=
  match g.transport.sender with
  | .idle => (if call.noMutexLock then g else g.mutexUnlock, .returned call .retry)
  | .waiting _ => (g, .slotWait call)
  | .filling _ slot off => (g, .filling call slot off)
  | .publishing _ | .fault => (g, .fault)

def reserve (g : Global ι) (call : Call) : Global ι × Pc :=
  reserved { g with transport := g.transport.step (.send call.message call.isBlocking) } call

/-- `tx_end_index`. -/
def txEndIndex (g : Global ι) (call : Call) : Int :=
  State.txIndex (g.transport.localTxPos + calcStride call.message.size - 1)

/-- The test of the first loop. -/
def dataStalled (g : Global ι) (call : Call) : Bool :=
  g.txEndIndex call ≠ g.shared.previousDataIndex ∧ g.shared.dataUseCount = g.shared.dataQuota

/-- The test of the second loop. -/
def quotaStalled (g : Global ι) (call : Call) (port : Nat) : Bool :=
  let q := g.shared.quotas port
  q.messageUseCount = q.messageQuota ∨
    g.txEndIndex call ≠ q.previousTxIndex ∧ q.slotUseCount = q.slotQuota

/-- A turn of the second loop, with the spin lock. -/
def quotaLoop (g : Global ι) (call : Call) (port : Nat) : Global ι × Pc :=
  if g.quotaStalled call port then (g.spinUnlock.mutexUnlock, .quotaWait call port)
  else g.spinUnlock.reserve call

/-- A turn of the first loop, with the spin lock. -/
def dataLoop (g : Global ι) (call : Call) (port : Nat) : Global ι × Pc :=
  if g.dataStalled call then (g.spinUnlock.mutexUnlock, .dataWait call port)
  else g.quotaLoop call port

/-- Behind the lock at the beginning. -/
def locked (g : Global ι) (call : Call) : Global ι × Pc :=
  if msgType call.message.msgid = msgData then
    match call.service with
    | none => (g, .fault)
    | some port =>
      if call.noMutexLock || call.noMutexUnlock then (g, .fault)
      else if g.shared.closing port then (g.mutexUnlock, .returned call .error)
      else g.spinLock.dataLoop call port
  else g.reserve call

/-- Behind the wait for `data_quota_event`, with `slot_mutex`. -/
def dataLocked (g : Global ι) (call : Call) (port : Nat) : Global ι × Pc :=
  let g := g.spinLock
  if g.txEndIndex call = g.shared.previousDataIndex ∨
      g.shared.dataUseCount < g.shared.dataQuota then
    -- pass the signal on to other waiters
    { g with
      shared :=
        { g.shared with dataQuotaEvent := g.shared.dataQuotaEvent + 1 } }.quotaLoop call port
  else g.dataLoop call port

/-- Behind the wait for `quota_event`, with `slot_mutex`. -/
def quotaLocked (g : Global ι) (call : Call) (port : Nat) : Global ι × Pc :=
  if g.shared.srvstate port ≠ .open then (g.mutexUnlock, .returned call .error)
  else g.spinLock.quotaLoop call port

/-- `queue_message_sync` with `sync_mutex`, behind `remote_event_wait`. -/
def sendSync (g : Global ι) (m : Message) : Global ι × Pc :=
  ({ g with
      shared := { g.shared with syncRelease := false }
      syncData := storeMessage g.syncData 0 m
      syncSent := g.syncSent ++ [m]
      syncMutex := none },
    .syncReturned m .success)

/-- The thread `i` gets its turn. -/
def resume (g : Global ι) (i : ι) (interrupted : Bool) : Pc → Global ι × Pc
  | .lock call =>
    if interrupted then (g, .returned call .retry)
    else if g.slotMutex.isSome then (g, .lock call)
    else (g.mutexLock i).locked call
  | .dataWait call port =>
    if interrupted then (g, .returned call .retry)
    else
      let dataQuotaEvent := g.shared.dataQuotaEvent
      if dataQuotaEvent = 0 then (g, .dataWait call port)
      else
        ({ g with shared := { g.shared with dataQuotaEvent := dataQuotaEvent - 1 } },
          .dataLock call port)
  | .dataLock call port =>
    if g.slotMutex.isSome then (g, .dataLock call port)
    else (g.mutexLock i).dataLocked call port
  | .quotaWait call port =>
    if interrupted then (g, .returned call .retry)
    else
      let q := g.shared.quotas port
      if q.quotaEvent = 0 then (g, .quotaWait call port)
      else
        let g := g.setQuota port { q with quotaEvent := q.quotaEvent - 1 }
        (g, if g.shared.closing port then .returned call .error else .quotaLock call port)
  | .quotaLock call port =>
    if interrupted then (g, .returned call .retry)
    else if g.slotMutex.isSome then (g, .quotaLock call port)
    else (g.mutexLock i).quotaLocked call port
  | .slotWait call =>
    if interrupted then
      reserved { g with transport := { g.transport with sender := .idle } } call
    else reserved { g with transport := g.transport.step .sender } call
  | .filling call _ _ => (g.fill call, .publishing call)
  | .publishing call => g.publish call
  | .syncLock m =>
    if interrupted then (g, .syncReturned m .retry)
    else if g.syncMutex.isSome then (g, .syncLock m)
    else ({ g with syncMutex := some i }, .syncWait m)
  | .syncWait m => if g.shared.syncRelease then g.sendSync m else (g, .syncWait m)
  | pc => (g, pc)

end Global

/-! ## `vchi_msg_queue` -/

/-- The bytes of an element. -/
def bytes (e : Element) : List UInt8 :=
  match e.data with
  | none => []
  | some data => (List.range e.size.toNat).map data

theorem length_bytes_le {e : Element} {size : UInt32} (h : checkedSize [e] = some size) :
    (bytes e).length ≤ maxMsgSize.toNat := by
  obtain ⟨hdata, hsize, hle⟩ := checkedSize_eq_some.1 h
  have hexact : exactSize [e] = e.size.toNat := by simp [exactSize]
  rw [hexact, Nat.mod_eq_of_lt e.size.toNat_lt] at hsize
  unfold bytes
  split
  · exact Nat.zero_le _
  · rw [List.length_map, List.length_range, ← hsize]
    exact hle

/-- The message that `vchiq_queue_message` makes of one element, if it is accepted. -/
def dataMessage (localport remoteport : UInt32) (e : Element) : Option Message :=
  match h : checkedSize [e] with
  | none => none
  | some _ =>
    some
      { msgid := makeMsg msgData localport remoteport
        elements := [bytes e]
        fits := by simpa using length_bytes_le h
        single := fun _ => by simp }

/-- Where `vchi_msg_queue` stands. -/
inductive Client where
  | none
  /-- `vchiq_queue_message` has been called. -/
  | calling (port : Nat) (e : Element)
  /-- In `msleep`. -/
  | sleeping (port : Nat) (e : Element)
  | done (port : Nat) (e : Element) (result : Int)

def Client.free : Client → Bool
  | .none | .done _ _ _ => true
  | _ => false

/-- `vchiq_status_to_vchi`. -/
def statusToVchi : Status → Int
  | .error => -1
  | .success => 0
  | .retry => 1

/-- What a thread has put into the stream and into the slot for synchronous messages. -/
structure Record where
  written : List Header := []
  sent : List Message := []
  synced : List Message := []

namespace Record

/-- With what a step of the thread has put there. -/
def add {ι : Type*} (r : Record) (g g' : Global ι) : Record where
  written := r.written ++ g'.transport.written.drop g.transport.written.length
  sent := r.sent ++ g'.transport.sent.drop g.transport.sent.length
  synced := r.synced ++ g'.syncSent.drop g.syncSent.length

def append (r r' : Record) : Record :=
  ⟨r.written ++ r'.written, r.sent ++ r'.sent, r.synced ++ r'.synced⟩

end Record

structure Thread where
  pc : Pc := .outside
  client : Client := .none
  -- not in the source
  /-- What the last call of `queue_message` has put where. -/
  record : Record := {}
  /-- What the calls before that have, in `vchi_msg_queue`. -/
  earlier : Record := {}

/-- The thread is in none of these functions. -/
def Thread.free (t : Thread) : Bool := t.pc.free && t.client.free

structure State (ι : Type*) where
  global : Global ι
  threads : ι → Thread := fun _ => {}

inductive Event (ι : Type*) where
  | queueMessage (i : ι) (call : Call)
  /-- The handle may belong to no service any more (`found`). -/
  | vchiMsgQueue (i : ι) (port : Nat) (e : Element) (found : Bool)
  /-- A thread gets its turn in `queue_message`. -/
  | resume (i : ι) (interrupted : Bool)
  /-- A thread gets its turn in the loop of `vchi_msg_queue`. -/
  | retry (i : ι) (found : Bool)
  /-- `mutex_lock (&state->slot_mutex)` elsewhere, and `mutex_unlock`. -/
  | takeMutex (i : ι)
  | giveMutex (i : ι)
  /-- The code elsewhere, and the other side. -/
  | others (shared : Shared)
  | transport (e : Slots.Event)

variable {ι : Type*} [DecidableEq ι]

namespace State

def boot (r : SlotRange) (slotData : Nat → Block) (syncData : Block) (shared : Shared) :
    State ι where
  global := { transport := .init r slotData, shared, syncData }

/-- A thread has come from one stop to the next. -/
def move (s : State ι) (i : ι) (p : Global ι × Pc) : State ι :=
  let t := s.threads i
  { global := p.1
    threads :=
      Function.update s.threads i { t with pc := p.2, record := t.record.add s.global p.1 } }

def setThread (s : State ι) (i : ι) (t : Thread) : State ι :=
  { s with threads := Function.update s.threads i t }

/-- `vchiq_queue_message`, up to the call of `queue_message` or `queue_message_sync`. -/
def vchiqQueueMessage (s : State ι) (port : Nat) (e : Element) (found : Bool) : Pc :=
  if found then
    match dataMessage (.ofNat port) (s.global.shared.remoteport port) e with
    | none => .failed
    | some message =>
      match s.global.shared.srvstate port with
      | .open => .lock { message, service := some port, isBlocking := true }
      | .opensync => .syncLock message
      | _ => .failed
  else .failed

/-- The loop of `vchi_msg_queue`. -/
def retry (s : State ι) (i : ι) (found : Bool) : State ι :=
  let t := s.threads i
  match t.client with
  | .calling port e =>
    match t.pc.status with
    | none => s
    | some .retry => s.setThread i { t with client := .sleeping port e }
    | some status => s.setThread i { t with client := .done port e (statusToVchi status) }
  | .sleeping port e =>
    s.setThread i
      { pc := s.vchiqQueueMessage port e found
        client := .calling port e
        earlier := t.earlier.append t.record }
  | _ => s

/-- A thread that has `slot_mutex` does not lock it again, and says so with its flags. -/
def step (s : State ι) : Event ι → State ι
  | .queueMessage i call =>
    if call.proper && (s.threads i).free &&
        call.noMutexLock = decide (s.global.slotMutex = some i) then
      let s := s.setThread i {}
      if call.noMutexLock then s.move i (s.global.locked call) else s.move i (s.global, .lock call)
    else s
  | .vchiMsgQueue i port e found =>
    if (s.threads i).free && s.global.slotMutex ≠ some i then
      s.setThread i { pc := s.vchiqQueueMessage port e found, client := .calling port e }
    else s
  | .resume i interrupted => s.move i (s.global.resume i interrupted (s.threads i).pc)
  | .retry i found => s.retry i found
  | .takeMutex i =>
    if (s.threads i).free && s.global.slotMutex = none then
      { s with global := s.global.mutexLock i }.setThread i {}
    else s
  | .giveMutex i =>
    if (s.threads i).free && s.global.slotMutex = some i then
      { s with global := s.global.mutexUnlock }.setThread i {}
    else s
  | .others shared => { s with global := { s.global with shared } }
  | .transport e =>
    if e.elsewhere then
      { s with global := { s.global with transport := s.global.transport.step e } }
    else s

end State

/-! ## The property -/

/-- What a call of `queue_message` leaves when it returns; `holds` says that the thread has
`slot_mutex`. -/
structure Outcome (call : Call) (status : Status) (r : Record) (holds : Prop) : Prop where
  sent : status = .success ↔ r.sent = [call.message]
  failed : status ≠ .success → r.sent = []
  written : ∃ padding, Padding padding ∧
    if status = .success then ∃ pos, r.written = padding ++ [call.message.header pos]
    else r.written = padding
  mutex : holds ↔ if status = .success then call.noMutexUnlock else call.noMutexLock

/-- Padding is all that has been written. -/
structure Record.Clean (r : Record) : Prop where
  written : ∀ h ∈ r.written, h.msgid = msgidPadding
  sent : r.sent = []
  synced : r.synced = []

/-- `vchi_msg_queue` has queued the message once if it returns 0, and otherwise not. -/
def Delivered (port : Nat) (e : Element) (result : Int) (r : Record) : Prop :=
  if result = 0 then
    ∃ remoteport m, dataMessage (.ofNat port) remoteport e = some m ∧ r.sent ++ r.synced = [m]
  else r.Clean

namespace State

/-- What holds of every step. Its end is a stop of some thread, so that nobody waits or returns
with the spin lock. -/
structure AllOrNothing (s : State ι) (e : Event ι) : Prop where
  critical : (s.step e).global.critical = 0
  fault : ∀ i, ((s.step e).threads i).pc ≠ .fault
  outcome : ∀ i call status, ((s.step e).threads i).pc = .returned call status →
    Outcome call status ((s.step e).threads i).record ((s.step e).global.slotMutex = some i)
  /-- A call that returns with success has just published its message. -/
  published : ∀ i call, (s.threads i).pc = .publishing call →
    ((s.step e).threads i).pc = .returned call .success →
      (s.step e).global.transport.Shows call.message
  /-- And there is no other way to return with success. -/
  success : ∀ i call, ((s.step e).threads i).pc = .returned call .success →
    (s.threads i).pc = .publishing call ∨ (s.threads i).pc = .returned call .success
  delivered : ∀ i port e' result, ((s.step e).threads i).client = .done port e' result →
    let t := (s.step e).threads i
    Delivered port e' result (t.earlier.append t.record)

end State

end Queueing
