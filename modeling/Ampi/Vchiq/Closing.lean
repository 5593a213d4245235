-- SUMMARY: Senders in the waits of queue_message while their service closes: when no DATA follows.
import Ampi.Machine
import Ampi.Vchiq.Positions
import Mathlib.Logic.Function.Basic

/-!
# Closing a service that sends

`queue_message` runs under `slot_mutex` and gives it up while it waits for quota; while it
waits for a slot it keeps it. `mark_service_closing_internal` sets `closing` and passes
through `slot_mutex`, so that a sender has either sent its message by then or sees
`closing`. Threads switch only while they wait for the mutex or for a permit.
-/

/-- `VCHIQ_SRVSTATE_*`. -/
inductive SrvState where
  | free | hidden | listening | opening | open | opensync | closesent | closerecvd | closewait
  | closed
  deriving DecidableEq, Repr

namespace Closing

open Slots

/-- A message by its type and, where it matters here, the service that sends it. -/
inductive Msg where
  | data (port : Nat)
  | close (port : Nat)
  | other
  deriving DecidableEq, Repr

/-- The arguments of `queue_message`: the message with its stride, and the flags. -/
structure Call where
  msg : Msg
  stride : UInt32
  isBlocking : Bool := false
  noMutexLock : Bool := false
  noMutexUnlock : Bool := false
  deriving DecidableEq, Repr

/-- A DATA message is queued without the flags for the mutex (`BUG_ON`). -/
def Call.proper (call : Call) : Bool :=
  match call.msg with
  | .data _ => !call.noMutexLock && !call.noMutexUnlock
  | _ => true

/-- Where a thread stands. -/
inductive Pc where
  | idle
  /-- It has `slot_mutex`, outside `queue_message`. -/
  | holds
  | holdLock
  -- `queue_message`
  | sendLock (call : Call)
  | dataWait (call : Call) (port : Nat)
  | dataLock (call : Call) (port : Nat)
  | quotaWait (call : Call) (port : Nat)
  | quotaLock (call : Call) (port : Nat)
  /-- In `reserve_space`, with `slot_mutex`. -/
  | slotWait (call : Call)
  /-- In `mark_service_closing_internal`. -/
  | markLock (port : Nat)
  deriving DecidableEq, Repr

/-- The thread has `slot_mutex`. -/
def Pc.inside : Pc → Bool
  | .holds | .slotWait _ => true
  | _ => false

/-- `VCHIQ_SERVICE_QUOTA_T`. -/
structure Quota where
  slotQuota : UInt16 := 0
  slotUseCount : UInt16 := 0
  messageQuota : UInt16 := 0
  messageUseCount : UInt16 := 0
  quotaEvent : UInt32 := 0
  previousTxIndex : Int := 0

structure State (ι : Type*) where
  slotHandler : ι
  /-- `slot_mutex`. -/
  locked : Bool := false
  /-- `conn_state` is `VCHIQ_CONNSTATE_PAUSE_SENT`. -/
  pauseSent : Bool := false
  localTxPos : UInt32 := 0
  slotAvailable : Nat
  dataQuota : UInt16
  dataUseCount : UInt16 := 0
  previousDataIndex : Int := -1
  dataQuotaEvent : UInt32 := 0
  defaultSlotQuota : UInt16
  defaultMessageQuota : UInt16
  quotas : Nat → Quota := fun _ => {}
  closing : Nat → Bool := fun _ => false
  srvstate : Nat → SrvState := fun _ => .free
  pc : ι → Pc := fun _ => .idle
  -- not in the source
  /-- The messages sent. -/
  stream : List Msg := []
  /-- `mark_service_closing_internal` has completed, and the service has not been opened
  again since it was called. -/
  marked : Nat → Bool := fun _ => false
  /-- A CLOSE has been sent for it since. -/
  closeSent : Nat → Bool := fun _ => false

inductive Event (ι : Type*) where
  | queueMessage (i : ι) (call : Call)
  /-- `mark_service_closing_internal`. -/
  | mark (i : ι) (port : Nat) (shThread : Bool)
  /-- A thread that waits gets its turn. -/
  | resume (i : ι)
  /-- `mutex_lock (&state->slot_mutex)` elsewhere, and `mutex_unlock`. -/
  | takeMutex (i : ι)
  | giveMutex (i : ι)
  /-- The slot handler has queued PAUSE and keeps the mutex. -/
  | pauseSent
  | paused
  /-- One slot in `process_free_queue`: the ports of the DATA messages in it. -/
  | freeSlot (ports : List Nat)
  /-- `vchiq_set_service_state` elsewhere. -/
  | setState (port : Nat) (srvstate : SrvState)
  /-- `close_service_complete` clears `closing` for a server. -/
  | listen (port : Nat)
  /-- `vchiq_add_service_internal`. -/
  | addService (port : Nat) (srvstate : SrvState)
  /-- `vchiq_set_service_option`. -/
  | setSlotQuota (port : Nat) (value : Int)
  | setMessageQuota (port : Nat) (value : Int)

variable {ι : Type*} [DecidableEq ι]

/-! ## Quotas -/

/-- A DATA message in a slot that has been freed. -/
def Quota.freeMessage (q : Quota) : Quota :=
  let count := q.messageUseCount
  { q with
    messageUseCount := if 0 < count then count - 1 else count
    quotaEvent := if count = q.messageQuota then q.quotaEvent + 1 else q.quotaEvent }

/-- The first DATA message of a service in a slot that has been freed. -/
def Quota.freeSlot (q : Quota) : Quota :=
  if 0 < q.slotUseCount then
    { q with slotUseCount := q.slotUseCount - 1, quotaEvent := q.quotaEvent + 1 }
  else q

/-- The messages of a freed slot, with `service_found`. -/
def freeMessages (found : List Nat) (quotas : Nat → Quota) : List Nat → Nat → Quota
  | [] => quotas
  | port :: ports =>
    let q := (quotas port).freeMessage
    let q := if port ∈ found then q else q.freeSlot
    freeMessages (port :: found) (Function.update quotas port q) ports

namespace State

/-- `vchiq_init_state`, with the number of the side's slots. -/
def boot (slotHandler : ι) (slots : Nat) : State ι :=
  let defaultSlotQuota := .ofNat (slots / 2)
  { slotHandler
    slotAvailable := slots
    dataQuota := .ofNat slots - 1
    defaultSlotQuota
    defaultMessageQuota := min (defaultSlotQuota * 256) 65535 }

def goto (s : State ι) (i : ι) (pc : Pc) : State ι := { s with pc := Function.update s.pc i pc }

@[simp] theorem goto_self (s : State ι) (i : ι) (pc : Pc) : (s.goto i pc).pc i = pc :=
  Function.update_self ..

theorem goto_of_ne {i j : ι} (h : j ≠ i) (s : State ι) (pc : Pc) : (s.goto i pc).pc j = s.pc j :=
  Function.update_of_ne h ..

/-- `mutex_unlock (&state->slot_mutex)`, and `queue_message` returns. -/
def unlock (s : State ι) (i : ι) : State ι := { s with locked := false }.goto i .idle

def setQuota (s : State ι) (port : Nat) (q : Quota) : State ι :=
  { s with quotas := Function.update s.quotas port q }

def txIndex (pos : UInt32) : Int := (slotQueueIndexFromPos pos).toNat

/-- `tx_end_index`. -/
def txEndIndex (s : State ι) (call : Call) : Int := txIndex (s.localTxPos + call.stride - 1)

/-- The test of the first loop in `queue_message`. -/
def dataStalled (s : State ι) (call : Call) : Bool :=
  s.txEndIndex call ≠ s.previousDataIndex ∧ s.dataUseCount = s.dataQuota

/-- The test of the second loop. -/
def quotaStalled (s : State ι) (call : Call) (port : Nat) : Bool :=
  let q := s.quotas port
  q.messageUseCount = q.messageQuota ∨
    s.txEndIndex call ≠ q.previousTxIndex ∧ q.slotUseCount = q.slotQuota

/-! ## `queue_message`, from the last part to the first -/

/-- The counts for a DATA message. -/
def countData (s : State ι) (port : Nat) : State ι :=
  let q := s.quotas port
  let txEndIndex := txIndex (s.localTxPos - 1)
  let s :=
    if txEndIndex ≠ s.previousDataIndex then
      { s with previousDataIndex := txEndIndex, dataUseCount := s.dataUseCount + 1 }
    else s
  let q := { q with messageUseCount := q.messageUseCount + 1 }
  s.setQuota port
    (if txEndIndex ≠ q.previousTxIndex then
      { q with previousTxIndex := txEndIndex, slotUseCount := q.slotUseCount + 1 }
    else q)

/-- The message is in the stream. -/
def put (s : State ι) (call : Call) : State ι :=
  let s :=
    match call.msg with
    | .data port => s.countData port
    | .close port =>
      { s with
        srvstate := Function.update s.srvstate port .closesent
        closeSent := Function.update s.closeSent port (s.marked port) }
    | .other => s
  { s with stream := s.stream ++ [call.msg] }

/-- Behind `reserve_space`. -/
def append (s : State ι) (i : ι) (call : Call) : State ι :=
  if call.noMutexUnlock then (s.put call).goto i .holds else (s.put call).unlock i

/-- The end of `reserve_space`. -/
def reserved (s : State ι) (i : ι) (call : Call) : State ι :=
  { s with localTxPos := s.localTxPos + call.stride }.append i call

/-- `reserve_space` has returned `NULL`. -/
def noSpace (s : State ι) (i : ι) (call : Call) : State ι :=
  if call.noMutexLock then s.goto i .holds else s.unlock i

/-- Where the message goes, behind padding if the slot has no room for it. -/
def messagePos (s : State ι) (call : Call) : UInt32 :=
  let slotSpace := slotSize - (s.localTxPos &&& slotMask)
  if call.stride > slotSpace then s.localTxPos + slotSpace else s.localTxPos

/-- `reserve_space` and what follows. -/
def reserve (s : State ι) (i : ι) (call : Call) : State ι :=
  let s := { s with localTxPos := s.messagePos call }
  if s.localTxPos &&& slotMask = 0 then
    match s.slotAvailable with
    | 0 => if call.isBlocking then s.goto i (.slotWait call) else s.noSpace i call
    | slotAvailable + 1 => { s with slotAvailable }.reserved i call
  else s.reserved i call

/-- The second loop, which takes a permit of `quota_event` a turn without waiting; without
a permit the thread waits. -/
def quotaLoop (s : State ι) (i : ι) (call : Call) (port : Nat) : Nat → State ι
  | 0 =>
    let s := s.setQuota port { s.quotas port with quotaEvent := 0 }
    if s.quotaStalled call port then { s with locked := false }.goto i (.quotaWait call port)
    else s.reserve i call
  | permits + 1 =>
    if s.quotaStalled call port then
      if s.closing port || s.srvstate port ≠ .open then
        (s.setQuota port { s.quotas port with quotaEvent := .ofNat permits }).unlock i
      else s.quotaLoop i call port permits
    else
      (s.setQuota port { s.quotas port with quotaEvent := .ofNat (permits + 1) }).reserve i call

/-- Behind the first loop. -/
def checkQuota (s : State ι) (i : ι) (call : Call) (port : Nat) : State ι :=
  s.quotaLoop i call port (s.quotas port).quotaEvent.toNat

/-- The first loop, which takes a permit of `data_quota_event` a turn without waiting. -/
def dataLoop (s : State ι) (i : ι) (call : Call) (port : Nat) : Nat → State ι
  | 0 =>
    let s := { s with dataQuotaEvent := 0 }
    if s.dataStalled call then { s with locked := false }.goto i (.dataWait call port)
    else s.checkQuota i call port
  | permits + 1 =>
    if s.dataStalled call then s.dataLoop i call port permits
    else { s with dataQuotaEvent := .ofNat (permits + 1) }.checkQuota i call port

/-- `slot_mutex` has been taken at the beginning of `queue_message`. -/
def sendLocked (s : State ι) (i : ι) (call : Call) : State ι :=
  match call.msg with
  | .data port =>
    if s.closing port then s.unlock i else s.dataLoop i call port s.dataQuotaEvent.toNat
  | _ => s.reserve i call

/-- `slot_mutex` has been taken behind the wait for `data_quota_event`. -/
def dataLocked (s : State ι) (i : ι) (call : Call) (port : Nat) : State ι :=
  if s.txEndIndex call = s.previousDataIndex ∨ s.dataUseCount < s.dataQuota then
    -- pass the signal on to other waiters
    { s with dataQuotaEvent := s.dataQuotaEvent + 1 }.checkQuota i call port
  else s.dataLoop i call port s.dataQuotaEvent.toNat

/-- `slot_mutex` has been taken behind the wait for `quota_event`. -/
def quotaLocked (s : State ι) (i : ι) (call : Call) (port : Nat) : State ι :=
  if s.srvstate port ≠ .open then s.unlock i else s.checkQuota i call port

/-- The rest of `mark_service_closing_internal`. -/
def markEnd (s : State ι) (port : Nat) : State ι :=
  let q := s.quotas port
  { s.setQuota port { q with quotaEvent := q.quotaEvent + 1 } with
    marked := Function.update s.marked port (s.closing port) }

/-- `slot_mutex` has been taken in `mark_service_closing_internal`. -/
def markLocked (s : State ι) (i : ι) (port : Nat) : State ι := (s.unlock i).markEnd port

/-- The service is new at its port, or listens again. -/
def reopen (s : State ι) (port : Nat) : State ι :=
  { s with
    closing := Function.update s.closing port false
    marked := Function.update s.marked port false
    closeSent := Function.update s.closeSent port false }

def addService (s : State ι) (port : Nat) (srvstate : SrvState) : State ι :=
  let q := s.quotas port
  let q := { q with slotQuota := s.defaultSlotQuota, messageQuota := s.defaultMessageQuota }
  let q :=
    if q.slotUseCount = 0 then { q with previousTxIndex := txIndex s.localTxPos - 1 } else q
  { (s.setQuota port q).reopen port with srvstate := Function.update s.srvstate port srvstate }

/-- The value of an option, of which zero asks for the default. -/
def optionValue (value : Int) (default : UInt16) : Int :=
  if value = 0 then default.toNat else value

/-- `VCHIQ_SERVICE_OPTION_SLOT_QUOTA`. -/
def setSlotQuota (s : State ι) (port : Nat) (value : Int) : State ι :=
  let q := s.quotas port
  let value := optionValue value s.defaultSlotQuota
  if q.slotUseCount.toNat ≤ value ∧ value < 65535 then
    s.setQuota port
      { q with
        slotQuota := .ofNat value.toNat
        quotaEvent :=
          if q.messageUseCount ≤ q.messageQuota then q.quotaEvent + 1 else q.quotaEvent }
  else s

/-- `VCHIQ_SERVICE_OPTION_MESSAGE_QUOTA`. -/
def setMessageQuota (s : State ι) (port : Nat) (value : Int) : State ι :=
  let q := s.quotas port
  let value := optionValue value s.defaultMessageQuota
  if q.messageUseCount.toNat ≤ value ∧ value < 65535 then
    s.setQuota port
      { q with
        messageQuota := .ofNat value.toNat
        quotaEvent := if q.slotUseCount ≤ q.slotQuota then q.quotaEvent + 1 else q.quotaEvent }
  else s

/-- One look of `mutex_lock` at `slot_mutex`. -/
def lock (s : State ι) (i : ι) (wait : Pc) (next : State ι → State ι) : State ι :=
  if s.locked then s.goto i wait else next { s with locked := true }

def resume (s : State ι) (i : ι) : State ι :=
  match s.pc i with
  | .idle | .holds => s
  | .holdLock => s.lock i .holdLock (·.goto i .holds)
  | .sendLock call => s.lock i (.sendLock call) (·.sendLocked i call)
  | .dataWait call port =>
    if s.dataQuotaEvent = 0 then s
    else
      { s with dataQuotaEvent := s.dataQuotaEvent - 1 }.lock i (.dataLock call port)
        (·.dataLocked i call port)
  | .dataLock call port => s.lock i (.dataLock call port) (·.dataLocked i call port)
  | .quotaWait call port =>
    let q := s.quotas port
    if q.quotaEvent = 0 then s
    else
      let s := s.setQuota port { q with quotaEvent := q.quotaEvent - 1 }
      if s.closing port then s.goto i .idle
      else s.lock i (.quotaLock call port) (·.quotaLocked i call port)
  | .quotaLock call port => s.lock i (.quotaLock call port) (·.quotaLocked i call port)
  | .slotWait call =>
    match s.slotAvailable with
    | 0 => s
    | slotAvailable + 1 => { s with slotAvailable }.reserved i call
  | .markLock port => s.lock i (.markLock port) (·.markLocked i port)

/-- A thread that has the mutex and asks for it again waits for ever. While the slot
handler is in the pause it has sent, it does not give the mutex back. -/
def step (s : State ι) : Event ι → State ι
  | .queueMessage i call =>
    if call.proper then
      match s.pc i with
      | .idle =>
        if call.noMutexLock then s else s.lock i (.sendLock call) (·.sendLocked i call)
      | .holds =>
        if call.noMutexLock && (call.noMutexUnlock || !s.pauseSent) then s.reserve i call else s
      | _ => s
    else s
  | .mark i port shThread =>
    if (s.pc i = .idle ∨ s.pc i = .holds) ∧ (shThread → i = s.slotHandler) then
      let s := { s with closing := Function.update s.closing port true }
      if shThread && s.pauseSent then s.markEnd port
      else s.lock i (.markLock port) (·.markLocked i port)
    else s
  | .resume i => s.resume i
  | .takeMutex i =>
    match s.pc i with
    | .idle => s.lock i .holdLock (·.goto i .holds)
    | _ => s
  | .giveMutex i =>
    match s.pc i with
    | .holds => { s.unlock i with pauseSent := s.pauseSent && i ≠ s.slotHandler }
    | _ => s
  | .pauseSent =>
    match s.pc s.slotHandler with
    | .holds => { s with pauseSent := true }
    | _ => s
  | .paused => { s with pauseSent := false }
  | .freeSlot ports =>
    let found := ports ≠ []
    { s with
      quotas := freeMessages [] s.quotas ports
      dataUseCount := if found ∧ 0 < s.dataUseCount then s.dataUseCount - 1 else s.dataUseCount
      dataQuotaEvent :=
        if found ∧ s.dataUseCount = s.dataQuota then s.dataQuotaEvent + 1 else s.dataQuotaEvent
      slotAvailable := s.slotAvailable + 1 }
  | .setState port srvstate => { s with srvstate := Function.update s.srvstate port srvstate }
  | .listen port => s.reopen port
  | .addService port srvstate => s.addService port srvstate
  | .setSlotQuota port value => s.setSlotQuota port value
  | .setMessageQuota port value => s.setMessageQuota port value

abbrev run (s : State ι) (es : List (Event ι)) : State ι := Machine.run step s es

/-! ## The property -/

/-- What a step adds to the stream is no DATA of a service that is marked as closing. -/
def Quiet (s s' : State ι) : Prop :=
  ∃ sent, s'.stream = s.stream ++ sent ∧
    ∀ port, .data port ∈ sent → s.marked port = false ∧ s.closeSent port = false

/-- `mark_service_closing_internal` is the end of a service's DATA in every run. -/
def NoDataAfterClosing (ι : Type*) [DecidableEq ι] : Prop :=
  ∀ (slotHandler : ι) (slots : Nat) (es : List (Event ι)),
    Machine.Along step (fun s e => Quiet s (s.step e)) (boot slotHandler slots) es

/-- No sender gets `slot_mutex` back behind a wait for quota when its service has been
marked as closing in the meantime; behind the wait for the quota of the service, only while
the service is `OPEN`. -/
def returnsOpen (s : State ι) : Event ι → Bool
  | .resume i =>
    s.locked ||
      match s.pc i with
      | .dataWait _ port => s.dataQuotaEvent = 0 || !s.marked port
      | .dataLock _ port => !s.marked port
      | .quotaLock _ port => !s.marked port || s.srvstate port ≠ .open
      | _ => true
  | _ => true

end State

/-! ## Who has the mutex -/

/-- The slot handler's message in the pause that it has sent. -/
def Call.keeps (call : Call) : Bool := call.proper && call.noMutexLock && call.noMutexUnlock

theorem Call.not_data_of_keeps {call : Call} (h : call.keeps) (port : Nat) :
    call.msg ≠ .data port := by
  intro hmsg
  simp only [Call.keeps, Call.proper, hmsg, Bool.and_eq_true, Bool.not_eq_true'] at h
  rw [h.1.1.1] at h
  exact Bool.false_ne_true h.1.2

theorem Call.noMutexLock_of_keeps {call : Call} (h : call.keeps) : call.noMutexLock := by
  simp only [Call.keeps, Bool.and_eq_true] at h
  exact h.1.2

theorem Call.noMutexUnlock_of_keeps {call : Call} (h : call.keeps) : call.noMutexUnlock := by
  simp only [Call.keeps, Bool.and_eq_true] at h
  exact h.2

/-- The thread does not give the mutex back when it is done with its message. -/
def Pc.keeps : Pc → Bool
  | .holds => true
  | .slotWait call => call.keeps
  | _ => false

/-- Behind the beginning of `queue_message` the port is the message's. -/
def Pc.Sends : Pc → Prop
  | .dataWait call port | .dataLock call port | .quotaWait call port | .quotaLock call port =>
    call.msg = .data port
  | _ => True

namespace State

/-- `owner` may be inside. -/
structure Owned (s : State ι) (owner : Option ι) : Prop where
  inside : ∀ i, (s.pc i).inside → owner = some i
  free : s.locked = false → owner = none
  paused : s.pauseSent → s.locked ∧ ∀ i, owner = some i → i = s.slotHandler ∧ (s.pc i).keeps
  closing : ∀ port, s.marked port → s.closing port
  sent : ∀ port, s.closeSent port → s.marked port
  sends : ∀ i, (s.pc i).Sends
  /-- A sender that waits for a slot keeps the mutex, which closing has to pass through. -/
  unmarked : ∀ i call port, s.pc i = .slotWait call → call.msg = .data port →
    s.marked port = false

/-- What says who has the mutex, and what is closed. -/
def control (s : State ι) :=
  (s.slotHandler, s.locked, s.pauseSent, s.pc, s.closing, s.marked, s.closeSent)

/-- The step is quiet and some thread, or none, has the mutex behind it. -/
def Good (s s' : State ι) : Prop := Quiet s s' ∧ ∃ owner, s'.Owned owner

variable {s : State ι} {owner : Option ι} {i : ι} {call : Call} {port : Nat}

omit [DecidableEq ι] in
theorem quiet_of_stream {s' : State ι} (h : s'.stream = s.stream) : Quiet s s' :=
  ⟨[], by simp [h], by simp⟩

theorem update_mono {f g : Nat → Bool} {b c : Bool} (h : ∀ p, f p → g p) (hport : b → c)
    (port p : Nat) (hp : Function.update f port b p) : Function.update g port c p := by
  by_cases hpp : p = port
  · rw [hpp, Function.update_self] at hp ⊢
    exact hport hp
  · rw [Function.update_of_ne hpp] at hp ⊢
    exact h p hp

/-- A value is replaced by that of the greater function. -/
theorem update_le {f g : Nat → Bool} (h : ∀ p, f p → g p) (port p : Nat)
    (hp : Function.update f port (g port) p) : g p := by
  simpa using update_mono h (fun hg => hg) port p hp

omit [DecidableEq ι] in
theorem countData_control (s : State ι) (port : Nat) :
    (s.countData port).control = s.control := by
  unfold countData
  dsimp only
  split <;> rfl

omit [DecidableEq ι] in
theorem put_stream (s : State ι) (call : Call) :
    (s.put call).stream = s.stream ++ [call.msg] ∧ (s.put call).pauseSent = s.pauseSent := by
  unfold put
  split
  case h_1 port _ =>
    unfold countData
    dsimp only
    split <;> exact ⟨rfl, rfl⟩
  all_goals exact ⟨rfl, rfl⟩

namespace Owned

omit [DecidableEq ι] in
theorem same (h : s.Owned owner) {t : State ι} (ht : t.control = s.control) : t.Owned owner := by
  simp only [control, Prod.mk.injEq] at ht
  obtain ⟨hhandler, hlocked, hpause, hpc, hclosing, hmarked, hsent⟩ := ht
  refine ⟨?_, ?_, ?_, ?_, ?_, ?_, ?_⟩
  · rw [hpc]; exact h.inside
  · rw [hlocked]; exact h.free
  · rw [hpause, hlocked, hhandler, hpc]; exact h.paused
  · rw [hmarked, hclosing]; exact h.closing
  · rw [hsent, hmarked]; exact h.sent
  · rw [hpc]; exact h.sends
  · rw [hpc, hmarked]; exact h.unmarked

/-- A thread moves, and may take the mutex with it or leave it. -/
theorem goto (h : s.Owned owner) {owner' : Option ι} {locked : Bool} {pc : Pc}
    (hothers : ∀ j, j ≠ i → (owner = some j ↔ owner' = some j))
    (hinside : pc.inside → owner' = some i) (hfree : locked = false → owner' = none)
    (hpaused : s.pauseSent → locked ∧ (owner' = some i → i = s.slotHandler ∧ pc.keeps))
    (hsends : pc.Sends)
    (hunmarked : ∀ call port, pc = .slotWait call → call.msg = .data port →
      s.marked port = false) :
    ({ s with locked }.goto i pc).Owned owner' := by
  refine ⟨fun j hj => ?_, hfree, fun hp => ⟨(hpaused hp).1, fun j hj => ?_⟩, h.closing, h.sent,
    fun j => ?_, fun j call port hj => ?_⟩ <;> by_cases hji : j = i
  · rw [hji] at hj ⊢
    exact hinside (by simpa using hj)
  · rw [goto_of_ne hji] at hj
    exact (hothers j hji).1 (h.inside j hj)
  · subst hji
    rw [goto_self]
    exact (hpaused hp).2 hj
  · rw [goto_of_ne hji]
    exact (h.paused hp).2 j ((hothers j hji).2 hj)
  · rw [hji, goto_self]
    exact hsends
  · rw [goto_of_ne hji]
    exact h.sends j
  · rw [hji, goto_self] at hj
    exact hunmarked call port hj
  · rw [goto_of_ne hji] at hj
    exact h.unmarked j call port hj

/-- A thread waits, or is done, without the mutex. -/
theorem goto_outside (h : s.Owned owner) {pc : Pc} (hout : pc.inside = false)
    (hsends : pc.Sends) : ∃ owner, (s.goto i pc).Owned owner := by
  have hwait (call : Call) (port : Nat) (hpc : pc = .slotWait call) (_ : call.msg = .data port) :
      s.marked port = false := by
    rw [hpc] at hout
    cases hout
  by_cases hi : owner = some i
  · refine ⟨none, h.goto (fun j hji => ?_) (by simp [hout]) (fun _ => rfl) (fun hp => ?_) hsends
      hwait⟩
    · simp [hi, Ne.symm hji]
    · exact ⟨(h.paused hp).1, by simp⟩
  · refine ⟨owner, h.goto (fun _ _ => .rfl) (by simp [hout]) h.free (fun hp => ?_) hsends hwait⟩
    exact ⟨(h.paused hp).1, fun h => absurd h hi⟩

/-- The thread with the mutex goes on with it. -/
theorem goto_inside (h : s.Owned (some i)) {pc : Pc} (hkeeps : s.pauseSent → pc.keeps)
    (hsends : pc.Sends) (hunmarked : ∀ call port, pc = .slotWait call → call.msg = .data port →
      s.marked port = false) : (s.goto i pc).Owned (some i) := by
  refine h.goto (fun _ _ => .rfl) (fun _ => rfl) h.free (fun hp => ?_) hsends hunmarked
  exact ⟨(h.paused hp).1, fun _ => ⟨((h.paused hp).2 i rfl).1, hkeeps hp⟩⟩

/-- The thread with the mutex gives it back. -/
theorem goto_free (h : s.Owned (some i)) (hp : s.pauseSent = false) {pc : Pc}
    (hout : pc.inside = false) (hsends : pc.Sends) :
    ({ s with locked := false }.goto i pc).Owned none := by
  refine h.goto (fun j hji => ?_) (by simp [hout]) (fun _ => rfl) (by simp [hp]) hsends ?_
  · simp [Ne.symm hji]
  · rintro call port rfl
    cases hout

theorem unlock (h : s.Owned (some i)) (hp : s.pauseSent = false) : (s.unlock i).Owned none :=
  h.goto_free hp rfl trivial

end Owned

/-! ## Sending under the mutex -/

/-- The thread has the mutex for a message that may be sent. -/
structure Sending (s : State ι) (i : ι) (call : Call) : Prop where
  owned : s.Owned (some i)
  keeps : s.pauseSent → call.keeps
  unmarked : ∀ port, call.msg = .data port → s.marked port = false

namespace Sending

omit [DecidableEq ι] in
theorem same (h : s.Sending i call) {t : State ι} (ht : t.control = s.control) :
    t.Sending i call := by
  have howned := h.owned.same ht
  simp only [control, Prod.mk.injEq] at ht
  obtain ⟨-, -, hpause, -, -, hmarked, -⟩ := ht
  exact ⟨howned, hpause ▸ h.keeps, hmarked ▸ h.unmarked⟩

omit [DecidableEq ι] in
theorem not_paused (h : s.Sending i call) (hcall : call.noMutexUnlock = false ∨
    call.noMutexLock = false ∨ ∃ port, call.msg = .data port) : s.pauseSent = false := by
  cases hp : s.pauseSent with
  | false => rfl
  | true =>
    have hkeeps := h.keeps hp
    obtain hcall | hcall | ⟨port, hcall⟩ := hcall
    · rw [call.noMutexUnlock_of_keeps hkeeps] at hcall; cases hcall
    · rw [call.noMutexLock_of_keeps hkeeps] at hcall; cases hcall
    · exact absurd hcall (call.not_data_of_keeps hkeeps port)

omit [DecidableEq ι] in
theorem quiet (h : s.Sending i call) {s' : State ι} (hs' : s'.stream = s.stream ++ [call.msg]) :
    Quiet s s' := by
  refine ⟨[call.msg], hs', fun port hport => ?_⟩
  have hmarked := h.unmarked port (List.mem_singleton.1 hport).symm
  refine ⟨hmarked, Bool.eq_false_iff.2 fun hsent => ?_⟩
  rw [h.owned.sent port hsent] at hmarked
  cases hmarked

omit [DecidableEq ι] in
theorem put (h : s.Sending i call) : (s.put call).Owned (some i) := by
  have howned := h.owned
  unfold State.put
  split
  case h_1 port _ => exact howned.same (countData_control s port)
  case h_2 port _ =>
    exact ⟨howned.inside, howned.free, howned.paused, howned.closing,
      update_le howned.sent port, howned.sends, howned.unmarked⟩
  case h_3 => exact howned.same rfl

theorem append (h : s.Sending i call) : Good s (s.append i call) := by
  have hput := h.put
  obtain ⟨hstream, hp⟩ := put_stream s call
  unfold State.append
  split
  case isTrue hunlock =>
    exact ⟨h.quiet hstream, _, hput.goto_inside (fun _ => rfl) trivial nofun⟩
  case isFalse hunlock =>
    have hnot := h.not_paused (.inl (by simpa using hunlock))
    exact ⟨h.quiet hstream, _, hput.unlock (hp.trans hnot)⟩

theorem reserved (h : s.Sending i call) : Good s (s.reserved i call) := by
  have hpos : Sending { s with localTxPos := s.localTxPos + call.stride } i call := h.same rfl
  exact hpos.append

theorem noSpace (h : s.Sending i call) : Good s (s.noSpace i call) := by
  unfold State.noSpace
  split
  case isTrue hlock =>
    exact ⟨quiet_of_stream rfl, _, h.owned.goto_inside (fun _ => rfl) trivial nofun⟩
  case isFalse hlock =>
    have hnot := h.not_paused (.inr (.inl (by simpa using hlock)))
    exact ⟨quiet_of_stream rfl, _, h.owned.unlock hnot⟩

theorem reserve (h : s.Sending i call) : Good s (s.reserve i call) := by
  have hpos : Sending { s with localTxPos := s.messagePos call } i call := h.same rfl
  unfold State.reserve
  dsimp only
  split
  case isTrue =>
    split
    case h_1 =>
      split
      case isTrue =>
        refine ⟨quiet_of_stream rfl, _, hpos.owned.goto_inside h.keeps trivial ?_⟩
        rintro _ port ⟨⟩
        exact h.unmarked port
      case isFalse => exact hpos.noSpace
    case h_2 slotAvailable _ =>
      have htaken : Sending { s with localTxPos := s.messagePos call, slotAvailable } i call :=
        h.same rfl
      exact htaken.reserved
  case isFalse => exact hpos.reserved

/-- The loop does not give the mutex back before it is known that the thread waits. -/
theorem quotaLoop (h : s.Sending i call) (hport : call.msg = .data port) (permits : Nat) :
    Good s (s.quotaLoop i call port permits) := by
  have hnot := h.not_paused (.inr (.inr ⟨port, hport⟩))
  have hset (q : Quota) : (s.setQuota port q).Sending i call := h.same rfl
  induction permits with
  | zero =>
    unfold State.quotaLoop
    dsimp only
    split
    case isTrue =>
      refine ⟨quiet_of_stream rfl, none, (hset _).owned.goto_free hnot rfl ?_⟩
      exact hport
    case isFalse => exact (hset _).reserve
  | succ permits ih =>
    unfold State.quotaLoop
    split
    case isTrue =>
      split
      case isTrue => exact ⟨quiet_of_stream rfl, none, (hset _).owned.unlock hnot⟩
      case isFalse => exact ih
    case isFalse => exact (hset _).reserve

theorem checkQuota (h : s.Sending i call) (hport : call.msg = .data port) :
    Good s (s.checkQuota i call port) := h.quotaLoop hport _

theorem dataLoop (h : s.Sending i call) (hport : call.msg = .data port) (permits : Nat) :
    Good s (s.dataLoop i call port permits) := by
  have hnot := h.not_paused (.inr (.inr ⟨port, hport⟩))
  have hset (dataQuotaEvent : UInt32) : Sending { s with dataQuotaEvent } i call := h.same rfl
  induction permits with
  | zero =>
    unfold State.dataLoop
    dsimp only
    split
    case isTrue =>
      refine ⟨quiet_of_stream rfl, none, (hset 0).owned.goto_free hnot rfl ?_⟩
      exact hport
    case isFalse => exact (hset 0).checkQuota hport
  | succ permits ih =>
    unfold State.dataLoop
    split
    case isTrue => exact ih
    case isFalse => exact (hset _).checkQuota hport

theorem dataLocked (h : s.Sending i call) (hport : call.msg = .data port) :
    Good s (s.dataLocked i call port) := by
  unfold State.dataLocked
  split
  case isTrue =>
    have hset : Sending { s with dataQuotaEvent := s.dataQuotaEvent + 1 } i call := h.same rfl
    exact hset.checkQuota hport
  case isFalse => exact h.dataLoop hport _

end Sending

/-! ## Steps -/

namespace Owned

omit [DecidableEq ι] in
theorem unmarked_of_closing (h : s.Owned owner) (hport : s.closing port = false) :
    s.marked port = false := by
  cases hmarked : s.marked port with
  | false => rfl
  | true => rw [h.closing port hmarked] at hport; cases hport

theorem sendLocked (h : s.Owned (some i)) (hp : s.pauseSent = false) :
    Good s (s.sendLocked i call) := by
  unfold State.sendLocked
  split
  case h_1 port hmsg =>
    split
    case isTrue => exact ⟨quiet_of_stream rfl, _, h.unlock hp⟩
    case isFalse hopen =>
      have hsending : s.Sending i call := by
        refine ⟨h, by simp [hp], fun p hmsg' => ?_⟩
        obtain rfl : port = p := Msg.data.inj (hmsg.symm.trans hmsg')
        exact h.unmarked_of_closing (by simpa using hopen)
      exact hsending.dataLoop hmsg _
  case h_2 hmsg =>
    have hsending : s.Sending i call := ⟨h, by simp [hp], fun p hmsg' => absurd hmsg' (hmsg p)⟩
    exact hsending.reserve

omit [DecidableEq ι] in
/-- Behind a wait for quota the thread may send when its service is not marked. -/
theorem sending (h : s.Owned (some i)) (hp : s.pauseSent = false) (hmsg : call.msg = .data port)
    (hopen : s.marked port = false) : s.Sending i call := by
  refine ⟨h, by simp [hp], fun p hmsg' => ?_⟩
  obtain rfl : port = p := Msg.data.inj (hmsg.symm.trans hmsg')
  exact hopen

theorem quotaLocked (h : s.Owned (some i)) (hp : s.pauseSent = false)
    (hmsg : call.msg = .data port) (hopen : s.srvstate port = .open → s.marked port = false) :
    Good s (s.quotaLocked i call port) := by
  unfold State.quotaLocked
  split
  case isTrue => exact ⟨quiet_of_stream rfl, _, h.unlock hp⟩
  case isFalse hstate =>
    exact (h.sending hp hmsg (hopen (by simpa using hstate))).checkQuota hmsg

omit [DecidableEq ι] in
/-- Nobody waits for a slot with DATA, as when the mutex is free. -/
theorem markEnd (h : s.Owned owner)
    (hnone : ∀ j call port, s.pc j = .slotWait call → call.msg ≠ .data port) (port : Nat) :
    (s.markEnd port).Owned owner := by
  refine ⟨h.inside, h.free, h.paused, update_le h.closing port, fun p hp => ?_, h.sends,
    fun j call p hpc hmsg => absurd hmsg (hnone j call p hpc)⟩
  have hport : s.closeSent port → s.closing port := fun hsent => h.closing _ (h.sent _ hsent)
  have hmono := update_mono h.sent hport port p
  rw [Function.update_eq_self] at hmono
  exact hmono hp

theorem markLocked (h : s.Owned (some i)) (hp : s.pauseSent = false) (port : Nat) :
    Good s (s.markLocked i port) := by
  have hfree := h.unlock hp
  refine ⟨quiet_of_stream rfl, none, hfree.markEnd (fun j call p hpc hmsg => ?_) port⟩
  have hnobody := hfree.inside j (by rw [hpc]; rfl)
  cases hnobody

omit [DecidableEq ι] in
theorem reopen (h : s.Owned owner) (port : Nat) : (s.reopen port).Owned owner := by
  have hfalse : false → false := id
  refine ⟨h.inside, h.free, h.paused, update_mono h.closing hfalse port,
    update_mono h.sent hfalse port, h.sends, fun j call p hpc hmsg => ?_⟩
  have hmarked := h.unmarked j call p hpc hmsg
  change Function.update s.marked port false p = false
  by_cases hpp : p = port
  · rw [hpp, Function.update_self]
  · rw [Function.update_of_ne hpp, hmarked]

/-- A thread looks at `slot_mutex`. -/
theorem lock (h : s.Owned owner) {wait : Pc} {next : State ι → State ι}
    (hout : wait.inside = false) (hsends : wait.Sends)
    (hnext : s.locked = false → ∀ t : State ι, t = { s with locked := true } →
      t.Owned (some i) → t.pauseSent = false → Good t (next t)) :
    Good s (s.lock i wait next) := by
  unfold State.lock
  split
  case isTrue => exact ⟨quiet_of_stream rfl, h.goto_outside hout hsends⟩
  case isFalse hlocked =>
    have hlocked : s.locked = false := by simpa using hlocked
    have hp : s.pauseSent = false := by
      cases hp : s.pauseSent with
      | false => rfl
      | true => rw [(h.paused hp).1] at hlocked; cases hlocked
    have howned : Owned { s with locked := true } (some i) := by
      refine ⟨fun j hj => ?_, nofun, by simp [hp], h.closing, h.sent, h.sends, h.unmarked⟩
      have hj := h.inside j hj
      rw [h.free hlocked] at hj
      cases hj
    exact hnext hlocked _ rfl howned hp

omit [DecidableEq ι] in
/-- A thread that has the mutex sends a message of its own, which is no DATA. -/
theorem sending_of_holds (h : s.Owned owner) (hs : s.pc i = .holds) (hproper : call.proper)
    (hflags : call.noMutexLock && (call.noMutexUnlock || !s.pauseSent)) :
    s.Sending i call := by
  obtain rfl : owner = some i := h.inside i (by rw [hs]; rfl)
  rw [Bool.and_eq_true] at hflags
  refine ⟨h, fun hp => ?_, fun port hmsg => ?_⟩
  · have hunlock : call.noMutexUnlock := by simpa [hp] using hflags.2
    simp [Call.keeps, hproper, hflags.1, hunlock]
  · simp [Call.proper, hmsg, hflags.1] at hproper

omit [DecidableEq ι] in
/-- The sender that waits for a slot. -/
theorem sending_of_slotWait (h : s.Owned owner) (hs : s.pc i = .slotWait call) :
    s.Sending i call := by
  obtain rfl : owner = some i := h.inside i (by rw [hs]; rfl)
  refine ⟨h, fun hp => ?_, fun port => h.unmarked i call port hs⟩
  have hkeeps := ((h.paused hp).2 i rfl).2
  rwa [hs] at hkeeps

theorem resume (h : s.Owned owner) (hok : s.returnsOpen (.resume i)) : Good s (s.resume i) := by
  have hpc := h.sends i
  dsimp only [returnsOpen] at hok
  unfold State.resume
  cases hs : s.pc i with
  | idle | holds => exact ⟨quiet_of_stream rfl, _, h⟩
  | holdLock =>
    refine h.lock rfl trivial fun _ t _ ht hp => ⟨quiet_of_stream rfl, some i, ?_⟩
    exact ht.goto_inside (fun _ => rfl) trivial nofun
  | sendLock call => exact h.lock rfl trivial fun _ t _ ht hp => ht.sendLocked hp
  | dataWait call port =>
    rw [hs] at hpc hok
    dsimp only
    split
    case isTrue => exact ⟨quiet_of_stream rfl, _, h⟩
    case isFalse hevent =>
      have hset : Owned { s with dataQuotaEvent := s.dataQuotaEvent - 1 } owner := h.same rfl
      have hlock : Good { s with dataQuotaEvent := s.dataQuotaEvent - 1 }
          (State.lock { s with dataQuotaEvent := s.dataQuotaEvent - 1 } i (.dataLock call port)
            (·.dataLocked i call port)) := by
        refine hset.lock rfl hpc fun hlocked t ht howned hp => ?_
        have hlocked : s.locked = false := hlocked
        have hopen : t.marked port = false := by simpa [ht, hlocked, hevent] using hok
        exact (howned.sending hp hpc hopen).dataLocked hpc
      exact hlock
  | dataLock call port =>
    rw [hs] at hpc hok
    refine h.lock rfl hpc fun hlocked t ht howned hp => ?_
    have hopen : t.marked port = false := by simpa [ht, hlocked] using hok
    exact (howned.sending hp hpc hopen).dataLocked hpc
  | quotaWait call port =>
    rw [hs] at hpc
    dsimp only
    split
    case isTrue => exact ⟨quiet_of_stream rfl, _, h⟩
    case isFalse =>
      have hset (q : Quota) : (s.setQuota port q).Owned owner := h.same rfl
      split
      case isTrue => exact ⟨quiet_of_stream rfl, (hset _).goto_outside rfl trivial⟩
      case isFalse hclosing =>
        refine (hset _).lock rfl hpc fun _ t ht howned hp => ?_
        refine howned.quotaLocked hp hpc fun _ => ?_
        subst ht
        exact (hset _).unmarked_of_closing (by simpa using hclosing)
  | quotaLock call port =>
    rw [hs] at hpc hok
    refine h.lock rfl hpc fun hlocked t ht howned hp => ?_
    refine howned.quotaLocked hp hpc fun hopen => ?_
    subst ht
    have hstate : s.srvstate port = .open := hopen
    simpa [hlocked, hstate] using hok
  | slotWait call =>
    dsimp only
    split
    case h_1 => exact ⟨quiet_of_stream rfl, _, h⟩
    case h_2 slotAvailable _ =>
      have htaken : Sending { s with slotAvailable } i call := (h.sending_of_slotWait hs).same rfl
      exact htaken.reserved
  | markLock port => exact h.lock rfl trivial fun _ t _ ht hp => ht.markLocked hp port

omit [DecidableEq ι] in
theorem unpause (h : s.Owned owner) : Owned { s with pauseSent := false } owner :=
  ⟨h.inside, h.free, nofun, h.closing, h.sent, h.sends, h.unmarked⟩

theorem step (h : s.Owned owner) {e : Event ι} (hok : s.returnsOpen e) : Good s (s.step e) := by
  have hstay : Good s s := ⟨quiet_of_stream rfl, _, h⟩
  unfold State.step
  cases e with
  | queueMessage i call =>
    dsimp only
    split
    case isTrue hproper =>
      split
      case h_1 =>
        split
        case isTrue => exact hstay
        case isFalse => exact h.lock rfl trivial fun _ t _ ht hp => ht.sendLocked hp
      case h_2 hs =>
        split
        case isTrue hflags =>
          exact (h.sending_of_holds hs hproper hflags).reserve
        case isFalse => exact hstay
      case h_3 => exact hstay
    case isFalse => exact hstay
  | mark i port shThread =>
    dsimp only
    split
    case isTrue hi =>
      have hset : Owned { s with closing := Function.update s.closing port true } owner := by
        refine ⟨h.inside, h.free, h.paused, fun p hp => ?_, h.sent, h.sends, h.unmarked⟩
        have hmono := update_mono (b := s.marked port) h.closing (fun _ => rfl) port p
        rw [Function.update_eq_self] at hmono
        exact hmono hp
      split
      case isTrue hpaused =>
        rw [Bool.and_eq_true] at hpaused
        refine ⟨quiet_of_stream rfl, owner, hset.markEnd (fun j call p hpc hmsg => ?_) port⟩
        have hkeeps := ((h.paused hpaused.2).2 j (h.inside j (by rw [hpc]; rfl))).2
        rw [hpc] at hkeeps
        exact call.not_data_of_keeps hkeeps p hmsg
      case isFalse =>
        exact hset.lock rfl trivial fun _ t _ ht hp => ht.markLocked hp port
    case isFalse => exact hstay
  | resume i => exact h.resume hok
  | takeMutex i =>
    dsimp only
    split
    case h_1 =>
      refine h.lock rfl trivial fun _ t _ ht hp => ⟨quiet_of_stream rfl, some i, ?_⟩
      exact ht.goto_inside (fun _ => rfl) trivial nofun
    case h_2 => exact hstay
  | giveMutex i =>
    dsimp only
    split
    case h_1 hs =>
      obtain rfl : owner = some i := h.inside i (by rw [hs]; rfl)
      have hnot : (s.pauseSent && decide (i ≠ s.slotHandler)) = false := by
        cases hp : s.pauseSent with
        | false => rfl
        | true => simp [((h.paused hp).2 i rfl).1]
      rw [hnot]
      exact ⟨quiet_of_stream rfl, none, h.unpause.unlock rfl⟩
    case h_2 => exact hstay
  | pauseSent =>
    dsimp only
    split
    case h_1 hs =>
      have howner := h.inside s.slotHandler (by rw [hs]; rfl)
      refine ⟨quiet_of_stream rfl, owner, h.inside, h.free, fun _ => ⟨?_, fun i hi => ?_⟩,
        h.closing, h.sent, h.sends, h.unmarked⟩
      · cases hlocked : s.locked with
        | true => rfl
        | false => rw [h.free hlocked] at howner; cases howner
      · obtain rfl : s.slotHandler = i := Option.some.inj (howner.symm.trans hi)
        exact ⟨rfl, by change (s.pc s.slotHandler).keeps; rw [hs]; rfl⟩
    case h_2 => exact hstay
  | paused =>
    exact ⟨quiet_of_stream rfl, owner, h.unpause⟩
  | freeSlot ports => exact ⟨quiet_of_stream rfl, owner, h.same rfl⟩
  | setState port srvstate => exact ⟨quiet_of_stream rfl, owner, h.same rfl⟩
  | listen port => exact ⟨quiet_of_stream rfl, owner, h.reopen port⟩
  | addService port srvstate => exact ⟨quiet_of_stream rfl, owner, (h.reopen port).same rfl⟩
  | setSlotQuota port value =>
    dsimp only
    unfold setSlotQuota
    dsimp only
    split
    case isTrue => exact ⟨quiet_of_stream rfl, owner, h.same rfl⟩
    case isFalse => exact hstay
  | setMessageQuota port value =>
    dsimp only
    unfold setMessageQuota
    dsimp only
    split
    case isTrue => exact ⟨quiet_of_stream rfl, owner, h.same rfl⟩
    case isFalse => exact hstay

end Owned

omit [DecidableEq ι] in
theorem owned_boot (slotHandler : ι) (slots : Nat) : (boot slotHandler slots).Owned none :=
  ⟨nofun, fun _ => rfl, nofun, nofun, nofun, fun _ => trivial, nofun⟩

/-- No DATA follows in any run in which no sender gets the mutex back behind a wait for
quota once its service has been marked. -/
theorem no_data_after_closing (slotHandler : ι) (slots : Nat) {es : List (Event ι)}
    (hok : Machine.Along step (returnsOpen · ·) (boot slotHandler slots) es) :
    Machine.Along step (fun s e => Quiet s (s.step e)) (boot slotHandler slots) es := by
  refine hok.strengthen (I := fun s => ∃ owner, s.Owned owner) ?_ ⟨none, owned_boot _ _⟩
  rintro s e ⟨owner, h⟩ hopen
  exact h.step hopen

/-- A full slot of DATA, and one more message, which waits as the data quota is one slot. -/
def stalledSend : List (Event (Fin 2)) :=
  [.addService 0 .opening, .setState 0 .open, .queueMessage 0 ⟨.data 0, 4096, true, false, false⟩,
    .queueMessage 0 ⟨.data 0, 16, true, false, false⟩]

/-- The service is closed behind the second message, and a third one is refused. -/
theorem no_data_after_closing_refused :
    Machine.Along step (fun s e => Quiet s (s.step e)) (boot 1 2)
      (stalledSend ++ [.freeSlot [0], .resume 0, .mark 1 0 true,
        .queueMessage 0 ⟨.data 0, 16, true, false, false⟩]) :=
  no_data_after_closing 1 2 (by decide +kernel)

/-- The service is closed while the second message waits. -/
def closedSend : State (Fin 2) := run (boot 1 2) (stalledSend ++ [.mark 1 0 true, .freeSlot [0]])

theorem not_noDataAfterClosing : ¬ NoDataAfterClosing (Fin 2) := by
  intro h
  have hall := h 1 2 (stalledSend ++ [.mark 1 0 true, .freeSlot [0], .resume 0])
  obtain ⟨-, -, -, -, -, -, hlast, -⟩ := hall
  obtain ⟨sent, hsent, hquiet⟩ : Quiet closedSend (closedSend.step (.resume 0)) := hlast
  have hdata : sent = [.data 0] := by
    have hstream : (closedSend.step (.resume 0)).stream = closedSend.stream ++ [.data 0] := by
      decide +kernel
    exact List.append_cancel_left (hsent.symm.trans hstream)
  have hmarked := (hquiet 0 (by simp [hdata])).1
  revert hmarked
  decide +kernel

end State

end Closing
