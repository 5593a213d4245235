-- SUMMARY: The bulk queues of a service on the slave: submissions, DONE messages, aborts and notifications.
import Ampi.Machine
import Mathlib.Data.List.Sublists
import Mathlib.Logic.Function.Basic
import Mathlib.Tactic.Common

/-!
# Bulk transfers

Any number of coroutines submit bulk transfers by `vchiq_bulk_transfer`. They switch only
while they wait for `bulk_mutex`, for `bulk_remove_event`, or, holding the mutex, for
`slot_mutex` and the sending of the request. The slot handler takes in DONE messages,
aborts and notifies; it switches only while it waits for the mutex and in the callback
of the service.

Page lists are numbered as they are allocated. The number of a page list stands for its
address in `data` and in `remote_data`.
-/

namespace Bulk

/-- `VCHIQ_BULK_DIR_T`; each has its queue. -/
inductive Dir where
  | transmit
  | receive
  deriving DecidableEq, Repr

/-- The modes of `VCHIQ_BULK_MODE_T` that submit a bulk. -/
inductive Mode where
  | nocallback
  | callback
  | blocking
  deriving DecidableEq, Repr

/-- `VCHIQ_BULK_ACTUAL_ABORTED`. -/
def actualAborted : BitVec 32 := -1

/-- `VCHIQ_NUM_SERVICE_BULKS`. -/
def numServiceBulks : BitVec 32 := 4

/-- `VCHIQ_BULK_T`; `none` is `NULL`. -/
structure Entry where
  mode : Mode := .nocallback
  dir : Dir := .transmit
  userdata : BitVec 32 := 0
  data : Option Nat := none
  size : BitVec 32 := 0
  remoteData : Option Nat := none
  remoteSize : BitVec 32 := 0
  actual : BitVec 32 := 0
  deriving DecidableEq, Repr

/-- `VCHIQ_BULK_QUEUE_T`, after `init_bulk_queue`. -/
structure Queue where
  localInsert : BitVec 32 := 0
  remoteInsert : BitVec 32 := 0
  process : BitVec 32 := 0
  remoteNotify : BitVec 32 := 0
  remove : BitVec 32 := 0
  bulks : Nat → Entry := fun _ => {}
  -- not in the source
  /-- The page lists of the bulks that have been inserted, in order. -/
  submitted : List Nat := []
  /-- The page lists of those whose notification has been accepted, in order. -/
  accepted : List Nat := []
  /-- How often `remove` has been counted on. -/
  removed : Nat := 0

/-- `BULK_INDEX`. -/
def bulkIndex (x : BitVec 32) : Nat := (x &&& (numServiceBulks - 1)).toNat

/-- The arguments of `vchiq_bulk_transfer`. -/
structure Args where
  dir : Dir
  mode : Mode
  userdata : BitVec 32
  size : BitVec 32
  deriving DecidableEq, Repr

/-- Where a coroutine stands in `vchiq_bulk_transfer`. -/
inductive Pc where
  | outside
  /-- In `mutex_lock_interruptible (&service->bulk_mutex)`. -/
  | lock (args : Args)
  /-- In `down_interruptible (&service->bulk_remove_event)`. -/
  | wait (args : Args)
  /-- Holding `bulk_mutex`, up to the end of `queue_message`. -/
  | send (args : Args)
  deriving DecidableEq, Repr

/-- Where the slot handler stands. `next` is the queue to be notified after this one. -/
inductive Handler where
  | idle
  /-- At the head of the loop of `notify_bulks`. -/
  | notify (dir : Dir) (next : Option Dir)
  /-- In the callback for a bulk. -/
  | callback (dir : Dir) (next : Option Dir)
  deriving DecidableEq, Repr

structure State (ι : Type*) where
  queue : Dir → Queue := fun _ => {}
  /-- Who holds `bulk_mutex` while others may run, and what it submits. -/
  mutex : Option (ι × Args) := none
  bulkRemoveEvent : Nat := 0
  pc : ι → Pc := fun _ => .outside
  handler : Handler := .idle
  /-- `service->instance` is not `NULL`. -/
  hasInstance : Bool := true
  /-- A `BUG_ON` of the DONE handler has fired. -/
  bug : Bool := false
  -- not in the source
  /-- The number of page lists that have been allocated. -/
  allocated : Nat := 0
  /-- The page lists passed to `free_pagelist`. -/
  freed : List Nat := []
  /-- The page lists of bulks that have been removed from their queue or cancelled. -/
  ended : List Nat := []

inductive Event (ι : Type*) where
  /-- A call of `vchiq_bulk_transfer`. -/
  | transfer (t : ι) (args : Args)
  /-- The coroutine gets the mutex if it is free; `create_pagelist` succeeds or does not. -/
  | lock (t : ι) (prepared : Bool)
  /-- The coroutine is woken from `bulk_remove_event` if there is a permit. -/
  | wake (t : ι)
  /-- The holder of the mutex has sent the request, or has not: a signal, a service that
  is open no more, a failure of `queue_message`. -/
  | sent (ok : Bool)
  /-- The slot handler takes up a BULK_RX_DONE or BULK_TX_DONE message. -/
  | done (dir : Dir) (actual : BitVec 32)
  /-- The slot handler calls `do_abort_bulks`. -/
  | abort
  /-- The slot handler calls `notify_bulks` for a poll. -/
  | poll (dir : Dir)
  /-- It goes on in the loop of `notify_bulks`. -/
  | notify
  /-- The callback of the service returns. -/
  | callbackReturn (retry : Bool)
  /-- The client of the service goes away. -/
  | terminate
  deriving DecidableEq, Repr

namespace Queue

def isFull (q : Queue) : Bool := q.localInsert = q.remove + numServiceBulks

def setBulk (q : Queue) (i : BitVec 32) (bulk : Entry) : Queue :=
  { q with bulks := Function.update q.bulks (bulkIndex i) bulk }

/-- The assignments of `vchiq_bulk_transfer` before `vchiq_prepare_bulk_data`. -/
def fill (q : Queue) (args : Args) : Queue :=
  q.setBulk q.localInsert { q.bulks (bulkIndex q.localInsert) with
    mode := args.mode
    dir := args.dir
    userdata := args.userdata
    size := args.size
    actual := actualAborted }

/-- `vchiq_prepare_bulk_data` with the page list. -/
def prepare (q : Queue) (pagelist : Nat) : Queue :=
  q.setBulk q.localInsert { q.bulks (bulkIndex q.localInsert) with
    data := some pagelist
    remoteData := some pagelist }

/-- `queue->local_insert++`. -/
def insert (q : Queue) : Queue :=
  { q with
    localInsert := q.localInsert + 1
    submitted := q.submitted ++ (q.bulks (bulkIndex q.localInsert)).data.toList }

/-- The entry at `process`. -/
def current (q : Queue) : Entry := q.bulks (bulkIndex q.process)

/-- The entry at `remove`. -/
def oldest (q : Queue) : Entry := q.bulks (bulkIndex q.remove)

/-- `queue->remove++`. -/
def drop (q : Queue) : Queue := { q with remove := q.remove + 1, removed := q.removed + 1 }

end Queue

namespace Entry

/-- `vchiq_complete_bulk`: the page list that is freed. -/
def complete (bulk : Entry) : List Nat :=
  match bulk.remoteData with
  | some pagelist => if bulk.actual ≠ 0 then [pagelist] else []
  | none => []

end Entry

namespace Queue

/-- A turn of the loop of `abort_outstanding_bulks`, with the page lists that it frees. -/
def abortTurn (q : Queue) (isTx : Dir) : Queue × List Nat :=
  let (q, bulk) :=
    if q.process = q.remoteInsert then
      ({ q with remoteInsert := q.remoteInsert + 1 },
        { q.current with remoteData := none, remoteSize := 0 })
    else (q, q.current)
  if q.process ≠ q.localInsert then
    ({ q.setBulk q.process bulk with process := q.process + 1 }, bulk.complete)
  else
    let bulk := { bulk with data := none, size := 0, actual := actualAborted, dir := isTx }
    ({ q.setBulk q.process bulk with
      localInsert := q.localInsert + 1
      process := q.process + 1 }, [])

/-- The loop, for a number of turns. -/
def abortLoop (isTx : Dir) : Nat → Queue → List Nat → Queue × List Nat
  | 0, q, freed => (q, freed)
  | turns + 1, q, freed =>
    if q.process ≠ q.localInsert ∨ q.process ≠ q.remoteInsert then
      let (q, freed') := q.abortTurn isTx
      abortLoop isTx turns q (freed ++ freed')
    else (q, freed)

/-- `abort_outstanding_bulks`. Every turn counts `process` on, and it ends when `process`
has come to both indices. -/
def abortOutstandingBulks (q : Queue) (isTx : Dir) : Queue × List Nat :=
  abortLoop isTx
    (max (q.localInsert - q.process).toNat (q.remoteInsert - q.process).toNat) q []

end Queue

namespace State

variable {ι : Type*}

def setQueue (s : State ι) (dir : Dir) (q : Queue) : State ι :=
  { s with queue := Function.update s.queue dir q }

/-- The beginning of `notify_bulks` on the slave. -/
def notifyBulks (s : State ι) (dir : Dir) (next : Option Dir) : State ι :=
  { s.setQueue dir { s.queue dir with remoteNotify := (s.queue dir).process } with
    handler := .notify dir next }

/-- The end of `notify_bulks`, whose status `do_abort_bulks` finds to be
`VCHIQ_SUCCESS` because it has not asked for a poll. -/
def notified (s : State ι) (next : Option Dir) : State ι :=
  match next with
  | some dir => s.notifyBulks dir none
  | none => { s with handler := .idle }

/-- `queue->remove++; up (&service->bulk_remove_event)`. -/
def removeBulk (s : State ι) (dir : Dir) (next : Option Dir) : State ι :=
  { s.setQueue dir (s.queue dir).drop with
    bulkRemoveEvent := s.bulkRemoveEvent + 1
    ended := s.ended ++ (s.queue dir).oldest.data.toList
    handler := .notify dir next }

/-- The notification of the oldest bulk is accepted. -/
def accept (s : State ι) (dir : Dir) : State ι :=
  s.setQueue dir { s.queue dir with
    accepted := (s.queue dir).accepted ++ (s.queue dir).oldest.data.toList }

/-- The loop of `notify_bulks`, up to the call of the service or the end of the turn. -/
def notifyTurn (s : State ι) (dir : Dir) (next : Option Dir) : State ι :=
  let q := s.queue dir
  if q.remove = q.remoteNotify then s.notified next
  else if q.oldest.data.isSome ∧ s.hasInstance then
    match q.oldest.mode with
    | .blocking =>
      -- `waiter->actual = bulk->actual; up (&waiter->event)`
      if q.oldest.userdata ≠ 0 then (s.accept dir).removeBulk dir next
      else s.removeBulk dir next
    | .callback => { s with handler := .callback dir next }
    | .nocallback => s.removeBulk dir next
  else s.removeBulk dir next

/-- A BULK_RX_DONE or BULK_TX_DONE message, for a service that is in use. -/
def bulkDone (s : State ι) (dir : Dir) (actual : BitVec 32) : State ι :=
  let q := s.queue dir
  if (q.remoteInsert - q.localInsert).toInt ≥ 0 then s
  else if q.process = q.localInsert ∨ q.process ≠ q.remoteInsert then { s with bug := true }
  else
    let bulk := { q.bulks (bulkIndex q.remoteInsert) with actual }
    let q := { q.setBulk q.remoteInsert bulk with
      remoteInsert := q.remoteInsert + 1
      process := q.process + 1 }
    { s.setQueue dir q with freed := s.freed ++ bulk.complete }.notifyBulks dir none

/-- `do_abort_bulks`. -/
def doAbortBulks (s : State ι) : State ι :=
  let (tx, freedTx) := (s.queue .transmit).abortOutstandingBulks .transmit
  let (rx, freedRx) := (s.queue .receive).abortOutstandingBulks .receive
  { (s.setQueue .transmit tx).setQueue .receive rx with
    freed := s.freed ++ freedTx ++ freedRx }.notifyBulks .transmit (some .receive)

variable [DecidableEq ι]

def goto (s : State ι) (t : ι) (pc : Pc) : State ι := { s with pc := Function.update s.pc t pc }

/-- With the mutex: the test for room, then the entry is filled. -/
def locked (s : State ι) (t : ι) (args : Args) (prepared : Bool) : State ι :=
  let q := s.queue args.dir
  if q.isFull then s.goto t (.wait args)
  else if prepared then
    { s.setQueue args.dir ((q.fill args).prepare s.allocated) with
      allocated := s.allocated + 1
      mutex := some (t, args) }.goto t (.send args)
  else (s.setQueue args.dir (q.fill args)).goto t .outside

/-- The end of `vchiq_bulk_transfer` after `queue_message`, or from where it gives up. -/
def sent (s : State ι) (t : ι) (args : Args) (ok : Bool) : State ι :=
  let q := s.queue args.dir
  let bulk := q.bulks (bulkIndex q.localInsert)
  if ok then { s.setQueue args.dir q.insert with mutex := none }.goto t .outside
  else
    { s with
      freed := s.freed ++ bulk.complete
      ended := s.ended ++ bulk.data.toList
      mutex := none }.goto t .outside

def step (s : State ι) : Event ι → State ι
  | .transfer t args =>
    match s.pc t with
    | .outside => s.goto t (.lock args)
    | _ => s
  | .lock t prepared =>
    match s.pc t, s.mutex with
    | .lock args, none => s.locked t args prepared
    | _, _ => s
  | .wake t =>
    match s.pc t, s.bulkRemoveEvent with
    | .wait args, count + 1 => { s with bulkRemoveEvent := count }.goto t (.lock args)
    | _, _ => s
  | .sent ok =>
    match s.mutex with
    | some (t, args) => s.sent t args ok
    | none => s
  | .done dir actual =>
    match s.handler, s.mutex with
    | .idle, none => s.bulkDone dir actual
    | _, _ => s
  | .abort =>
    match s.handler, s.mutex with
    | .idle, none => s.doAbortBulks
    | _, _ => s
  | .poll dir =>
    match s.handler with
    | .idle => s.notifyBulks dir none
    | _ => s
  | .notify =>
    match s.handler with
    | .notify dir next => s.notifyTurn dir next
    | _ => s
  | .callbackReturn retry =>
    match s.handler with
    | .callback dir next =>
      if retry then s.notified next else (s.accept dir).removeBulk dir next
    | _ => s
  | .terminate => { s with hasInstance := false }

end State
end Bulk
