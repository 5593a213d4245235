-- SUMMARY: Blocking bulk transfers: the waiters that notify_bulks signals through the entries of the queues.
import Ampi.Vchiq.BulkQueues
import Mathlib.Data.Fintype.Basic

/-!
# Blocking transfers

`vchiq_blocking_bulk_transfer` allocates a waiter, whose address becomes the `userdata` of the
bulk, and sleeps on its semaphore; `notify_bulks` signals it. Once it has been woken, the
coroutine clears the `userdata` of the entry that its bulk has been in, and frees the waiter.
The entry may be another bulk's by then.

The waits do not fail, so no waiter is ever kept in `bulk_waiter_list`.
-/

namespace Blocking

open Bulk

inductive Status where
  | success | error
  deriving DecidableEq, Repr

/-- `struct bulk_waiter_node`. -/
structure Waiter where
  /-- Where it is. -/
  addr : BitVec 32
  event : Nat := 0
  actual : BitVec 32 := 0
  /-- The entry that `bulk` points to. -/
  bulk : Option (Dir × Nat) := none
  -- not in the source
  /-- The number of the bulk in its queue. -/
  number : Nat := 0
  deriving DecidableEq, Repr

/-- `waiter->actual = bulk->actual; up (&waiter->event)`, if the waiter is at `userdata`. -/
def Waiter.signal (w : Waiter) (bulk : Entry) : Waiter :=
  if w.addr = bulk.userdata then { w with actual := bulk.actual, event := w.event + 1 } else w

structure State (ι : Type*) where
  service : Bulk.State ι := {}
  waiter : ι → Option Waiter := fun _ => none
  /-- What the last blocking transfer has returned. -/
  returned : ι → Option Status := fun _ => none

inductive Event (ι : Type*) where
  /-- A transfer in mode BLOCKING is a call of `vchiq_blocking_bulk_transfer`, and its
  `userdata` the address of the waiter that has been allocated. -/
  | bulk (e : Bulk.Event ι)
  /-- The coroutine is woken from its waiter if there is a permit. -/
  | wake (t : ι)

variable {ι : Type*}

/-- The bulk whose waiter is signalled in the next turn of the loop of `notify_bulks`. -/
def signals (b : Bulk.State ι) : Option Entry :=
  match b.handler with
  | .notify dir _ =>
    let q := b.queue dir
    if q.remove ≠ q.remoteNotify ∧ q.oldest.data.isSome ∧ b.hasInstance ∧
        q.oldest.mode = .blocking ∧ q.oldest.userdata ≠ 0 then some q.oldest
    else none
  | _ => none

/-- `bulk->userdata = NULL`. -/
def cancelSignal (b : Bulk.State ι) (dir : Dir) (i : Nat) : Bulk.State ι :=
  let q := b.queue dir
  b.setQueue dir { q with bulks := Function.update q.bulks i { q.bulks i with userdata := 0 } }

namespace State

variable [DecidableEq ι]

/-- A call, of a coroutine that is in none. -/
def transfer (s : State ι) (t : ι) (args : Args) : State ι :=
  if s.service.pc t = .outside ∧ (s.waiter t).isNone then
    { s with
      service := s.service.step (.transfer t args)
      waiter := if args.mode = .blocking then
        Function.update s.waiter t (some { addr := args.userdata }) else s.waiter }
  else s

/-- A blocking transfer returns without having been inserted. The waiter is freed. -/
def fail (s : State ι) (t : ι) (args : Args) : State ι :=
  if args.mode = .blocking then
    { s with
      waiter := Function.update s.waiter t none
      returned := Function.update s.returned t (some .error) }
  else s

/-- What becomes of the waiter if `vchiq_prepare_bulk_data` fails. -/
def lock (s : State ι) (t : ι) (prepared : Bool) : State ι :=
  match s.service.pc t, s.service.mutex with
  | .lock args, none =>
    if ¬ (s.service.queue args.dir).isFull ∧ prepared = false then s.fail t args else s
  | _, _ => s

/-- `bulk_waiter->bulk = bulk`, in front of the wait. -/
def wait (s : State ι) (t : ι) (args : Args) : State ι :=
  let q := s.service.queue args.dir
  if args.mode = .blocking then
    { s with
      waiter := Function.update s.waiter t ((s.waiter t).map fun w =>
        { w with
          bulk := some (args.dir, bulkIndex q.localInsert)
          number := q.submitted.length }) }
  else s

def sent (s : State ι) (ok : Bool) : State ι :=
  match s.service.mutex with
  | some (t, args) => if ok then s.wait t args else s.fail t args
  | none => s

def notify (s : State ι) : State ι :=
  match signals s.service with
  | some bulk => { s with waiter := fun t => (s.waiter t).map (·.signal bulk) }
  | none => s

/-- The end of `vchiq_blocking_bulk_transfer`, behind the wait. -/
def wake (s : State ι) (t : ι) : State ι :=
  match s.waiter t with
  | none => s
  | some w =>
    match w.bulk with
    | none => s
    | some (dir, i) =>
      if w.event = 0 then s
      else
        { service := cancelSignal s.service dir i
          waiter := Function.update s.waiter t none
          returned := Function.update s.returned t
            (some (if w.actual = actualAborted then .error else .success)) }

def step (s : State ι) : Event ι → State ι
  | .bulk (.transfer t args) => s.transfer t args
  | .bulk (.lock t prepared) =>
    { s.lock t prepared with service := s.service.step (.lock t prepared) }
  | .bulk (.sent ok) => { s.sent ok with service := s.service.step (.sent ok) }
  | .bulk .notify => { s.notify with service := s.service.step .notify }
  | .bulk e => { s with service := s.service.step e }
  | .wake t => s.wake t

abbrev run (s : State ι) (es : List (Event ι)) : State ι := Machine.run step s es

end State

/-! ## Bulks in use -/

/-- One more than the number of the last bulk whose entry is in use. The entry of a bulk that
is being submitted is. -/
def bound (b : Bulk.State ι) (dir : Dir) : Nat :=
  match b.mutex with
  | some (_, args) =>
    (b.queue dir).submitted.length + if args.dir = dir then 1 else 0
  | none => (b.queue dir).submitted.length

/-- The entry of the bulk of a number. -/
def entry (b : Bulk.State ι) (dir : Dir) (k : Nat) : Entry := (b.queue dir).bulks (k % 4)

namespace State

/-- Memory is allocated where no waiter is. No code clears `service->instance`. -/
def Admissible (s : State ι) : Event ι → Prop
  | .bulk (.transfer _ args) => args.mode = .blocking →
    args.userdata ≠ 0 ∧ ∀ u, ∀ w ∈ s.waiter u, w.addr ≠ args.userdata
  | .bulk .terminate => False
  | _ => True

/-- A coroutine that is woken does not find the entry in use for a blocking transfer again, of
which one that is being submitted is one. -/
def Timely (s : State ι) : Event ι → Prop
  | .wake t => ∀ w ∈ s.waiter t, w.event ≠ 0 → ∀ p ∈ w.bulk, ∀ k < bound s.service p.1,
    (s.service.queue p.1).removed ≤ k → k % 4 = p.2 → (entry s.service p.1 k).mode ≠ .blocking
  | _ => True

instance [Fintype ι] (s : State ι) : DecidablePred s.Admissible
  | .bulk (.transfer _ args) => inferInstanceAs (Decidable (args.mode = .blocking →
    args.userdata ≠ 0 ∧ ∀ u, ∀ w ∈ s.waiter u, w.addr ≠ args.userdata))
  | .bulk .terminate => .isFalse id
  | .bulk (.lock ..) | .bulk (.wake _) | .bulk (.sent _) | .bulk (.done ..) | .bulk .abort
  | .bulk (.poll _) | .bulk .notify | .bulk (.callbackReturn _) | .wake _ => .isTrue trivial

instance (s : State ι) : DecidablePred s.Timely
  | .wake t => inferInstanceAs (Decidable (∀ w ∈ s.waiter t, w.event ≠ 0 → ∀ p ∈ w.bulk,
    ∀ k < bound s.service p.1, (s.service.queue p.1).removed ≤ k → k % 4 = p.2 →
      (entry s.service p.1 k).mode ≠ .blocking))
  | .bulk _ => .isTrue trivial

/-- A bulk has been inserted, and not yet been removed from its queue. -/
def Pending (s : State ι) (dir : Dir) (k : Nat) : Prop :=
  (s.service.queue dir).removed ≤ k ∧ k < (s.service.queue dir).submitted.length

/-- The coroutine waits for the notification of a bulk. -/
def Waits (s : State ι) (t : ι) (dir : Dir) (k : Nat) : Prop :=
  ∃ w, s.waiter t = some w ∧ w.bulk = some (dir, k % 4) ∧ w.number = k ∧ w.event = 0

/-- No signal is lost, and none goes to memory that has been freed. -/
structure Attended (s : State ι) : Prop where
  /-- A sleeper has a permit, or a signal to come. -/
  remembered : ∀ t, ∀ w ∈ s.waiter t, ∀ dir i, w.bulk = some (dir, i) → w.event ≠ 0 ∨
    s.Pending dir w.number ∧ (entry s.service dir w.number).mode = .blocking ∧
      (entry s.service dir w.number).userdata = w.addr
  /-- The waiter that is signalled is that of a coroutine that waits for this very bulk. -/
  reaches : ∀ dir k, s.Pending dir k → (entry s.service dir k).mode = .blocking →
    ∃ t w, s.waiter t = some w ∧ w.addr = (entry s.service dir k).userdata ∧ s.Waits t dir k

end State
end Blocking
