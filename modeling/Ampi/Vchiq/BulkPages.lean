-- SUMMARY: The page lists of bulks: freed at most once, and exactly once unless a bulk ends with no bytes or in an abort.
import Ampi.Vchiq.BulkQueues

/-!
# Page lists

The page list of a bulk is with its coroutine until the request has been sent, then with
the queue until the bulk is processed. From then on `free_pagelist` has it or nobody has.
-/

namespace Bulk

namespace Queue

/-- The page lists of the bulks that have not been removed. -/
def outstanding (q : Queue) : List Nat := q.submitted.drop q.removed

/-- How many bulks have been processed. -/
def processCount (q : Queue) : Nat := q.submitted.length - (q.localInsert - q.process).toNat

/-- The page lists of the bulks that have not been processed. -/
def unprocessed (q : Queue) : List Nat := q.submitted.drop q.processCount

/-- Until a bulk is processed its page list is in `remote_data`. -/
def Stored (q : Queue) : Prop :=
  ∀ k, q.processCount ≤ k → k < q.submitted.length →
    (q.bulks (k % 4)).remoteData = q.submitted[k]?

variable {q : Queue} {n p : Nat}

theorem Indices.processCount_eq (h : q.Indices n p) : q.processCount = p := by
  have hle := h.le_insert
  rw [processCount, h.remaining]
  omega

/-! ## Insertion -/

theorem Indices.outstanding_insert (h : q.Indices n p) {x : Nat} (hx : q.Holds x) :
    q.insert.outstanding = q.outstanding ++ [x] := by
  rw [outstanding, submitted_insert hx]
  exact List.drop_append_of_le_length h.removed_le

theorem Indices.unprocessed_insert (h : q.Indices n p) {x : Nat} (hx : q.Holds x) :
    q.insert.unprocessed = q.unprocessed ++ [x] := by
  rw [unprocessed, (h.insert hx).processCount_eq, submitted_insert hx,
    List.drop_append_of_le_length h.le_insert, unprocessed, h.processCount_eq]

theorem Indices.stored_insert (h : q.Indices n p) (hs : q.Stored) {x : Nat} (hx : q.Holds x) :
    q.insert.Stored := by
  intro k hle hlt
  rw [(h.insert hx).processCount_eq] at hle
  rw [submitted_insert hx, List.length_append, List.length_singleton] at hlt
  change (q.bulks (k % 4)).remoteData = _
  rw [submitted_insert hx]
  obtain hlt | heq := Nat.lt_or_eq_of_le (Nat.le_of_lt_succ hlt)
  · rw [List.getElem?_append_left hlt]
    exact hs k (h.processCount_eq.symm ▸ hle) hlt
  · rw [heq, List.getElem?_concat_length, ← hx.remoteData, h.localInsert, bulkIndex_ofNat]

theorem Indices.stored_setBulk (h : q.Indices n p) (hs : q.Stored)
    (hroom : q.submitted.length < q.removed + 4) (bulk : Entry) :
    (q.setBulk q.localInsert bulk).Stored := by
  intro k hle hlt
  have hp : q.processCount ≤ k := hle
  have hremoved : q.removed ≤ k := by
    rw [h.processCount_eq] at hp
    exact Nat.le_trans h.notify (Nat.le_trans h.le_process hp)
  change (Function.update q.bulks _ bulk (k % 4)).remoteData = _
  rw [Function.update_of_ne (h.bulkIndex_ne hroom hremoved hlt)]
  exact hs k hp hlt

/-! ## Removal -/

theorem Indices.outstanding_drop (h : q.Indices n p) (hlt : q.removed < n) (accepted : List Nat) :
    q.oldest.data.toList ++ ({ q with accepted } : Queue).drop.outstanding = q.outstanding := by
  have hlength : q.removed < q.submitted.length :=
    Nat.lt_of_lt_of_le hlt (Nat.le_trans h.le_process h.le_insert)
  rw [h.oldest_data hlt, List.getElem?_eq_getElem hlength]
  exact (List.drop_eq_getElem_cons hlength).symm

/-! ## Completion -/

theorem Indices.current_data (h : q.Indices n p) (hlt : p < q.submitted.length) :
    q.current.data = q.submitted[p]? := by
  rw [current, h.process, bulkIndex_ofNat]
  exact h.data p (Nat.le_trans h.notify h.le_process) hlt

theorem Indices.unprocessed_processed (h : q.Indices n p) (hlt : p < q.submitted.length)
    {bulk : Entry} (hbulk : bulk.data = q.current.data) :
    q.unprocessed = q.current.data.toList ++ (q.processed bulk).unprocessed := by
  rw [unprocessed, unprocessed, h.processCount_eq, (h.processed hlt hbulk).processCount_eq,
    h.current_data hlt, List.getElem?_eq_getElem hlt]
  exact List.drop_eq_getElem_cons hlt

/-- A DONE message frees the page list unless it says that nothing has been transferred. -/
theorem Indices.complete_current (h : q.Indices n p) (hs : q.Stored)
    (hlt : p < q.submitted.length) (actual : BitVec 32) :
    Entry.complete { q.current with actual } =
      if actual ≠ 0 then q.current.data.toList else [] := by
  have hremote : q.current.remoteData = q.current.data := by
    rw [h.current_data hlt, current, h.process, bulkIndex_ofNat]
    exact hs p (Nat.le_of_eq h.processCount_eq) hlt
  dsimp only [Entry.complete]
  rw [hremote, h.current_data hlt, List.getElem?_eq_getElem hlt]
  rfl

theorem Indices.stored_processed (h : q.Indices n p) (hs : q.Stored)
    (hlt : p < q.submitted.length) {bulk : Entry} (hdata : bulk.data = q.current.data)
    (hremote : bulk.remoteData = q.current.remoteData) : (q.processed bulk).Stored := by
  intro k hle hk
  rw [(h.processed hlt hdata).processCount_eq] at hle
  change (Function.update q.bulks (bulkIndex q.process) bulk (k % 4)).remoteData = q.submitted[k]?
  have hstored := hs k (h.processCount_eq.symm ▸ Nat.le_of_succ_le hle) hk
  by_cases hindex : k % 4 = bulkIndex q.process
  · rw [hindex, Function.update_self, hremote, current, ← hindex, hstored]
  · rw [Function.update_of_ne hindex, hstored]

/-- With every bulk processed there is nothing left to be freed. -/
theorem Indices.unprocessed_eq_nil (h : q.Indices n q.submitted.length) : q.unprocessed = [] := by
  rw [unprocessed, h.processCount_eq, List.drop_length]

theorem Indices.stored_of_processed (h : q.Indices n q.submitted.length) : q.Stored := by
  intro k hle hlt
  rw [h.processCount_eq] at hle
  omega

theorem Indices.unprocessed_sublist (h : q.Indices n p) : q.unprocessed.Sublist q.outstanding := by
  rw [unprocessed, h.processCount_eq, outstanding]
  exact List.drop_sublist_drop_left _ (Nat.le_trans h.notify h.le_process)

end Queue

namespace State

variable {ι : Type*} {s s' : State ι} {dir : Dir} {q : Queue}

/-- The page list of the coroutine that holds `bulk_mutex`. -/
def held (s : State ι) : List Nat :=
  match s.mutex with
  | some (_, args) =>
    ((s.queue args.dir).bulks (bulkIndex (s.queue args.dir).localInsert)).data.toList
  | none => []

/-- How often a page list is in a list of both queues. -/
def total (s : State ι) (list : Queue → List Nat) (x : Nat) : Nat :=
  (list (s.queue .transmit)).count x + (list (s.queue .receive)).count x

/-- Whether a page list has been allocated. -/
def born (s : State ι) (x : Nat) : Nat := if x < s.allocated then 1 else 0

theorem born_le_one (s : State ι) (x : Nat) : s.born x ≤ 1 := by
  unfold born
  split <;> omega

/-- Every page list is accounted for, `lost` being those that nothing refers to any more. -/
structure Accounted (s : State ι) (lost : Nat → Nat) : Prop where
  stored : ∀ dir, (s.queue dir).Stored
  ended : ∀ x, s.ended.count x + s.total Queue.outstanding x + s.held.count x = s.born x
  freed : ∀ x, s.freed.count x + s.total Queue.unprocessed x + s.held.count x + lost x = s.born x

/-! ## One queue changes -/

theorem total_setQueue (s : State ι) (dir : Dir) (q : Queue) (list : Queue → List Nat) (x : Nat) :
    (s.setQueue dir q).total list x + (list (s.queue dir)).count x =
      s.total list x + (list q).count x := by
  have hself : (s.setQueue dir q).queue dir = q := queue_setQueue_self
  cases dir with
  | transmit =>
    have hother : (s.setQueue .transmit q).queue .receive = s.queue .receive :=
      queue_setQueue_of_ne nofun
    rw [total, hself, hother, total]
    omega
  | receive =>
    have hother : (s.setQueue .receive q).queue .transmit = s.queue .transmit :=
      queue_setQueue_of_ne nofun
    rw [total, hself, hother, total]
    omega

/-- What one queue gains or loses is lost or gained elsewhere. -/
theorem Accounted.setQueue {lost lost' : Nat → Nat} (h : s.Accounted lost)
    (hqueue : s'.queue = (s.setQueue dir q).queue) (hstored : q.Stored)
    (hended : ∀ x, s'.ended.count x + q.outstanding.count x + s'.held.count x + s.born x =
      s.ended.count x + (s.queue dir).outstanding.count x + s.held.count x + s'.born x)
    (hfreed : ∀ x, s'.freed.count x + q.unprocessed.count x + s'.held.count x + lost' x + s.born x =
      s.freed.count x + (s.queue dir).unprocessed.count x + s.held.count x + lost x + s'.born x) :
    s'.Accounted lost' := by
  have htotal : ∀ list x, s'.total list x + (list (s.queue dir)).count x =
      s.total list x + (list q).count x := by
    intro list x
    rw [← total_setQueue s dir q, total, total, hqueue]
  refine ⟨fun d => ?_, fun x => ?_, fun x => ?_⟩
  · rw [hqueue]
    exact queue_setQueue (fun _ q => q.Stored) h.stored hstored d
  · have hs := h.ended x
    have ht := htotal Queue.outstanding x
    have hx := hended x
    omega
  · have hs := h.freed x
    have ht := htotal Queue.unprocessed x
    have hx := hfreed x
    omega

/-- The same for a step that leaves the holder of the mutex alone. -/
theorem Accounted.handle {lost lost' : Nat → Nat} (h : s.Accounted lost)
    (hqueue : s'.queue = (s.setQueue dir q).queue) (hheld : s'.held = s.held)
    (hborn : s'.allocated = s.allocated) (hstored : q.Stored)
    (hended : ∀ x, s'.ended.count x + q.outstanding.count x =
      s.ended.count x + (s.queue dir).outstanding.count x)
    (hfreed : ∀ x, s'.freed.count x + q.unprocessed.count x + lost' x =
      s.freed.count x + (s.queue dir).unprocessed.count x + lost x) : s'.Accounted lost' := by
  refine h.setQueue hqueue hstored (fun x => ?_) (fun x => ?_)
  · have hx := hended x
    rw [hheld, born, born, hborn]
    omega
  · have hx := hfreed x
    rw [hheld, born, born, hborn]
    omega

/-- The slot handler leaves the page list of the holder of the mutex alone. -/
theorem held_setQueue (hbulks : q.bulks = (s.queue dir).bulks)
    (hinsert : q.localInsert = (s.queue dir).localInsert) : (s.setQueue dir q).held = s.held := by
  dsimp only [held, State.setQueue]
  split
  next args _ =>
    by_cases hd : args.dir = dir
    · rw [hd, Function.update_self, hbulks, hinsert]
    · rw [Function.update_of_ne hd]
  · rfl

theorem held_of_mutex (h : s.mutex = none) : s.held = [] := by rw [held, h]

/-! ## The slot handler -/

variable {lost : Nat → Nat}

theorem Accounted.notifyBulks (h : s.Accounted lost) (dir : Dir) (next : Option Dir) :
    (s.notifyBulks dir next).Accounted lost := by
  let q := { s.queue dir with remoteNotify := (s.queue dir).process }
  have hheld : (s.setQueue dir q).held = s.held := held_setQueue rfl rfl
  exact h.handle (q := q) rfl hheld rfl (h.stored dir) (fun _ => rfl) (fun _ => rfl)

theorem Accounted.notified (h : s.Accounted lost) (next : Option Dir) :
    (s.notified next).Accounted lost := by
  cases next with
  | some dir => exact h.notifyBulks dir none
  | none => exact ⟨h.stored, h.ended, h.freed⟩

/-- The oldest bulk has been processed, so nobody is left to free its page list. -/
theorem Accounted.drop (h : s.Accounted lost) (ho : s.Ordered)
    (hne : (s.queue dir).remove ≠ (s.queue dir).remoteNotify) (accepted : List Nat)
    (next : Option Dir) :
    { s.removeBulk dir next with
      queue := Function.update s.queue dir
        ({ s.queue dir with accepted } : Queue).drop }.Accounted lost := by
  obtain ⟨n, p, hindices⟩ := (ho.queue dir).indices
  let q : Queue := ({ s.queue dir with accepted } : Queue).drop
  have houtstanding : (s.queue dir).oldest.data.toList ++ q.outstanding =
      (s.queue dir).outstanding :=
    hindices.outstanding_drop (hindices.lt_remoteNotify hne) accepted
  have hheld : (s.setQueue dir q).held = s.held := held_setQueue rfl rfl
  refine h.handle (q := q) rfl hheld rfl (h.stored dir) (fun x => ?_) (fun _ => rfl)
  change (s.ended ++ (s.queue dir).oldest.data.toList).count x + q.outstanding.count x = _
  rw [← houtstanding, List.count_append, List.count_append, Nat.add_assoc]

theorem Accounted.removeBulk (h : s.Accounted lost) (ho : s.Ordered)
    (hne : (s.queue dir).remove ≠ (s.queue dir).remoteNotify) (next : Option Dir) :
    (s.removeBulk dir next).Accounted lost := h.drop ho hne (s.queue dir).accepted next

theorem Accounted.accept_removeBulk (h : s.Accounted lost) (ho : s.Ordered)
    (hne : (s.queue dir).remove ≠ (s.queue dir).remoteNotify) (next : Option Dir) :
    ((s.accept dir).removeBulk dir next).Accounted lost := by
  rw [State.accept_removeBulk]
  exact h.drop ho hne _ next

theorem Accounted.notifyTurn (h : s.Accounted lost) (ho : s.Ordered) (dir : Dir)
    (next : Option Dir) : (s.notifyTurn dir next).Accounted lost := by
  dsimp only [State.notifyTurn]
  split
  · exact h.notified next
  next hne =>
    split
    · split
      · split
        · exact h.accept_removeBulk ho hne next
        · exact h.removeBulk ho hne next
      · exact ⟨h.stored, h.ended, h.freed⟩
      · exact h.removeBulk ho hne next
    · exact h.removeBulk ho hne next

/-- A bulk that is done is freed, or lost if nothing has been transferred. -/
theorem Accounted.bulkDone (h : s.Accounted lost) (hmutex : s.mutex = none)
    {n p : Nat} (hindices : (s.queue dir).Indices n p) (hlt : p < (s.queue dir).submitted.length)
    (actual : BitVec 32) :
    (s.bulkDone dir actual).Accounted fun x =>
      lost x + if actual ≠ 0 then 0 else (s.queue dir).current.data.toList.count x := by
  let bulk := { (s.queue dir).current with actual }
  have hunprocessed : (s.queue dir).unprocessed =
      (s.queue dir).current.data.toList ++ ((s.queue dir).processed bulk).unprocessed :=
    hindices.unprocessed_processed hlt rfl
  have hstored : ((s.queue dir).processed bulk).Stored :=
    hindices.stored_processed (h.stored dir) hlt rfl rfl
  rw [bulkDone_of_lt hindices hlt, hindices.complete_current (h.stored dir) hlt]
  refine Accounted.notifyBulks ?_ dir none
  refine h.handle (q := (s.queue dir).processed bulk) rfl ?_ rfl hstored (fun _ => rfl)
    (fun x => ?_)
  · rw [held_of_mutex hmutex]
    exact held_of_mutex hmutex
  · rw [hunprocessed, List.count_append, List.count_append]
    split
    · omega
    · rw [List.count_nil]
      omega

theorem Accounted.abort (h : s.Accounted lost) (hmutex : s.mutex = none) {n : Nat}
    (hindices : q.Indices n (s.queue dir).submitted.length)
    (hsame : (s.queue dir).SameRequests q) :
    (s.setQueue dir q).Accounted fun x => lost x + (s.queue dir).unprocessed.count x := by
  rw [← hsame.submitted] at hindices
  refine h.handle rfl ?_ rfl hindices.stored_of_processed (fun x => ?_) (fun x => ?_)
  · rw [held_of_mutex hmutex]
    exact held_of_mutex hmutex
  · rw [Queue.outstanding, hsame.submitted, hsame.removed]
    rfl
  · rw [hindices.unprocessed_eq_nil, List.count_nil]
    change s.freed.count x + 0 + _ = _
    omega

/-- An abort loses the page lists of all bulks that have not been processed. -/
theorem Accounted.doAbortBulks (h : s.Accounted lost) (ho : s.Ordered) (hmutex : s.mutex = none) :
    s.doAbortBulks.Accounted fun x => lost x + s.total Queue.unprocessed x := by
  obtain ⟨tx, rx, ⟨n, htx⟩, ⟨n', hrx⟩, hsame, hsame', heq⟩ := ho.exists_doAbortBulks
  have hfirst : (s.setQueue .transmit tx).Accounted _ := h.abort hmutex htx hsame
  have hsecond : ((s.setQueue .transmit tx).setQueue .receive rx).Accounted _ :=
    hfirst.abort hmutex hrx hsame'
  rw [heq]
  refine Accounted.notifyBulks ⟨hsecond.stored, hsecond.ended, fun x => ?_⟩ .transmit _
  have htotal : lost x + s.total Queue.unprocessed x =
      lost x + (s.queue .transmit).unprocessed.count x + (s.queue .receive).unprocessed.count x :=
    (Nat.add_assoc ..).symm
  rw [htotal]
  exact hsecond.freed x

variable [DecidableEq ι]

/-! ## The coroutines -/

omit [DecidableEq ι] in
theorem held_of_holds {t : ι} {args : Args} (h : s.mutex = some (t, args)) {x : Nat}
    (hx : (s.queue args.dir).Holds x) : s.held = [x] := by
  rw [held, h]
  dsimp only
  rw [hx.data]
  rfl

omit [DecidableEq ι] in
/-- The page list allocated now is one more. -/
theorem born_allocate (hborn : s'.allocated = s.allocated + 1) (x : Nat) :
    s'.born x = s.born x + [s.allocated].count x := by
  have hlast : [s.allocated].count x = if x = s.allocated then 1 else 0 := by
    by_cases hx : x = s.allocated
    · rw [if_pos hx, hx, List.count_singleton_self]
    · rw [if_neg hx, List.count_eq_zero]
      exact fun hmem => hx (List.mem_singleton.1 hmem)
  rw [born, born, hborn, hlast]
  obtain hlt | heq | hlt := Nat.lt_trichotomy x s.allocated
  · rw [if_pos (Nat.lt_succ_of_lt hlt), if_pos hlt, if_neg (Nat.ne_of_lt hlt)]
  · rw [if_pos (heq ▸ Nat.lt_succ_self x), if_neg (heq ▸ Nat.lt_irrefl x), if_pos heq]
  · rw [if_neg (Nat.not_lt_of_le hlt), if_neg (Nat.lt_asymm hlt), if_neg (Nat.ne_of_gt hlt)]

theorem Accounted.locked (h : s.Accounted lost) (ho : s.Ordered) (hmutex : s.mutex = none) (t : ι)
    (args : Args) (prepared : Bool) : (s.locked t args prepared).Accounted lost := by
  by_cases hfull : (s.queue args.dir).isFull
  · rw [locked_of_isFull hfull]
    exact ⟨h.stored, h.ended, h.freed⟩
  obtain ⟨n, p, hindices⟩ := (ho.queue args.dir).indices
  have hroom := hindices.not_isFull hfull
  have hfill : ((s.queue args.dir).fill args).Stored :=
    hindices.stored_setBulk (h.stored args.dir) hroom _
  cases prepared with
  | false =>
    rw [locked_not_prepared hfull]
    refine h.handle (q := (s.queue args.dir).fill args) rfl ?_ rfl hfill (fun _ => rfl)
      (fun _ => rfl)
    rw [held_of_mutex hmutex]
    exact held_of_mutex hmutex
  | true =>
    have hstored : (((s.queue args.dir).fill args).prepare s.allocated).Stored :=
      (hindices.fill hroom args).stored_setBulk hfill hroom _
    have hholds : (((s.queue args.dir).fill args).prepare s.allocated).Holds s.allocated :=
      Queue.holds_prepare hroom args (ho.queue args.dir).below
    rw [locked_prepared hfull]
    let q := ((s.queue args.dir).fill args).prepare s.allocated
    let s' : State ι := { s.setQueue args.dir q with
      allocated := s.allocated + 1
      mutex := some (t, args) }.goto t (.send args)
    have hself : s'.queue args.dir = q := Function.update_self ..
    have hheld : s'.held = [s.allocated] := held_of_holds rfl (by rw [hself]; exact hholds)
    have hborn : ∀ x, s'.born x = s.born x + [s.allocated].count x := born_allocate rfl
    change s'.Accounted lost
    refine h.setQueue (q := q) rfl hstored (fun x => ?_) (fun x => ?_)
    · rw [hheld, hborn, held_of_mutex hmutex, List.count_nil]
      change s.ended.count x + (s.queue args.dir).outstanding.count x + _ + _ = _
      omega
    · rw [hheld, hborn, held_of_mutex hmutex, List.count_nil]
      change s.freed.count x + (s.queue args.dir).unprocessed.count x + _ + _ + _ = _
      omega

theorem Accounted.sent (h : s.Accounted lost) (ho : s.Ordered) {t : ι} {args : Args}
    (hmutex : s.mutex = some (t, args)) (ok : Bool) : (s.sent t args ok).Accounted lost := by
  obtain ⟨n, p, hindices⟩ := (ho.queue args.dir).indices
  obtain ⟨x, hx, -⟩ := ho.holder t args hmutex
  have hheld := held_of_holds hmutex hx
  cases ok with
  | false =>
    have hcomplete : ((s.queue args.dir).bulks
        (bulkIndex (s.queue args.dir).localInsert)).complete = [x] := by
      rw [Entry.complete, hx.remoteData, hx.actual]
      rfl
    refine ⟨h.stored, fun y => ?_, fun y => ?_⟩
    · have hy := h.ended y
      rw [hheld] at hy
      change (s.ended ++ _).count y + s.total Queue.outstanding y + ([] : List Nat).count y =
        s.born y
      rw [hx.data, Option.toList_some, List.count_append, List.count_nil]
      omega
    · have hy := h.freed y
      rw [hheld] at hy
      change (s.freed ++ _).count y + s.total Queue.unprocessed y + ([] : List Nat).count y +
        lost y = s.born y
      rw [hcomplete, List.count_append, List.count_nil]
      omega
  | true =>
    refine h.setQueue (q := (s.queue args.dir).insert) rfl
      (hindices.stored_insert (h.stored args.dir) hx) (fun y => ?_) (fun y => ?_)
    · rw [hindices.outstanding_insert hx, hheld, List.count_append]
      change s.ended.count y + _ + ([] : List Nat).count y + s.born y = _ + s.born y
      rw [List.count_nil]
      omega
    · rw [hindices.unprocessed_insert hx, hheld, List.count_append]
      change s.freed.count y + _ + ([] : List Nat).count y + lost y + s.born y = _ + s.born y
      rw [List.count_nil]
      omega

/-! ## Steps -/

/-- The step frees every page list that it completes: a DONE message says that something has
been transferred, and there is nothing to be aborted. -/
def Frees (s : State ι) : Event ι → Prop
  | .done dir actual => s.handler = .idle ∧ s.mutex.isNone ∧
      ((s.queue dir).remoteInsert - (s.queue dir).localInsert).toInt < 0 → actual ≠ 0
  | .abort => s.handler = .idle ∧ s.mutex.isNone →
      (s.queue .transmit).process = (s.queue .transmit).localInsert ∧
      (s.queue .receive).process = (s.queue .receive).localInsert
  | _ => True

instance Frees.decidable (s : State ι) : DecidablePred s.Frees := by
  intro e
  unfold Frees
  split <;> infer_instance

omit [DecidableEq ι] in
theorem frees_done_iff {n p : Nat} (h : (s.queue dir).Indices n p) (hidle : s.handler = .idle)
    (hmutex : s.mutex = none) (actual : BitVec 32) :
    s.Frees (.done dir actual) ↔ (p < (s.queue dir).submitted.length → actual ≠ 0) := by
  have hexpected : ((s.queue dir).remoteInsert - (s.queue dir).localInsert).toInt < 0 ↔
      p < (s.queue dir).submitted.length := by
    have hle := h.le_insert
    rw [← Int.not_le, ← ge_iff_le, h.unexpected]
    omega
  have hnone : s.mutex.isNone := by rw [hmutex]; rfl
  dsimp only [Frees]
  rw [hexpected]
  exact ⟨fun hfrees hlt => hfrees ⟨hidle, hnone, hlt⟩, fun hfrees hlt => hfrees hlt.2.2⟩

omit [DecidableEq ι] in
theorem Accounted.bulkDone_iff (h : s.Accounted lost) (ho : s.Ordered) (hidle : s.handler = .idle)
    (hmutex : s.mutex = none) (dir : Dir) (actual : BitVec 32) :
    ∃ lost', (s.bulkDone dir actual).Accounted lost' ∧ (∀ x, lost x ≤ lost' x) ∧
      (s.Frees (.done dir actual) ↔ lost' = lost) := by
  obtain ⟨n, p, hindices⟩ := (ho.queue dir).indices
  have hfrees := frees_done_iff hindices hidle hmutex actual
  obtain hlt | heq := Nat.lt_or_eq_of_le hindices.le_insert
  · refine ⟨_, h.bulkDone hmutex hindices hlt actual, fun x => Nat.le_add_right .., ?_⟩
    rw [hfrees]
    constructor
    · intro hactual
      simp only [if_pos (hactual hlt), Nat.add_zero]
    · rintro hlost - hzero
      have hcount := congrFun hlost (s.queue dir).submitted[p]
      rw [if_neg (not_not_intro hzero), hindices.current_data hlt,
        List.getElem?_eq_getElem hlt, Option.toList_some, List.count_singleton_self] at hcount
      omega
  · rw [bulkDone_of_unexpected hindices heq]
    refine ⟨lost, h, fun _ => Nat.le_refl _, iff_of_true (hfrees.2 fun hlt => ?_) rfl⟩
    exact absurd heq (Nat.ne_of_lt hlt)

omit [DecidableEq ι] in
theorem frees_abort_iff (ho : s.Ordered) (hidle : s.handler = .idle) (hmutex : s.mutex = none) :
    s.Frees .abort ↔ ∀ x, s.total Queue.unprocessed x = 0 := by
  have hnone : s.mutex.isNone := by rw [hmutex]; rfl
  have hnil : ∀ dir, (s.queue dir).process = (s.queue dir).localInsert ↔
      (s.queue dir).unprocessed = [] := by
    intro dir
    obtain ⟨n, p, hindices⟩ := (ho.queue dir).indices
    have hle := hindices.le_insert
    rw [hindices.process_eq_localInsert, Queue.unprocessed, hindices.processCount_eq,
      List.drop_eq_nil_iff]
    omega
  have htotal : (∀ x, s.total Queue.unprocessed x = 0) ↔
      (s.queue .transmit).unprocessed = [] ∧ (s.queue .receive).unprocessed = [] := by
    simp only [total, Nat.add_eq_zero_iff, forall_and, List.count_eq_zero,
      ← List.eq_nil_iff_forall_not_mem]
  dsimp only [Frees]
  rw [hnil, hnil, htotal]
  exact ⟨fun hfrees => hfrees ⟨hidle, hnone⟩, fun hfrees _ => hfrees⟩

/-- What a step does to the account. It loses nothing exactly if it frees what it completes. -/
theorem Accounted.step (h : s.Accounted lost) (ho : s.Ordered) (e : Event ι) :
    ∃ lost', (s.step e).Accounted lost' ∧ (∀ x, lost x ≤ lost' x) ∧
      (s.Frees e ↔ lost' = lost) := by
  have hsame : ∀ {s' : State ι}, s'.Accounted lost → s.Frees e →
      ∃ lost', s'.Accounted lost' ∧ (∀ x, lost x ≤ lost' x) ∧ (s.Frees e ↔ lost' = lost) :=
    fun h' hfrees => ⟨lost, h', fun _ => Nat.le_refl _, iff_of_true hfrees rfl⟩
  cases e with
  | transfer t args =>
    refine hsame ?_ trivial
    dsimp only [State.step]
    split <;> exact ⟨h.stored, h.ended, h.freed⟩
  | lock t prepared =>
    refine hsame ?_ trivial
    dsimp only [State.step]
    split
    next hmutex => exact h.locked ho hmutex t _ prepared
    · exact h
  | wake t =>
    refine hsame ?_ trivial
    dsimp only [State.step]
    split <;> exact ⟨h.stored, h.ended, h.freed⟩
  | sent ok =>
    refine hsame ?_ trivial
    dsimp only [State.step]
    split
    next hmutex => exact h.sent ho hmutex ok
    · exact h
  | done dir actual =>
    dsimp only [State.step]
    split
    next hidle hmutex => exact h.bulkDone_iff ho hidle hmutex dir actual
    next hnot =>
      refine hsame h fun hfrees => ?_
      exact absurd (Option.isNone_iff_eq_none.1 hfrees.2.1) (hnot hfrees.1)
  | abort =>
    dsimp only [State.step]
    split
    next hidle hmutex =>
      refine ⟨_, h.doAbortBulks ho hmutex, fun x => Nat.le_add_right .., ?_⟩
      rw [frees_abort_iff ho hidle hmutex, funext_iff]
      simp only [Nat.add_eq_left]
    next hnot =>
      refine hsame h fun hfrees => ?_
      exact absurd (Option.isNone_iff_eq_none.1 hfrees.2) (hnot hfrees.1)
  | poll dir =>
    refine hsame ?_ trivial
    dsimp only [State.step]
    split
    · exact h.notifyBulks dir none
    · exact h
  | notify =>
    refine hsame ?_ trivial
    dsimp only [State.step]
    split
    · exact h.notifyTurn ho _ _
    · exact h
  | callbackReturn retry =>
    refine hsame ?_ trivial
    dsimp only [State.step]
    split
    next dir next hcallback =>
      split
      · exact h.notified next
      · exact h.accept_removeBulk ho (ho.callback dir next hcallback) next
    · exact h
  | terminate => exact hsame ⟨h.stored, h.ended, h.freed⟩ trivial

/-! ## Runs -/

omit [DecidableEq ι] in
theorem accounted_init : ({} : State ι).Accounted fun _ => 0 where
  stored _ k _ hlt := absurd hlt (Nat.not_lt_zero k)
  ended _ := rfl
  freed x := by
    change 0 + ((([] : List Nat).drop _).count x + (([] : List Nat).drop _).count x) + 0 + 0 = 0
    rw [List.drop_nil, List.count_nil]

/-- Nothing has been lost after a run exactly if every step has freed what it completed. -/
theorem accounted_run (s : State ι) (ho : s.Ordered) (h : s.Accounted lost) (es : List (Event ι)) :
    ∃ lost', (Machine.run step s es).Accounted lost' ∧ (∀ x, lost x ≤ lost' x) ∧
      (Machine.Along step Frees s es ↔ lost' = lost) := by
  induction es generalizing s lost with
  | nil => exact ⟨lost, h, fun _ => Nat.le_refl _, iff_of_true trivial rfl⟩
  | cons e es ih =>
    obtain ⟨lost₁, h₁, hle₁, hiff₁⟩ := h.step ho e
    obtain ⟨lost₂, h₂, hle₂, hiff₂⟩ := ih (s.step e) (ho.step e) h₁
    refine ⟨lost₂, h₂, fun x => Nat.le_trans (hle₁ x) (hle₂ x), ?_⟩
    rw [Machine.Along, hiff₁, hiff₂]
    constructor
    · rintro ⟨heq₁, heq₂⟩
      exact heq₂.trans heq₁
    · intro heq
      have hback : lost₁ = lost := funext fun x =>
        Nat.le_antisymm (heq ▸ hle₂ x) (hle₁ x)
      exact ⟨hback, heq.trans hback.symm⟩

/-- No page list is freed twice, and that of a bulk that has been removed or cancelled has
been freed. -/
def FreedOnce (s : State ι) : Prop :=
  ∀ x, s.freed.count x ≤ 1 ∧ (x ∈ s.ended → s.freed.count x = 1)

/-- Every bulk has been removed or cancelled. -/
structure Quiet (s : State ι) : Prop where
  mutex : s.mutex = none
  removed : ∀ dir, (s.queue dir).remove = (s.queue dir).localInsert

omit [DecidableEq ι] in
/-- A page list that has not been lost is freed when its bulk has ended. -/
theorem Accounted.freedOnce (h : s.Accounted fun _ => 0) (ho : s.Ordered) : s.FreedOnce := by
  intro x
  have hsublist : s.total Queue.unprocessed x ≤ s.total Queue.outstanding x := by
    obtain ⟨n, p, htx⟩ := (ho.queue .transmit).indices
    obtain ⟨n', p', hrx⟩ := (ho.queue .receive).indices
    exact Nat.add_le_add (htx.unprocessed_sublist.count_le x) (hrx.unprocessed_sublist.count_le x)
  have hended := h.ended x
  have hfreed := h.freed x
  have hborn := s.born_le_one x
  refine ⟨by omega, fun hx => ?_⟩
  have hpos := List.count_pos_iff.2 hx
  omega

omit [DecidableEq ι] in
/-- Once every bulk has ended, a page list that has been lost is one that has not been freed. -/
theorem Accounted.eq_zero_of_freedOnce (h : s.Accounted lost) (ho : s.Ordered) (hquiet : s.Quiet)
    (honce : s.FreedOnce) : lost = fun _ => 0 := by
  have hnil : ∀ dir, (s.queue dir).outstanding = [] := by
    intro dir
    obtain ⟨n, p, hindices⟩ := (ho.queue dir).indices
    have hremoved := hquiet.removed dir
    rw [hindices.remove, hindices.localInsert, ofNat_eq_ofNat hindices.removed_le
      (by have hroom := hindices.room; omega)] at hremoved
    rw [Queue.outstanding, hremoved, List.drop_length]
  funext x
  have hended := h.ended x
  have hfreed := h.freed x
  have hborn := s.born_le_one x
  rw [total, hnil, hnil, List.count_nil, held_of_mutex hquiet.mutex, List.count_nil] at hended
  obtain hzero | hpos := Nat.eq_zero_or_pos (s.ended.count x)
  · omega
  · have hone := (honce x).2 (List.count_pos_iff.1 hpos)
    omega

/-- In a run whose steps free what they complete, every page list is freed once, by the time
its bulk is removed. No other run in which all bulks have ended has freed each of them once. -/
theorem page_lists_freedOnce (es : List (Event ι)) :
    (Machine.Along step Frees ({} : State ι) es → (Machine.run step ({} : State ι) es).FreedOnce) ∧
      ((Machine.run step ({} : State ι) es).Quiet → (Machine.run step ({} : State ι) es).FreedOnce →
        Machine.Along step Frees ({} : State ι) es) := by
  obtain ⟨lost, h, -, hiff⟩ := accounted_run ({} : State ι) ordered_init accounted_init es
  have ho := ordered_run es
  constructor
  · intro hes
    rw [hiff.1 hes] at h
    exact h.freedOnce ho
  · intro hquiet honce
    exact hiff.2 (h.eq_zero_of_freedOnce ho hquiet honce)

/-- No run frees a page list twice. -/
theorem freed_count_le_one (es : List (Event ι)) (x : Nat) :
    (Machine.run step ({} : State ι) es).freed.count x ≤ 1 := by
  obtain ⟨lost, h, -, -⟩ := accounted_run ({} : State ι) ordered_init accounted_init es
  have hfreed := h.freed x
  have hborn := (Machine.run step ({} : State ι) es).born_le_one x
  omega

/-! ## Page lists that are lost -/

/-- A bulk is submitted, and its request sent. -/
def submission : List (Event Unit) :=
  [.transfer () ⟨.transmit, .nocallback, 0, 4096⟩, .lock () true, .sent true]

/-- The peer has transferred it, and one whose request has not been sent is cancelled. -/
theorem page_lists_freedOnce_transferred :
    (Machine.run step ({} : State Unit) (submission ++ [.done .transmit 4096, .notify,
      .transfer () ⟨.receive, .blocking, 1, 512⟩, .lock () true, .sent false])).FreedOnce :=
  (page_lists_freedOnce _).1 (by decide)

/-- The peer has transferred nothing, or the service is closed before it answers. -/
theorem not_page_lists_freedOnce :
    ¬ (Machine.run step ({} : State Unit)
        (submission ++ [.done .transmit 0, .notify])).FreedOnce ∧
      ¬ (Machine.run step ({} : State Unit) (submission ++ [.abort, .notify])).FreedOnce :=
  ⟨fun h => absurd ((h 0).2 (by decide)) (by decide),
    fun h => absurd ((h 0).2 (by decide)) (by decide)⟩

end State
end Bulk
