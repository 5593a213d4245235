-- SUMMARY: What a step of the bulk queues does to the entries that are in use.
import Ampi.Vchiq.Blocking

/-!
# The entries in use

The entry of a bulk is in use from its submission to its removal. Most steps of the service
leave the entries as they are; `notify_bulks` takes one out, and a submission fills one.
-/

namespace Blocking

open Bulk Bulk.State

variable {ι : Type*}

variable {b b' b'' : Bulk.State ι} {dir : Dir} {k : Nat}

theorem mode_eq (h : b.SameRequests b') : (entry b' dir k).mode = (entry b dir k).mode :=
  congrArg (·.1) (h dir (k % 4))

theorem userdata_eq (h : b.SameRequests b') :
    (entry b' dir k).userdata = (entry b dir k).userdata := congrArg (·.2.2.1) (h dir (k % 4))

/-- Nothing is submitted or removed, and no entry is filled in. -/
structure Quiet (b b' : Bulk.State ι) : Prop where
  requests : b.SameRequests b'
  submitted : ∀ dir, (b'.queue dir).submitted = (b.queue dir).submitted
  removed : ∀ dir, (b'.queue dir).removed = (b.queue dir).removed
  mutex : b'.mutex = b.mutex

/-- The oldest bulk of one queue is removed, and that is all. -/
structure Dropped (b b' : Bulk.State ι) (dir : Dir) : Prop where
  requests : b.SameRequests b'
  submitted : ∀ dir, (b'.queue dir).submitted = (b.queue dir).submitted
  removed : (b'.queue dir).removed = (b.queue dir).removed + 1
  others : ∀ d, d ≠ dir → (b'.queue d).removed = (b.queue d).removed
  mutex : b'.mutex = b.mutex

/-- Bulks may be removed, and that is all. -/
structure Fewer (b b' : Bulk.State ι) : Prop where
  requests : b.SameRequests b'
  submitted : ∀ dir, (b'.queue dir).submitted = (b.queue dir).submitted
  removed : ∀ dir, (b.queue dir).removed ≤ (b'.queue dir).removed
  mutex : b'.mutex = b.mutex

theorem Quiet.refl : Quiet b b := ⟨fun _ _ => rfl, fun _ => rfl, fun _ => rfl, rfl⟩

theorem Quiet.trans (h : Quiet b b') (h' : Quiet b' b'') : Quiet b b'' where
  requests := h.requests.trans h'.requests
  submitted dir := (h'.submitted dir).trans (h.submitted dir)
  removed dir := (h'.removed dir).trans (h.removed dir)
  mutex := h'.mutex.trans h.mutex

theorem Quiet.dropped (h : Quiet b b') (h' : Dropped b' b'' dir) : Dropped b b'' dir where
  requests := h.requests.trans h'.requests
  submitted d := (h'.submitted d).trans (h.submitted d)
  removed := by rw [h'.removed, h.removed]
  others d hd := (h'.others d hd).trans (h.removed d)
  mutex := h'.mutex.trans h.mutex

theorem Quiet.fewer (h : Quiet b b') : Fewer b b' :=
  ⟨h.requests, h.submitted, fun dir => (h.removed dir).ge, h.mutex⟩

theorem Dropped.fewer (h : Dropped b b' dir) : Fewer b b' where
  requests := h.requests
  submitted := h.submitted
  removed d := by
    by_cases hd : d = dir
    · rw [hd, h.removed]
      exact Nat.le_succ _
    · exact (h.others d hd).ge
  mutex := h.mutex

theorem Quiet.setQueue {q : Queue}
    (hrequest : ∀ i, (q.bulks i).request = ((b.queue dir).bulks i).request)
    (hsubmitted : q.submitted = (b.queue dir).submitted)
    (hremoved : q.removed = (b.queue dir).removed) : Quiet b (b.setQueue dir q) where
  requests := sameRequests_setQueue hrequest
  submitted := queue_setQueue (fun d q => q.submitted = (b.queue d).submitted) (fun _ => rfl)
    hsubmitted
  removed := queue_setQueue (fun d q => q.removed = (b.queue d).removed) (fun _ => rfl) hremoved
  mutex := rfl

theorem quiet_notifyBulks (dir : Dir) (next : Option Dir) : Quiet b (b.notifyBulks dir next) :=
  have h : Quiet b (b.setQueue dir { b.queue dir with remoteNotify := (b.queue dir).process }) :=
    Quiet.setQueue (fun _ => rfl) rfl rfl
  ⟨h.requests, h.submitted, h.removed, h.mutex⟩

theorem quiet_notified (next : Option Dir) : Quiet b (b.notified next) := by
  cases next with
  | some dir => exact quiet_notifyBulks dir none
  | none => exact ⟨fun _ _ => rfl, fun _ => rfl, fun _ => rfl, rfl⟩

theorem quiet_accept (dir : Dir) : Quiet b (b.accept dir) :=
  Quiet.setQueue (fun _ => rfl) rfl rfl

theorem dropped_removeBulk (dir : Dir) (next : Option Dir) :
    Dropped b (b.removeBulk dir next) dir where
  requests := sameRequests_removeBulk b dir next
  submitted := queue_setQueue (fun d q => q.submitted = (b.queue d).submitted) (fun _ => rfl) rfl
  removed := congrArg Queue.removed (queue_setQueue_self (s := b) (q := (b.queue dir).drop))
  others _ hd := congrArg Queue.removed (queue_setQueue_of_ne (s := b) (q := (b.queue dir).drop) hd)
  mutex := rfl

theorem dropped_accept_removeBulk (dir : Dir) (next : Option Dir) :
    Dropped b ((b.accept dir).removeBulk dir next) dir :=
  (quiet_accept dir).dropped (dropped_removeBulk dir next)

theorem quiet_bulkDone (h : b.Ordered) (dir : Dir) (actual : BitVec 32) :
    Quiet b (b.bulkDone dir actual) := by
  obtain ⟨n, p, hindices⟩ := (h.queue dir).indices
  obtain hlt | heq := Nat.lt_or_eq_of_le hindices.le_insert
  · let bulk := { (b.queue dir).current with actual }
    have hsame : (b.queue dir).SameRequests ((b.queue dir).processed bulk) :=
      Queue.sameRequests_processed rfl
    have hqueue : Quiet b (b.setQueue dir ((b.queue dir).processed bulk)) :=
      Quiet.setQueue hsame.bulks hsame.submitted hsame.removed
    rw [bulkDone_of_lt hindices hlt]
    have hnotify := quiet_notifyBulks (b := b.setQueue dir ((b.queue dir).processed bulk)) dir none
    exact hqueue.trans ⟨hnotify.requests, hnotify.submitted, hnotify.removed, hnotify.mutex⟩
  · rw [bulkDone_of_unexpected hindices heq]
    exact .refl

theorem quiet_doAbortBulks (h : b.Ordered) : Quiet b b.doAbortBulks := by
  obtain ⟨tx, rx, -, -, hsame, hsame', heq⟩ := h.exists_doAbortBulks
  have hfirst : Quiet b (b.setQueue .transmit tx) :=
    Quiet.setQueue hsame.bulks hsame.submitted hsame.removed
  have hsecond : Quiet (b.setQueue .transmit tx)
      ((b.setQueue .transmit tx).setQueue .receive rx) :=
    Quiet.setQueue hsame'.bulks hsame'.submitted hsame'.removed
  rw [heq]
  exact (hfirst.trans hsecond).trans (quiet_notifyBulks _ _)

/-- The bulk at `remove`. -/
theorem oldest_eq (h : b.Ordered) (dir : Dir) :
    (b.queue dir).oldest = entry b dir (b.queue dir).removed := by
  obtain ⟨n, p, hindices⟩ := (h.queue dir).indices
  rw [Queue.oldest, hindices.remove, bulkIndex_ofNat]
  rfl

theorem removed_lt (h : b.Ordered) (hne : (b.queue dir).remove ≠ (b.queue dir).remoteNotify) :
    (b.queue dir).removed < (b.queue dir).submitted.length := by
  obtain ⟨n, p, hindices⟩ := (h.queue dir).indices
  have hlt := hindices.lt_remoteNotify hne
  have hle := hindices.le_process
  have hle' := hindices.le_insert
  omega

/-- The entry of a bulk that is pending has a page list. -/
theorem data_isSome (h : b.Ordered) (hle : (b.queue dir).removed ≤ k)
    (hlt : k < (b.queue dir).submitted.length) : (entry b dir k).data.isSome := by
  obtain ⟨n, p, hindices⟩ := (h.queue dir).indices
  rw [entry, hindices.data k hle hlt, List.getElem?_eq_getElem hlt]
  rfl

theorem notified_handler (next : Option Dir) (d : Dir) (n : Option Dir) :
    (b.notified next).handler ≠ .callback d n := by
  cases next with
  | none => simp [notified]
  | some dir => simp [notified, notifyBulks]

/-- A turn of the loop of `notify_bulks`. -/
theorem notifyTurn_cases (b : Bulk.State ι) (dir : Dir) (next : Option Dir) :
    (Quiet b (b.notifyTurn dir next) ∧
      (∀ d n, (b.notifyTurn dir next).handler = .callback d n →
      (b.queue d).oldest.mode = .callback) ∧
      ¬ ((b.queue dir).remove ≠ (b.queue dir).remoteNotify ∧
        (b.queue dir).oldest.mode = .blocking)) ∨
    ((b.queue dir).remove ≠ (b.queue dir).remoteNotify ∧ Dropped b (b.notifyTurn dir next) dir ∧
      ∀ d n, (b.notifyTurn dir next).handler ≠ .callback d n) := by
  dsimp only [notifyTurn]
  split
  next heq =>
    exact .inl ⟨quiet_notified next, fun d n hd => absurd hd (notified_handler next d n),
      fun h => h.1 heq⟩
  next hne =>
    split
    · split
      · split
        · exact .inr ⟨hne, dropped_accept_removeBulk dir next, by simp [removeBulk]⟩
        · exact .inr ⟨hne, dropped_removeBulk dir next, by simp [removeBulk]⟩
      next hmode =>
        refine .inl ⟨⟨fun _ _ => rfl, fun _ => rfl, fun _ => rfl, rfl⟩, fun d n hd => ?_, ?_⟩
        · cases hd
          exact hmode
        · rw [hmode]
          simp
      · exact .inr ⟨hne, dropped_removeBulk dir next, by simp [removeBulk]⟩
    · exact .inr ⟨hne, dropped_removeBulk dir next, by simp [removeBulk]⟩

/-- The entry at `local_insert` is filled in, whether the page list is created or not. -/
structure Filled (b b' : Bulk.State ι) (args : Args) : Prop where
  others : ∀ d k, (b.queue d).removed ≤ k → k < (b.queue d).submitted.length →
    entry b' d k = entry b d k
  submitted : ∀ dir, (b'.queue dir).submitted = (b.queue dir).submitted
  removed : ∀ dir, (b'.queue dir).removed = (b.queue dir).removed
  mode : (entry b' args.dir (b.queue args.dir).submitted.length).mode = args.mode
  userdata : (entry b' args.dir (b.queue args.dir).submitted.length).userdata = args.userdata

theorem filled_setQueue (h : b.Ordered) {args : Args} (hfull : ¬ (b.queue args.dir).isFull)
    {q : Queue} (hbulks : ∀ j, j ≠ bulkIndex (b.queue args.dir).localInsert →
      q.bulks j = (b.queue args.dir).bulks j)
    (hsubmitted : q.submitted = (b.queue args.dir).submitted)
    (hremoved : q.removed = (b.queue args.dir).removed)
    (hmode : (q.bulks (bulkIndex (b.queue args.dir).localInsert)).mode = args.mode)
    (huserdata : (q.bulks (bulkIndex (b.queue args.dir).localInsert)).userdata = args.userdata) :
    Filled b (b.setQueue args.dir q) args := by
  obtain ⟨n, p, hindices⟩ := (h.queue args.dir).indices
  have hindex : bulkIndex (b.queue args.dir).localInsert =
      (b.queue args.dir).submitted.length % 4 := by
    rw [hindices.localInsert, bulkIndex_ofNat]
  rw [hindex] at hmode huserdata
  refine ⟨fun d k hle hlt => ?_, ?_, ?_, ?_, ?_⟩
  · by_cases hd : d = args.dir
    · subst hd
      rw [entry, queue_setQueue_self,
        hbulks _ (hindices.bulkIndex_ne (hindices.not_isFull hfull) hle hlt)]
      rfl
    · rw [entry, queue_setQueue_of_ne hd]
      rfl
  · exact queue_setQueue (fun d q => q.submitted = (b.queue d).submitted) (fun _ => rfl) hsubmitted
  · exact queue_setQueue (fun d q => q.removed = (b.queue d).removed) (fun _ => rfl) hremoved
  · rw [entry, queue_setQueue_self]
    exact hmode
  · rw [entry, queue_setQueue_self]
    exact huserdata

variable [DecidableEq ι]

theorem filled_locked (h : b.Ordered) {t : ι} {args : Args} (hfull : ¬ (b.queue args.dir).isFull)
    (prepared : Bool) : Filled b (b.locked t args prepared) args := by
  let i := bulkIndex (b.queue args.dir).localInsert
  have hfill : ∀ j, j ≠ i →
      ((b.queue args.dir).fill args).bulks j = (b.queue args.dir).bulks j :=
    fun j hj => Function.update_of_ne hj ..
  have hself : ((b.queue args.dir).fill args).bulks i =
      { (b.queue args.dir).bulks i with
        mode := args.mode
        dir := args.dir
        userdata := args.userdata
        size := args.size
        actual := actualAborted } := Function.update_self ..
  cases prepared with
  | false =>
    rw [locked_not_prepared hfull]
    have hq := filled_setQueue h hfull (q := (b.queue args.dir).fill args) hfill rfl rfl
      (congrArg Entry.mode hself) (congrArg Entry.userdata hself)
    exact ⟨hq.others, hq.submitted, hq.removed, hq.mode, hq.userdata⟩
  | true =>
    rw [locked_prepared hfull]
    have hprepare : (((b.queue args.dir).fill args).prepare b.allocated).bulks i =
        { ((b.queue args.dir).fill args).bulks i with
          data := some b.allocated
          remoteData := some b.allocated } := Function.update_self ..
    have hq := filled_setQueue h hfull
      (q := ((b.queue args.dir).fill args).prepare b.allocated)
      (fun j hj => (Function.update_of_ne hj ..).trans (hfill j hj)) rfl rfl
      ((congrArg Entry.mode hprepare).trans (congrArg Entry.mode hself))
      ((congrArg Entry.userdata hprepare).trans (congrArg Entry.userdata hself))
    exact ⟨hq.others, hq.submitted, hq.removed, hq.mode, hq.userdata⟩

omit [DecidableEq ι] in
theorem notifyTurn_keeps (b : Bulk.State ι) (dir : Dir) (next : Option Dir) :
    (b.notifyTurn dir next).pc = b.pc ∧ (b.notifyTurn dir next).mutex = b.mutex ∧
      (b.notifyTurn dir next).hasInstance = b.hasInstance := by
  have hnotified : ∀ next, (b.notified next).pc = b.pc ∧ (b.notified next).mutex = b.mutex ∧
      (b.notified next).hasInstance = b.hasInstance := by
    intro next
    cases next <;> exact ⟨rfl, rfl, rfl⟩
  dsimp only [notifyTurn]
  split
  · exact hnotified next
  · split
    · split
      · split <;> exact ⟨rfl, rfl, rfl⟩
      · exact ⟨rfl, rfl, rfl⟩
      · exact ⟨rfl, rfl, rfl⟩
    · exact ⟨rfl, rfl, rfl⟩

/-- A step of the slot handler. -/
def IsHandler : Bulk.Event ι → Bool
  | .done .. | .abort | .poll _ | .notify | .callbackReturn _ => true
  | _ => false

/-- The slot handler changes nothing of the coroutines. -/
theorem handler_step (b : Bulk.State ι) (e : Bulk.Event ι) (he : IsHandler e) :
    (b.step e).pc = b.pc ∧ (b.step e).mutex = b.mutex ∧ (b.step e).hasInstance = b.hasInstance := by
  have hnotified : ∀ next, (b.notified next).pc = b.pc ∧ (b.notified next).mutex = b.mutex ∧
      (b.notified next).hasInstance = b.hasInstance := by
    intro next
    cases next <;> exact ⟨rfl, rfl, rfl⟩
  unfold Bulk.State.step
  cases e with
  | done dir actual =>
    dsimp only
    split
    · unfold bulkDone
      dsimp only
      split
      · exact ⟨rfl, rfl, rfl⟩
      · split <;> exact ⟨rfl, rfl, rfl⟩
    · exact ⟨rfl, rfl, rfl⟩
  | abort =>
    dsimp only
    split <;> exact ⟨rfl, rfl, rfl⟩
  | poll dir =>
    dsimp only
    split <;> exact ⟨rfl, rfl, rfl⟩
  | notify =>
    dsimp only
    split
    · exact notifyTurn_keeps b _ _
    · exact ⟨rfl, rfl, rfl⟩
  | callbackReturn retry =>
    dsimp only
    split
    · split
      · exact hnotified _
      · exact ⟨rfl, rfl, rfl⟩
    · exact ⟨rfl, rfl, rfl⟩
  | transfer | lock | wake | sent | terminate => cases he

/-- What else is in an entry does not depend on `userdata`. -/
theorem update_userdata (bulks : Nat → Entry) (i j : Nat) :
    let e := Function.update bulks i { bulks i with userdata := 0 } j
    e.data = (bulks j).data ∧ e.remoteData = (bulks j).remoteData ∧
      e.actual = (bulks j).actual ∧ e.mode = (bulks j).mode := by
  dsimp only
  by_cases hj : j = i
  · rw [hj, Function.update_self]
    exact ⟨rfl, rfl, rfl, rfl⟩
  · rw [Function.update_of_ne hj]
    exact ⟨rfl, rfl, rfl, rfl⟩

omit [DecidableEq ι] in
/-- The pages and positions of a queue do not depend on `userdata`. -/
theorem ordered_cancelSignal (h : b.Ordered) (dir : Dir) (i : Nat) :
    (cancelSignal b dir i).Ordered := by
  have hsame := update_userdata (b.queue dir).bulks i
  refine ⟨queue_setQueue (fun _ q => q.Sound b.allocated) h.queue ?_, fun t args hholds => ?_,
    fun d next hd => ?_, h.bug⟩
  · obtain ⟨⟨n, p, hi⟩, hsorted, hbelow⟩ := h.queue dir
    exact ⟨⟨n, p, { hi with data := fun k hle hlt => (hsame _).1.trans (hi.data k hle hlt) }⟩,
      hsorted, hbelow⟩
  · obtain ⟨x, hx, hlt⟩ := h.holder t args hholds
    refine ⟨x, ?_, hlt⟩
    unfold cancelSignal
    by_cases hd : args.dir = dir
    · subst hd
      rw [queue_setQueue_self]
      exact ⟨(hsame _).1.trans hx.data, (hsame _).2.1.trans hx.remoteData,
        (hsame _).2.2.1.trans hx.actual, hx.room, hx.newest⟩
    · rw [queue_setQueue_of_ne hd]
      exact hx
  · have hne := h.callback d next hd
    unfold cancelSignal
    by_cases hdir : d = dir
    · subst hdir
      rw [queue_setQueue_self]
      exact hne
    · rw [queue_setQueue_of_ne hdir]
      exact hne

omit [DecidableEq ι] in
theorem mode_cancelSignal (b : Bulk.State ι) (dir : Dir) (i : Nat) (d : Dir) (k : Nat) :
    (entry (cancelSignal b dir i) d k).mode = (entry b d k).mode := by
  unfold entry cancelSignal
  by_cases hd : d = dir
  · subst hd
    rw [queue_setQueue_self]
    exact (update_userdata _ i (k % 4)).2.2.2
  · rw [queue_setQueue_of_ne hd]

omit [DecidableEq ι] in
theorem userdata_cancelSignal_of_ne {i : Nat} {d : Dir} (h : ¬ (d = dir ∧ k % 4 = i)) :
    (entry (cancelSignal b dir i) d k).userdata = (entry b d k).userdata := by
  unfold entry cancelSignal
  by_cases hd : d = dir
  · subst hd
    rw [queue_setQueue_self]
    dsimp only
    rw [Function.update_of_ne fun hk => h ⟨rfl, hk⟩]
  · rw [queue_setQueue_of_ne hd]

omit [DecidableEq ι] in
theorem userdata_cancelSignal (b : Bulk.State ι) (dir : Dir) (k : Nat) :
    (entry (cancelSignal b dir (k % 4)) dir k).userdata = 0 := by
  unfold entry cancelSignal
  rw [queue_setQueue_self]
  dsimp only
  rw [Function.update_self]


omit [DecidableEq ι] in
theorem bound_none (h : b.mutex = none) : bound b dir = (b.queue dir).submitted.length := by
  unfold bound
  rw [h]

omit [DecidableEq ι] in
theorem bound_some {t : ι} {args : Args} (h : b.mutex = some (t, args)) :
    bound b dir = (b.queue dir).submitted.length + if args.dir = dir then 1 else 0 := by
  unfold bound
  rw [h]

/-- The slot handler removes bulks, and that is all it does to them. -/
theorem handler_fewer (h : b.Ordered) (e : Bulk.Event ι) (he : IsHandler e) :
    Fewer b (b.step e) := by
  unfold Bulk.State.step
  cases e with
  | done dir actual =>
    dsimp only
    split
    · exact (quiet_bulkDone h dir actual).fewer
    · exact Quiet.refl.fewer
  | abort =>
    dsimp only
    split
    · exact (quiet_doAbortBulks h).fewer
    · exact Quiet.refl.fewer
  | poll dir =>
    dsimp only
    split
    · exact (quiet_notifyBulks dir none).fewer
    · exact Quiet.refl.fewer
  | notify =>
    dsimp only
    split
    next dir next _ =>
      obtain ⟨hq, -⟩ | ⟨-, hd, -⟩ := notifyTurn_cases b dir next
      · exact hq.fewer
      · exact hd.fewer
    · exact Quiet.refl.fewer
  | callbackReturn retry =>
    dsimp only
    split
    next dir next _ =>
      split
      · exact (quiet_notified next).fewer
      · exact (dropped_accept_removeBulk dir next).fewer
    · exact Quiet.refl.fewer
  | transfer | lock | wake | sent | terminate => cases he

omit [DecidableEq ι] in
/-- The waiter signalled is that of the oldest bulk of a queue. -/
theorem signals_oldest (h : b.Ordered) {bulk : Entry} (hbulk : signals b = some bulk) :
    ∃ dir, (b.queue dir).removed < (b.queue dir).submitted.length ∧
      (entry b dir (b.queue dir).removed).mode = .blocking ∧
      entry b dir (b.queue dir).removed = bulk := by
  unfold signals at hbulk
  split at hbulk
  next dir next _ =>
    dsimp only at hbulk
    rw [oldest_eq h] at hbulk
    split at hbulk
    next hall =>
      cases hbulk
      exact ⟨dir, removed_lt h hall.1, hall.2.2.2.1, rfl⟩
    · cases hbulk
  · cases hbulk

end Blocking
