-- SUMMARY: The order of the indices of a bulk queue, its pending entries and the accepted notifications.
import Ampi.Vchiq.Bulk

/-!
# The order of bulk queues

The indices of a queue are numbers that are counted on without end, taken modulo
`2 ^ 32`. On the slave `remote_insert` and `process` are one number between switches, and
no two of the numbers are more than `VCHIQ_NUM_SERVICE_BULKS` apart.
-/

namespace Bulk

/-! ## Indices that wrap -/

theorem toNat_ofNat_sub {a b : Nat} (hle : a ≤ b) (hlt : b < a + 4294967296) :
    (BitVec.ofNat 32 b - BitVec.ofNat 32 a).toNat = b - a := by
  rw [BitVec.toNat_sub, BitVec.toNat_ofNat, BitVec.toNat_ofNat]
  omega

theorem ofNat_eq_ofNat {a b : Nat} (hle : a ≤ b) (hlt : b < a + 4294967296) :
    BitVec.ofNat 32 a = .ofNat 32 b ↔ a = b := by
  rw [← BitVec.toNat_inj, BitVec.toNat_ofNat, BitVec.toNat_ofNat]
  omega

theorem ofNat_succ (k : Nat) : BitVec.ofNat 32 k + 1 = .ofNat 32 (k + 1) :=
  (BitVec.ofNat_add k 1).symm

/-- The test of the DONE handler, for indices at most a queue apart. -/
theorem toInt_ofNat_sub_nonneg {p l : Nat} (hle : p ≤ l) (hroom : l ≤ p + 4) :
    (BitVec.ofNat 32 p - BitVec.ofNat 32 l).toInt ≥ 0 ↔ p = l := by
  rw [BitVec.toInt_eq_toNat_cond, BitVec.toNat_sub, BitVec.toNat_ofNat, BitVec.toNat_ofNat]
  omega

theorem bulkIndex_ofNat (k : Nat) : bulkIndex (.ofNat 32 k) = k % 4 := by
  have hmask : (numServiceBulks - 1).toNat = 2 ^ 2 - 1 := rfl
  rw [bulkIndex, BitVec.toNat_and, hmask, Nat.and_two_pow_sub_one_eq_mod, BitVec.toNat_ofNat]
  omega

/-! ## One queue -/

/-- The fields that `vchiq_bulk_transfer` fills in and the peer has no part in. -/
def Entry.request (bulk : Entry) : Mode × Dir × BitVec 32 × Option Nat × BitVec 32 :=
  (bulk.mode, bulk.dir, bulk.userdata, bulk.data, bulk.size)

namespace Queue

/-- `n` and `p` are the numbers of the bulks at `remote_notify` and `process`. -/
structure Indices (q : Queue) (n p : Nat) : Prop where
  remove : q.remove = .ofNat 32 q.removed
  remoteNotify : q.remoteNotify = .ofNat 32 n
  process : q.process = .ofNat 32 p
  remoteInsert : q.remoteInsert = .ofNat 32 p
  localInsert : q.localInsert = .ofNat 32 q.submitted.length
  notify : q.removed ≤ n
  le_process : n ≤ p
  le_insert : p ≤ q.submitted.length
  room : q.submitted.length ≤ q.removed + 4
  data : ∀ k, q.removed ≤ k → k < q.submitted.length → (q.bulks (k % 4)).data = q.submitted[k]?
  accepted : q.accepted.Sublist (q.submitted.take q.removed)

/-- The entry at `local_insert` is filled in with a page list, newer than those before. -/
structure Holds (q : Queue) (pagelist : Nat) : Prop where
  data : (q.bulks (bulkIndex q.localInsert)).data = some pagelist
  remoteData : (q.bulks (bulkIndex q.localInsert)).remoteData = some pagelist
  actual : (q.bulks (bulkIndex q.localInsert)).actual = actualAborted
  room : q.submitted.length < q.removed + 4
  newest : ∀ x ∈ q.submitted, x < pagelist

/-- The page lists inserted are numbered in order, below the next to be allocated. -/
structure Sound (q : Queue) (allocated : Nat) : Prop where
  indices : ∃ n p, q.Indices n p
  sorted : q.submitted.Pairwise (· < ·)
  below : ∀ x ∈ q.submitted, x < allocated

theorem submitted_insert {q : Queue} {x : Nat} (hx : q.Holds x) :
    q.insert.submitted = q.submitted ++ [x] := by
  rw [insert, hx.data]
  rfl

/-- The index is one of a bulk that has been inserted and not removed. -/
def Pending (q : Queue) (i : BitVec 32) : Prop :=
  (i - q.remove).toNat < (q.localInsert - q.remove).toNat

/-- The entry at `process` is replaced by what it is when the bulk has been processed. -/
def processed (q : Queue) (bulk : Entry) : Queue :=
  { q.setBulk q.process bulk with
    remoteInsert := q.remoteInsert + 1
    process := q.process + 1 }

/-- `remove <= remote_notify <= process = remote_insert <= local_insert <=
remove + VCHIQ_NUM_SERVICE_BULKS`, each as far from `remove` as it has been counted on. -/
structure InOrder (q : Queue) : Prop where
  notify : (q.remoteNotify - q.remove).toNat ≤ (q.process - q.remove).toNat
  process : q.process = q.remoteInsert
  insert : (q.remoteInsert - q.remove).toNat ≤ (q.localInsert - q.remove).toNat
  room : (q.localInsert - q.remove).toNat ≤ numServiceBulks.toNat

variable {q : Queue} {n p : Nat}

namespace Indices

theorem bounds (h : q.Indices n p) :
    q.removed ≤ n ∧ n ≤ p ∧ p ≤ q.submitted.length ∧ q.submitted.length ≤ q.removed + 4 :=
  ⟨h.notify, h.le_process, h.le_insert, h.room⟩

theorem removed_le (h : q.Indices n p) : q.removed ≤ q.submitted.length :=
  Nat.le_trans h.notify (Nat.le_trans h.le_process h.le_insert)

theorem inOrder (h : q.Indices n p) : q.InOrder := by
  obtain ⟨hnotify, hprocess, hinsert, hroom⟩ := h.bounds
  have hfour : numServiceBulks.toNat = 4 := rfl
  constructor
  · rw [h.remove, h.remoteNotify, h.process, toNat_ofNat_sub hnotify (by omega),
      toNat_ofNat_sub (by omega) (by omega)]
    omega
  · rw [h.process, h.remoteInsert]
  · rw [h.remove, h.remoteInsert, h.localInsert, toNat_ofNat_sub (by omega) (by omega),
      toNat_ofNat_sub (by omega) (by omega)]
    omega
  · rw [h.remove, h.localInsert, toNat_ofNat_sub (by omega) (by omega), hfour]
    omega

theorem not_isFull (h : q.Indices n p) (hfull : ¬ q.isFull) :
    q.submitted.length < q.removed + 4 := by
  refine Nat.lt_of_le_of_ne h.room fun heq => hfull ?_
  rw [isFull, h.localInsert, h.remove, heq, decide_eq_true_eq]
  exact BitVec.ofNat_add ..

theorem lt_remoteNotify (h : q.Indices n p) (hne : q.remove ≠ q.remoteNotify) : q.removed < n := by
  refine Nat.lt_of_le_of_ne h.notify fun heq => hne ?_
  rw [h.remove, h.remoteNotify, heq]

/-- The number of a pending bulk. -/
theorem exists_of_pending (h : q.Indices n p) {i : BitVec 32} (hi : q.Pending i) :
    ∃ k, q.removed ≤ k ∧ k < q.submitted.length ∧ i = .ofNat 32 k := by
  obtain ⟨hnotify, hprocess, hinsert, hroom⟩ := h.bounds
  refine ⟨q.removed + (i - q.remove).toNat, Nat.le_add_right .., ?_, ?_⟩
  · rw [Pending, h.localInsert, h.remove, toNat_ofNat_sub (by omega) (by omega)] at hi
    rw [h.remove]
    omega
  · rw [BitVec.ofNat_add, BitVec.ofNat_toNat, BitVec.setWidth_eq, ← h.remove, BitVec.add_comm,
      BitVec.sub_add_cancel]

/-- With room in the queue the entry at `local_insert` is none of a pending bulk. -/
theorem bulkIndex_ne (h : q.Indices n p) (hroom : q.submitted.length < q.removed + 4) {k : Nat}
    (hle : q.removed ≤ k) (hlt : k < q.submitted.length) : k % 4 ≠ bulkIndex q.localInsert := by
  rw [h.localInsert, bulkIndex_ofNat]
  omega

theorem setBulk (h : q.Indices n p) (hroom : q.submitted.length < q.removed + 4) (bulk : Entry) :
    (q.setBulk q.localInsert bulk).Indices n p :=
  { h with
    data := by
      intro k hle hlt
      change (Function.update q.bulks _ bulk (k % 4)).data = q.submitted[k]?
      rw [Function.update_of_ne (h.bulkIndex_ne hroom hle hlt), h.data k hle hlt] }

theorem insert (h : q.Indices n p) {x : Nat} (hx : q.Holds x) : q.insert.Indices n p := by
  have hsubmitted := submitted_insert hx
  have hlength : q.insert.submitted.length = q.submitted.length + 1 := by
    rw [hsubmitted, List.length_append, List.length_singleton]
  have hroom := hx.room
  refine { h with localInsert := ?_, le_insert := ?_, room := ?_, data := ?_, accepted := ?_ }
  · change q.localInsert + 1 = _
    rw [hlength, h.localInsert, ofNat_succ]
  · have hle := h.le_insert
    omega
  · change q.insert.submitted.length ≤ q.removed + 4
    omega
  · intro k hle hlt
    change (q.bulks (k % 4)).data = _
    rw [hsubmitted]
    obtain hlt | heq := Nat.lt_or_eq_of_le (Nat.le_of_lt_succ (hlength ▸ hlt))
    · rw [List.getElem?_append_left hlt, h.data k hle hlt]
    · rw [heq, List.getElem?_concat_length, ← hx.data, h.localInsert, bulkIndex_ofNat]
  · change q.accepted.Sublist (q.insert.submitted.take q.removed)
    rw [hsubmitted, List.take_append_of_le_length h.removed_le]
    exact h.accepted

theorem notifyBulks (h : q.Indices n p) : { q with remoteNotify := q.process }.Indices p p :=
  { h with
    remoteNotify := h.process
    notify := Nat.le_trans h.notify h.le_process
    le_process := Nat.le_refl p }

/-- The oldest bulk, if there is one to be notified. -/
theorem oldest_data (h : q.Indices n p) (hlt : q.removed < n) :
    q.oldest.data = q.submitted[q.removed]? := by
  rw [oldest, h.remove, bulkIndex_ofNat]
  exact h.data _ (Nat.le_refl _) (Nat.lt_of_lt_of_le hlt (Nat.le_trans h.le_process h.le_insert))

/-- `remove` is counted on, whether the notification has been accepted or there was none. -/
theorem drop (h : q.Indices n p) (hlt : q.removed < n) {accepted : List Nat}
    (haccepted : accepted.Sublist (q.submitted.take (q.removed + 1))) :
    ({ q with accepted } : Queue).drop.Indices n p := by
  refine { h with remove := ?_, notify := hlt, room := ?_, data := ?_, accepted := haccepted }
  · change q.remove + 1 = .ofNat 32 (q.removed + 1)
    rw [h.remove, ofNat_succ]
  · exact Nat.le_trans h.room (Nat.add_le_add_right (Nat.le_succ _) _)
  · exact fun k hle => h.data k (Nat.le_of_succ_le hle)

theorem sublist_take_succ (h : q.Indices n p) :
    q.accepted.Sublist (q.submitted.take (q.removed + 1)) :=
  h.accepted.trans (List.take_sublist_take_left (Nat.le_succ _))

theorem accepted_sublist (h : q.Indices n p) (hlt : q.removed < n) :
    (q.accepted ++ q.oldest.data.toList).Sublist (q.submitted.take (q.removed + 1)) := by
  rw [h.oldest_data hlt, List.take_add_one]
  exact h.accepted.append (List.Sublist.refl _)

/-- The entry at `process` changes only in fields that come from the peer. -/
theorem processed (h : q.Indices n p) (hlt : p < q.submitted.length) {bulk : Entry}
    (hbulk : bulk.data = q.current.data) : (q.processed bulk).Indices n (p + 1) := by
  refine { h with
    process := ?_, remoteInsert := ?_, le_process := Nat.le_succ_of_le h.le_process
    le_insert := hlt, data := ?_ }
  · change q.process + 1 = _
    rw [h.process, ofNat_succ]
  · change q.remoteInsert + 1 = _
    rw [h.remoteInsert, ofNat_succ]
  · intro k hle hk
    change (Function.update q.bulks (bulkIndex q.process) bulk (k % 4)).data = q.submitted[k]?
    by_cases hindex : k % 4 = bulkIndex q.process
    · rw [hindex, Function.update_self, hbulk, current, ← hindex, h.data k hle hk]
    · rw [Function.update_of_ne hindex, h.data k hle hk]

theorem remaining (h : q.Indices n p) :
    (q.localInsert - q.process).toNat = q.submitted.length - p := by
  obtain ⟨hnotify, hprocess, hinsert, hroom⟩ := h.bounds
  rw [h.localInsert, h.process, toNat_ofNat_sub hinsert (by omega)]

theorem process_eq_localInsert (h : q.Indices n p) :
    q.process = q.localInsert ↔ p = q.submitted.length := by
  obtain ⟨hnotify, hprocess, hinsert, hroom⟩ := h.bounds
  rw [h.process, h.localInsert, ofNat_eq_ofNat hinsert (by omega)]

/-- A DONE message is unexpected exactly if no bulk waits for one. -/
theorem unexpected (h : q.Indices n p) :
    (q.remoteInsert - q.localInsert).toInt ≥ 0 ↔ p = q.submitted.length := by
  obtain ⟨hnotify, hprocess, hinsert, hroom⟩ := h.bounds
  rw [h.remoteInsert, h.localInsert, toInt_ofNat_sub_nonneg hinsert (by omega)]

/-- On the slave a turn of the abort loop takes the half that it adds for the page list. -/
theorem abortTurn_eq (h : q.Indices n p) (hlt : p < q.submitted.length) (isTx : Dir) :
    q.abortTurn isTx =
      (q.processed { q.current with remoteData := none, remoteSize := 0 }, []) := by
  have hne : q.process ≠ q.localInsert := fun heq =>
    absurd (h.process_eq_localInsert.1 heq) (Nat.ne_of_lt hlt)
  have heq : q.process = q.remoteInsert := by rw [h.process, h.remoteInsert]
  rw [abortTurn, if_pos heq]
  exact if_pos hne

end Indices

namespace Sound

variable {allocated : Nat}

theorem update (h : q.Sound allocated) {q' : Queue} (hindices : q'.Indices n p)
    (hsubmitted : q'.submitted = q.submitted) : q'.Sound allocated where
  indices := ⟨n, p, hindices⟩
  sorted := hsubmitted ▸ h.sorted
  below := hsubmitted ▸ h.below

theorem allocate (h : q.Sound allocated) : q.Sound (allocated + 1) :=
  { h with below := fun x hx => Nat.lt_succ_of_lt (h.below x hx) }

theorem insert (h : q.Sound allocated) {x : Nat} (hx : q.Holds x) (hlt : x < allocated) :
    q.insert.Sound allocated := by
  obtain ⟨n, p, hindices⟩ := h.indices
  have hsubmitted := submitted_insert hx
  refine ⟨⟨n, p, hindices.insert hx⟩, ?_, ?_⟩
  · rw [hsubmitted, List.pairwise_append]
    exact ⟨h.sorted, List.pairwise_singleton .., by simpa using hx.newest⟩
  · rw [hsubmitted]
    intro y hy
    obtain hy | hy := List.mem_append.1 hy
    · exact h.below y hy
    · exact List.mem_singleton.1 hy ▸ hlt

end Sound

/-! ## Aborts -/

/-- What aborts leave as it is. -/
structure SameRequests (q q' : Queue) : Prop where
  bulks : ∀ i, (q'.bulks i).request = (q.bulks i).request
  remove : q'.remove = q.remove
  removed : q'.removed = q.removed
  localInsert : q'.localInsert = q.localInsert
  submitted : q'.submitted = q.submitted

theorem SameRequests.trans {q' q'' : Queue} (h : q.SameRequests q') (h' : q'.SameRequests q'') :
    q.SameRequests q'' where
  bulks i := (h'.bulks i).trans (h.bulks i)
  remove := h'.remove.trans h.remove
  removed := h'.removed.trans h.removed
  localInsert := h'.localInsert.trans h.localInsert
  submitted := h'.submitted.trans h.submitted

theorem request_setBulk {i : BitVec 32} {bulk : Entry}
    (h : bulk.request = (q.bulks (bulkIndex i)).request) (j : Nat) :
    ((q.setBulk i bulk).bulks j).request = (q.bulks j).request := by
  change (Function.update q.bulks (bulkIndex i) bulk j).request = _
  by_cases hj : j = bulkIndex i
  · rw [hj, Function.update_self, h]
  · rw [Function.update_of_ne hj]

theorem sameRequests_processed {bulk : Entry} (h : bulk.request = q.current.request) :
    q.SameRequests (q.processed bulk) :=
  ⟨request_setBulk h, rfl, rfl, rfl, rfl⟩

/-- The loop ends with every bulk processed. It frees nothing. -/
theorem Indices.abortLoop (h : q.Indices n p) (isTx : Dir) {turns : Nat}
    (hturns : turns = q.submitted.length - p) (freed : List Nat) :
    ∃ q', q.abortLoop isTx turns freed = (q', freed) ∧ q'.Indices n q.submitted.length ∧
      q.SameRequests q' := by
  induction turns generalizing q p with
  | zero =>
    have heq : p = q.submitted.length :=
      Nat.le_antisymm h.le_insert (Nat.le_of_sub_eq_zero hturns.symm)
    exact ⟨q, rfl, heq ▸ h, ⟨fun _ => rfl, rfl, rfl, rfl, rfl⟩⟩
  | succ turns ih =>
    have hlt : p < q.submitted.length := by omega
    have hne : q.process ≠ q.localInsert := fun heq =>
      absurd (h.process_eq_localInsert.1 heq) (Nat.ne_of_lt hlt)
    let bulk := { q.current with remoteData := none, remoteSize := 0 }
    have hturn : (q.processed bulk).Indices n (p + 1) := h.processed hlt rfl
    have hrest : turns = (q.processed bulk).submitted.length - (p + 1) := by
      change turns = q.submitted.length - (p + 1)
      omega
    have hfirst : q.SameRequests (q.processed bulk) := sameRequests_processed rfl
    obtain ⟨q', hloop, hindices, hsame⟩ := ih hturn hrest
    refine ⟨q', ?_, hindices, hfirst.trans hsame⟩
    rw [Queue.abortLoop, if_pos (.inl hne), h.abortTurn_eq hlt]
    simpa only [List.append_nil] using hloop

theorem Indices.abortOutstandingBulks (h : q.Indices n p) (isTx : Dir) :
    ∃ q', q.abortOutstandingBulks isTx = (q', []) ∧ q'.Indices n q.submitted.length ∧
      q.SameRequests q' := by
  have heq : q.remoteInsert = q.process := by rw [h.process, h.remoteInsert]
  have hzero : (q.process - q.process).toNat = 0 := by rw [BitVec.sub_self]; rfl
  rw [Queue.abortOutstandingBulks, heq, hzero, Nat.max_eq_left (Nat.zero_le _)]
  exact h.abortLoop isTx h.remaining []

/-! ## Submissions -/

theorem Indices.fill (h : q.Indices n p) (hroom : q.submitted.length < q.removed + 4)
    (args : Args) : (q.fill args).Indices n p := h.setBulk hroom _

theorem Indices.prepare (h : q.Indices n p) (hroom : q.submitted.length < q.removed + 4)
    (pagelist : Nat) : (q.prepare pagelist).Indices n p := h.setBulk hroom _

theorem holds_prepare (hroom : q.submitted.length < q.removed + 4) (args : Args) {pagelist : Nat}
    (hnewest : ∀ x ∈ q.submitted, x < pagelist) :
    ((q.fill args).prepare pagelist).Holds pagelist := by
  have hentry : ((q.fill args).prepare pagelist).bulks (bulkIndex q.localInsert) =
      { (q.fill args).bulks (bulkIndex q.localInsert) with
        data := some pagelist
        remoteData := some pagelist } := Function.update_self ..
  have hfill : ((q.fill args).bulks (bulkIndex q.localInsert)).actual = actualAborted := by
    rw [show (q.fill args).bulks = Function.update q.bulks _ _ from rfl, Function.update_self]
  constructor
  · exact congrArg Entry.data hentry
  · exact congrArg Entry.remoteData hentry
  · exact (congrArg Entry.actual hentry).trans hfill
  · exact hroom
  · exact hnewest

end Queue

/-! ## The service -/

namespace State

variable {ι : Type*} {s : State ι} {dir : Dir} {q : Queue}

@[simp] theorem queue_setQueue_self : (s.setQueue dir q).queue dir = q := Function.update_self ..

theorem queue_setQueue_of_ne {d : Dir} (h : d ≠ dir) : (s.setQueue dir q).queue d = s.queue d :=
  Function.update_of_ne h ..

theorem queue_setQueue (P : Dir → Queue → Prop) (h : ∀ d, P d (s.queue d)) (hq : P dir q)
    (d : Dir) : P d ((s.setQueue dir q).queue d) := by
  by_cases hd : d = dir
  · rw [hd, queue_setQueue_self]
    exact hq
  · rw [queue_setQueue_of_ne hd]
    exact h d

/-- What holds of the service whenever coroutines may switch. -/
structure Ordered (s : State ι) : Prop where
  queue : ∀ dir, (s.queue dir).Sound s.allocated
  holder : ∀ t args, s.mutex = some (t, args) →
    ∃ x, (s.queue args.dir).Holds x ∧ x < s.allocated
  callback : ∀ dir next, s.handler = .callback dir next →
    (s.queue dir).remove ≠ (s.queue dir).remoteNotify
  bug : s.bug = false

/-- The slot handler changes a queue, not where bulks are inserted into it. -/
theorem Ordered.setQueue (h : s.Ordered) (dir : Dir) (hq : q.Sound s.allocated)
    (hholds : s.mutex = none ∨ ∀ x, (s.queue dir).Holds x → q.Holds x)
    (hhandler : ∀ dir next, s.handler ≠ .callback dir next) : (s.setQueue dir q).Ordered where
  queue := queue_setQueue (fun _ q => q.Sound s.allocated) h.queue hq
  holder t args hmutex := by
    obtain ⟨x, hx, hlt⟩ := h.holder t args hmutex
    refine ⟨x, ?_, hlt⟩
    by_cases hd : args.dir = dir
    · rw [hd, queue_setQueue_self]
      obtain hnone | hholds := hholds
      · exact absurd (hnone.symm.trans hmutex) nofun
      · exact hholds x (hd ▸ hx)
    · rw [queue_setQueue_of_ne hd]
      exact hx
  callback d next hd := absurd hd (hhandler d next)
  bug := h.bug

/-- A queue that a coroutine works on, while the slot handler may be in a callback. -/
theorem Ordered.callback_setQueue (h : s.Ordered) (hremove : q.remove = (s.queue dir).remove)
    (hnotify : q.remoteNotify = (s.queue dir).remoteNotify) :
    ∀ d next, s.handler = .callback d next →
      ((s.setQueue dir q).queue d).remove ≠ ((s.setQueue dir q).queue d).remoteNotify := by
  refine queue_setQueue (fun d q => ∀ next, s.handler = .callback d next →
    q.remove ≠ q.remoteNotify) h.callback fun next hd => ?_
  rw [hremove, hnotify]
  exact h.callback dir next hd

/-- The slot handler goes on, to anything but a callback. -/
theorem Ordered.handle (h : s.Ordered) {handler : Handler}
    (hhandler : ∀ dir next, handler ≠ .callback dir next) : { s with handler }.Ordered :=
  { h with callback := fun d next hd => absurd hd (hhandler d next) }

theorem Ordered.notifyBulks (h : s.Ordered) (dir : Dir) (next : Option Dir) :
    (s.notifyBulks dir next).Ordered := by
  obtain ⟨n, p, hindices⟩ := (h.queue dir).indices
  have hhandle : { s with handler := .notify dir next }.Ordered := h.handle nofun
  exact hhandle.setQueue dir ((h.queue dir).update hindices.notifyBulks rfl)
    (.inr fun x hx => ⟨hx.data, hx.remoteData, hx.actual, hx.room, hx.newest⟩) nofun

theorem Ordered.notified (h : s.Ordered) (next : Option Dir) : (s.notified next).Ordered := by
  cases next with
  | some dir => exact h.notifyBulks dir none
  | none => exact h.handle nofun

theorem accept_removeBulk (s : State ι) (dir : Dir) (next : Option Dir) :
    (s.accept dir).removeBulk dir next =
      { s.removeBulk dir next with
        queue := Function.update s.queue dir ({ s.queue dir with
          accepted := (s.queue dir).accepted ++ (s.queue dir).oldest.data.toList }
            : Queue).drop } := by
  unfold removeBulk accept
  rw [queue_setQueue_self]
  dsimp only [State.setQueue]
  rw [Function.update_idem]
  rfl

/-- The oldest bulk is removed, its notification accepted or not. -/
theorem Ordered.drop (h : s.Ordered) (hne : (s.queue dir).remove ≠ (s.queue dir).remoteNotify)
    {accepted : List Nat} (haccepted : accepted = (s.queue dir).accepted ∨
      accepted = (s.queue dir).accepted ++ (s.queue dir).oldest.data.toList)
    (next : Option Dir) :
    { s.removeBulk dir next with
      queue := Function.update s.queue dir
        ({ s.queue dir with accepted } : Queue).drop }.Ordered := by
  obtain ⟨n, p, hindices⟩ := (h.queue dir).indices
  have hlt := hindices.lt_remoteNotify hne
  have hsublist : accepted.Sublist ((s.queue dir).submitted.take ((s.queue dir).removed + 1)) := by
    obtain rfl | rfl := haccepted
    · exact hindices.sublist_take_succ
    · exact hindices.accepted_sublist hlt
  have hhandle : { s with handler := .notify dir next }.Ordered := h.handle nofun
  have hdrop := hhandle.setQueue dir ((h.queue dir).update (hindices.drop hlt hsublist) rfl)
    (.inr fun x hx => ⟨hx.data, hx.remoteData, hx.actual, Nat.lt_succ_of_lt hx.room, hx.newest⟩)
    nofun
  exact { hdrop with }

theorem Ordered.removeBulk (h : s.Ordered)
    (hne : (s.queue dir).remove ≠ (s.queue dir).remoteNotify) (next : Option Dir) :
    (s.removeBulk dir next).Ordered := h.drop hne (.inl rfl) next

theorem Ordered.accept_removeBulk (h : s.Ordered)
    (hne : (s.queue dir).remove ≠ (s.queue dir).remoteNotify) (next : Option Dir) :
    ((s.accept dir).removeBulk dir next).Ordered := by
  rw [State.accept_removeBulk]
  exact h.drop hne (.inr rfl) next

theorem Ordered.notifyTurn (h : s.Ordered) (dir : Dir) (next : Option Dir) :
    (s.notifyTurn dir next).Ordered := by
  dsimp only [State.notifyTurn]
  split
  · exact h.notified next
  next hne =>
    split
    · split
      · split
        · exact h.accept_removeBulk hne next
        · exact h.removeBulk hne next
      · exact { h with
          callback := by
            rintro d next' hd
            injection hd with hd
            exact hd ▸ hne }
      · exact h.removeBulk hne next
    · exact h.removeBulk hne next

theorem bulkDone_of_unexpected {n p : Nat} (h : (s.queue dir).Indices n p)
    (heq : p = (s.queue dir).submitted.length) (actual : BitVec 32) :
    s.bulkDone dir actual = s := if_pos (h.unexpected.2 heq)

/-- The checks of the DONE handler pass when a bulk waits for the message. -/
theorem bulkDone_of_lt {n p : Nat} (h : (s.queue dir).Indices n p)
    (hlt : p < (s.queue dir).submitted.length) (actual : BitVec 32) :
    s.bulkDone dir actual =
      { s.setQueue dir ((s.queue dir).processed { (s.queue dir).current with actual }) with
        freed := s.freed ++ Entry.complete { (s.queue dir).current with actual } }.notifyBulks
          dir none := by
  have heq : (s.queue dir).remoteInsert = (s.queue dir).process := by
    rw [h.process, h.remoteInsert]
  have hexpected : ¬ ((s.queue dir).process - (s.queue dir).localInsert).toInt ≥ 0 := by
    rw [← heq, h.unexpected]
    exact Nat.ne_of_lt hlt
  have hbug : ¬ ((s.queue dir).process = (s.queue dir).localInsert ∨
      (s.queue dir).process ≠ (s.queue dir).process) := by
    rw [h.process_eq_localInsert]
    exact fun hbug => hbug.elim (Nat.ne_of_lt hlt) fun hne => hne rfl
  dsimp only [bulkDone]
  rw [heq, if_neg hexpected, if_neg hbug, Queue.processed, heq]
  rfl

theorem Ordered.bulkDone (h : s.Ordered) (hidle : s.handler = .idle) (hmutex : s.mutex = none)
    (dir : Dir) (actual : BitVec 32) : (s.bulkDone dir actual).Ordered := by
  obtain ⟨n, p, hindices⟩ := (h.queue dir).indices
  obtain hlt | heq := Nat.lt_or_eq_of_le hindices.le_insert
  · let bulk := { (s.queue dir).current with actual }
    have hprocessed : ((s.queue dir).processed bulk).Indices n (p + 1) :=
      hindices.processed hlt rfl
    have hqueue := h.setQueue dir ((h.queue dir).update hprocessed rfl) (.inl hmutex)
      (by rw [hidle]; nofun)
    rw [bulkDone_of_lt hindices hlt]
    refine Ordered.notifyBulks ?_ dir none
    exact { hqueue with }
  · rw [bulkDone_of_unexpected hindices heq]
    exact h

/-- Both queues end processed, their entries as they have been filled in. -/
theorem Ordered.exists_doAbortBulks (h : s.Ordered) : ∃ tx rx,
    (∃ n, tx.Indices n (s.queue .transmit).submitted.length) ∧
    (∃ n, rx.Indices n (s.queue .receive).submitted.length) ∧
    (s.queue .transmit).SameRequests tx ∧ (s.queue .receive).SameRequests rx ∧
    s.doAbortBulks = ((s.setQueue .transmit tx).setQueue .receive rx).notifyBulks
      .transmit (some .receive) := by
  obtain ⟨n, p, hindices⟩ := (h.queue .transmit).indices
  obtain ⟨n', p', hindices'⟩ := (h.queue .receive).indices
  obtain ⟨tx, htx, htransmit, hsame⟩ := hindices.abortOutstandingBulks .transmit
  obtain ⟨rx, hrx, hreceive, hsame'⟩ := hindices'.abortOutstandingBulks .receive
  refine ⟨tx, rx, ⟨n, htransmit⟩, ⟨n', hreceive⟩, hsame, hsame', ?_⟩
  unfold doAbortBulks
  rw [htx, hrx]
  dsimp only
  rw [List.append_nil, List.append_nil]
  rfl

theorem Ordered.doAbortBulks (h : s.Ordered) (hidle : s.handler = .idle)
    (hmutex : s.mutex = none) : s.doAbortBulks.Ordered := by
  obtain ⟨tx, rx, ⟨n, htx⟩, ⟨n', hrx⟩, hsame, hsame', heq⟩ := h.exists_doAbortBulks
  have hhandler : ∀ dir next, s.handler ≠ .callback dir next := by
    rw [hidle]
    nofun
  have hfirst := h.setQueue .transmit ((h.queue .transmit).update htx hsame.submitted)
    (.inl hmutex) hhandler
  have hsecond : ((s.setQueue .transmit tx).setQueue .receive rx).Ordered :=
    hfirst.setQueue .receive ((h.queue .receive).update hrx hsame'.submitted) (.inl hmutex) hhandler
  rw [heq]
  exact hsecond.notifyBulks .transmit (some .receive)

/-! ## Entries that are pending -/

/-- No entry of `s'` has been filled in anew. -/
def SameRequests (s s' : State ι) : Prop :=
  ∀ dir i, ((s'.queue dir).bulks i).request = ((s.queue dir).bulks i).request

theorem sameRequests_setQueue (h : ∀ i, (q.bulks i).request = ((s.queue dir).bulks i).request) :
    s.SameRequests (s.setQueue dir q) :=
  queue_setQueue (fun d q => ∀ i, (q.bulks i).request = ((s.queue d).bulks i).request)
    (fun _ _ => rfl) h

theorem SameRequests.trans {s' s'' : State ι} (h : s.SameRequests s') (h' : s'.SameRequests s'') :
    s.SameRequests s'' := fun dir i => (h' dir i).trans (h dir i)

theorem sameRequests_notifyBulks (s : State ι) (dir : Dir) (next : Option Dir) :
    s.SameRequests (s.notifyBulks dir next) :=
  sameRequests_setQueue (s := s) (q := { s.queue dir with remoteNotify := (s.queue dir).process })
    fun _ => rfl

theorem sameRequests_notified (s : State ι) (next : Option Dir) :
    s.SameRequests (s.notified next) := by
  cases next with
  | some dir => exact sameRequests_notifyBulks s dir none
  | none => exact fun _ _ => rfl

theorem sameRequests_removeBulk (s : State ι) (dir : Dir) (next : Option Dir) :
    s.SameRequests (s.removeBulk dir next) :=
  sameRequests_setQueue (s := s) (q := (s.queue dir).drop) fun _ => rfl

theorem sameRequests_accept_removeBulk (s : State ι) (dir : Dir) (next : Option Dir) :
    s.SameRequests ((s.accept dir).removeBulk dir next) := by
  have haccept : s.SameRequests (s.accept dir) := sameRequests_setQueue fun _ => rfl
  exact haccept.trans (sameRequests_removeBulk _ dir next)

theorem sameRequests_notifyTurn (s : State ι) (dir : Dir) (next : Option Dir) :
    s.SameRequests (s.notifyTurn dir next) := by
  dsimp only [notifyTurn]
  split
  · exact sameRequests_notified s next
  · split
    · split
      · split
        · exact sameRequests_accept_removeBulk s dir next
        · exact sameRequests_removeBulk s dir next
      · exact fun _ _ => rfl
      · exact sameRequests_removeBulk s dir next
    · exact sameRequests_removeBulk s dir next

theorem Ordered.sameRequests_bulkDone (h : s.Ordered) (dir : Dir) (actual : BitVec 32) :
    s.SameRequests (s.bulkDone dir actual) := by
  obtain ⟨n, p, hindices⟩ := (h.queue dir).indices
  obtain hlt | heq := Nat.lt_or_eq_of_le hindices.le_insert
  · let bulk := { (s.queue dir).current with actual }
    have hsame : (s.queue dir).SameRequests ((s.queue dir).processed bulk) :=
      Queue.sameRequests_processed rfl
    have hqueue : s.SameRequests (s.setQueue dir ((s.queue dir).processed bulk)) :=
      sameRequests_setQueue hsame.bulks
    rw [bulkDone_of_lt hindices hlt]
    exact hqueue.trans (sameRequests_notifyBulks (s.setQueue dir _) dir none)
  · rw [bulkDone_of_unexpected hindices heq]
    exact fun _ _ => rfl

theorem Ordered.sameRequests_doAbortBulks (h : s.Ordered) : s.SameRequests s.doAbortBulks := by
  obtain ⟨tx, rx, -, -, hsame, hsame', heq⟩ := h.exists_doAbortBulks
  have hfirst : s.SameRequests (s.setQueue .transmit tx) := sameRequests_setQueue hsame.bulks
  have hsecond : (s.setQueue .transmit tx).SameRequests
      ((s.setQueue .transmit tx).setQueue .receive rx) := sameRequests_setQueue hsame'.bulks
  rw [heq]
  exact (hfirst.trans hsecond).trans (sameRequests_notifyBulks _ _ _)

/-! ## Steps -/

variable [DecidableEq ι]

theorem Ordered.goto (h : s.Ordered) (t : ι) (pc : Pc) : (s.goto t pc).Ordered := { h with }

theorem locked_of_isFull {args : Args} (h : (s.queue args.dir).isFull) (t : ι) (prepared : Bool) :
    s.locked t args prepared = s.goto t (.wait args) := if_pos h

theorem locked_prepared {args : Args} (h : ¬ (s.queue args.dir).isFull) (t : ι) :
    s.locked t args true =
      { s.setQueue args.dir (((s.queue args.dir).fill args).prepare s.allocated) with
        allocated := s.allocated + 1
        mutex := some (t, args) }.goto t (.send args) := by
  dsimp only [locked]
  rw [if_neg h, if_pos rfl]

theorem locked_not_prepared {args : Args} (h : ¬ (s.queue args.dir).isFull) (t : ι) :
    s.locked t args false =
      (s.setQueue args.dir ((s.queue args.dir).fill args)).goto t .outside := by
  dsimp only [locked]
  rw [if_neg h, if_neg Bool.false_ne_true]

theorem Ordered.locked (h : s.Ordered) (hmutex : s.mutex = none) (t : ι) (args : Args)
    (prepared : Bool) : (s.locked t args prepared).Ordered := by
  by_cases hfull : (s.queue args.dir).isFull
  · rw [locked_of_isFull hfull]
    exact h.goto t _
  obtain ⟨n, p, hindices⟩ := (h.queue args.dir).indices
  have hroom := hindices.not_isFull hfull
  cases prepared with
  | false =>
    rw [locked_not_prepared hfull]
    refine ⟨queue_setQueue (fun _ q => q.Sound s.allocated) h.queue ?_, ?_,
      h.callback_setQueue rfl rfl, h.bug⟩
    · exact (h.queue args.dir).update (hindices.fill hroom args) rfl
    · exact fun t args heq => absurd (hmutex.symm.trans heq) nofun
  | true =>
    rw [locked_prepared hfull]
    refine ⟨queue_setQueue (fun _ q => q.Sound (s.allocated + 1))
      (fun d => (h.queue d).allocate) ?_, ?_, h.callback_setQueue rfl rfl, h.bug⟩
    · exact (h.queue args.dir).allocate.update ((hindices.fill hroom args).prepare hroom _) rfl
    · intro t' args' heq
      injection heq with heq
      injection heq with _ hargs
      refine ⟨s.allocated, ?_, Nat.lt_succ_self _⟩
      rw [← hargs]
      change ((s.setQueue args.dir _).queue args.dir).Holds s.allocated
      rw [queue_setQueue_self]
      exact Queue.holds_prepare hroom args (h.queue args.dir).below

theorem Ordered.sent (h : s.Ordered) {t : ι} {args : Args} (hmutex : s.mutex = some (t, args))
    (ok : Bool) : (s.sent t args ok).Ordered := by
  obtain ⟨x, hx, hlt⟩ := h.holder t args hmutex
  cases ok with
  | false => exact { h with holder := nofun }
  | true =>
    exact ⟨queue_setQueue (fun _ q => q.Sound s.allocated) h.queue
      ((h.queue args.dir).insert hx hlt), nofun, h.callback_setQueue rfl rfl, h.bug⟩

theorem Ordered.step (h : s.Ordered) (e : Event ι) : (s.step e).Ordered := by
  cases e with
  | transfer t args =>
    dsimp only [State.step]
    split
    · exact h.goto t _
    · exact h
  | lock t prepared =>
    dsimp only [State.step]
    split
    next hmutex => exact h.locked hmutex t _ prepared
    · exact h
  | wake t =>
    dsimp only [State.step]
    split
    · exact { h with }
    · exact h
  | sent ok =>
    dsimp only [State.step]
    split
    next hmutex => exact h.sent hmutex ok
    · exact h
  | done dir actual =>
    dsimp only [State.step]
    split
    next hidle hmutex => exact h.bulkDone hidle hmutex dir actual
    · exact h
  | abort =>
    dsimp only [State.step]
    split
    next hidle hmutex => exact h.doAbortBulks hidle hmutex
    · exact h
  | poll dir =>
    dsimp only [State.step]
    split
    · exact h.notifyBulks dir none
    · exact h
  | notify =>
    dsimp only [State.step]
    split
    · exact h.notifyTurn _ _
    · exact h
  | callbackReturn retry =>
    dsimp only [State.step]
    split
    next dir next hcallback =>
      split
      · exact h.notified next
      · exact h.accept_removeBulk (h.callback dir next hcallback) next
    · exact h
  | terminate => exact { h with }

/-- With room in the queue, an entry that is filled in is not one of a pending bulk. -/
theorem Ordered.request_locked (h : s.Ordered) (t : ι) (args : Args) (prepared : Bool) (d : Dir)
    {i : BitVec 32} (hi : (s.queue d).Pending i) :
    (((s.locked t args prepared).queue d).bulks (bulkIndex i)).request =
      ((s.queue d).bulks (bulkIndex i)).request := by
  by_cases hfull : (s.queue args.dir).isFull
  · rw [locked_of_isFull hfull]
    rfl
  have hother : ∀ {q : Queue}, (∀ j, j ≠ bulkIndex (s.queue args.dir).localInsert →
      q.bulks j = (s.queue args.dir).bulks j) →
      (((s.setQueue args.dir q).queue d).bulks (bulkIndex i)).request =
        ((s.queue d).bulks (bulkIndex i)).request := by
    intro q hq
    by_cases hd : d = args.dir
    · obtain ⟨n, p, hindices⟩ := (h.queue args.dir).indices
      obtain ⟨k, hle, hlt, hk⟩ := hindices.exists_of_pending (hd ▸ hi)
      have hne := hindices.bulkIndex_ne (hindices.not_isFull hfull) hle hlt
      rw [hd, queue_setQueue_self, hk, bulkIndex_ofNat, hq _ hne]
    · rw [queue_setQueue_of_ne hd]
  have hfill : ∀ j, j ≠ bulkIndex (s.queue args.dir).localInsert →
      ((s.queue args.dir).fill args).bulks j = (s.queue args.dir).bulks j :=
    fun j hj => Function.update_of_ne hj ..
  cases prepared with
  | false =>
    rw [locked_not_prepared hfull]
    exact hother hfill
  | true =>
    rw [locked_prepared hfull]
    exact hother fun j hj => (Function.update_of_ne hj ..).trans (hfill j hj)

theorem Ordered.request_step (h : s.Ordered) (e : Event ι) (d : Dir) {i : BitVec 32}
    (hi : (s.queue d).Pending i) :
    (((s.step e).queue d).bulks (bulkIndex i)).request =
      ((s.queue d).bulks (bulkIndex i)).request := by
  cases e with
  | transfer | wake =>
    dsimp only [State.step]
    split <;> rfl
  | terminate => rfl
  | lock t prepared =>
    dsimp only [State.step]
    split
    · exact h.request_locked t _ prepared d hi
    · rfl
  | sent ok =>
    dsimp only [State.step]
    split
    next t args _ =>
      cases ok with
      | false => rfl
      | true =>
        have hsame : s.SameRequests (s.setQueue args.dir (s.queue args.dir).insert) :=
          sameRequests_setQueue fun _ => rfl
        exact hsame d _
    · rfl
  | done dir actual =>
    dsimp only [State.step]
    split
    · exact h.sameRequests_bulkDone dir actual d _
    · rfl
  | abort =>
    dsimp only [State.step]
    split
    · exact h.sameRequests_doAbortBulks d _
    · rfl
  | poll dir =>
    dsimp only [State.step]
    split
    · exact sameRequests_notifyBulks s dir none d _
    · rfl
  | notify =>
    dsimp only [State.step]
    split
    · exact sameRequests_notifyTurn s _ _ d _
    · rfl
  | callbackReturn retry =>
    dsimp only [State.step]
    split
    · split
      · exact sameRequests_notified s _ d _
      · exact sameRequests_accept_removeBulk s _ _ d _
    · rfl

/-! ## Runs -/

omit [DecidableEq ι] in
theorem ordered_init : ({} : State ι).Ordered where
  queue _ :=
    { indices := ⟨0, 0, rfl, rfl, rfl, rfl, rfl, Nat.le_refl _, Nat.le_refl _, Nat.le_refl _,
        Nat.zero_le _, fun _ _ hlt => absurd hlt (Nat.not_lt_zero _), List.Sublist.refl _⟩
      sorted := List.Pairwise.nil
      below := nofun }
  holder := nofun
  callback := nofun
  bug := rfl

theorem ordered_run (es : List (Event ι)) : (Machine.run step ({} : State ι) es).Ordered :=
  Machine.run_invariant (fun _ e h => h.step e) es ordered_init

/-- Whatever coroutines, the peer, the client and the slot handler do, in every state reached
the indices are in order, no check of the DONE handler has failed, the next step leaves the
entry of a pending bulk as it has been filled in, and bulks are notified at most once each,
in the order of their submission. -/
theorem bulk_queues_inOrder (es : List (Event ι)) (dir : Dir) :
    let s := Machine.run step ({} : State ι) es
    (s.queue dir).InOrder ∧ s.bug = false ∧
      (∀ (e : Event ι) (i : BitVec 32), (s.queue dir).Pending i →
        (((s.step e).queue dir).bulks (bulkIndex i)).request =
          ((s.queue dir).bulks (bulkIndex i)).request) ∧
      (s.queue dir).accepted.Sublist (s.queue dir).submitted ∧
      (s.queue dir).submitted.Pairwise (· < ·) := by
  have h := ordered_run es
  obtain ⟨n, p, hindices⟩ := (h.queue dir).indices
  exact ⟨hindices.inOrder, h.bug, fun e i hi => h.request_step e dir hi,
    hindices.accepted.trans (List.take_sublist ..), (h.queue dir).sorted⟩

end State
end Bulk
