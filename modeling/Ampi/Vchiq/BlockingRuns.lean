-- SUMMARY: No waiter of a bulk transfer is forgotten, unless an entry is cleared that is in use again.
import Ampi.Vchiq.BulkEntries

/-!
# Runs with blocking transfers

Each call has a waiter of its own, and a bulk that is in use leads to the waiter of its call
as long as that sleeps.
-/

namespace Blocking

open Bulk Bulk.State

variable {ι : Type*}

/-! ## The waiters of calls -/

/-- The arguments of the call that a coroutine is in. -/
def callArgs : Pc → Option Args
  | .outside => none
  | .lock args | .wait args | .send args => some args

/-- The waiter of a call that is about to wait. -/
def Waiter.waits (w : Waiter) (q : Queue) (dir : Dir) : Waiter :=
  { w with bulk := some (dir, bulkIndex q.localInsert), number := q.submitted.length }

namespace State

variable {s s' : State ι} {t : ι}

/-- Each call has its own waiter. -/
structure Base (s : State ι) : Prop where
  ordered : s.service.Ordered
  addr_ne : ∀ t, ∀ w ∈ s.waiter t, w.addr ≠ 0
  distinct : ∀ t u, ∀ w ∈ s.waiter t, ∀ w' ∈ s.waiter u, w.addr = w'.addr → t = u
  /-- Before the wait. -/
  inside : ∀ t args, callArgs (s.service.pc t) = some args → args.mode = .blocking →
    ∃ w ∈ s.waiter t, w.addr = args.userdata
  /-- In the wait. -/
  asleep : ∀ t, ∀ w ∈ s.waiter t, w.bulk ≠ none → s.service.pc t = .outside
  holder : ∀ t args, s.service.mutex = some (t, args) → s.service.pc t = .send args

namespace Base

/-- One coroutine moves. -/
theorem move (h : s.Base) (hordered : s'.service.Ordered)
    (hpc : ∀ u, u ≠ t → s'.service.pc u = s.service.pc u)
    (hwaiter : ∀ u, u ≠ t → s'.waiter u = s.waiter u)
    (haddr : ∀ w ∈ s'.waiter t, w.addr ≠ 0 ∧ ∀ u, u ≠ t → ∀ w' ∈ s.waiter u, w.addr ≠ w'.addr)
    (hinside : ∀ args, callArgs (s'.service.pc t) = some args → args.mode = .blocking →
      ∃ w ∈ s'.waiter t, w.addr = args.userdata)
    (hasleep : ∀ w ∈ s'.waiter t, w.bulk ≠ none → s'.service.pc t = .outside)
    (hholder : ∀ u args, s'.service.mutex = some (u, args) → s'.service.pc u = .send args) :
    s'.Base where
  ordered := hordered
  addr_ne u w hw := by
    by_cases hu : u = t
    · subst hu
      exact (haddr w hw).1
    · exact h.addr_ne u w (hwaiter u hu ▸ hw)
  distinct u v w hw w' hw' heq := by
    by_cases hu : u = t
    · by_cases hv : v = t
      · rw [hu, hv]
      · subst hu
        exact absurd heq ((haddr w hw).2 v hv w' (hwaiter v hv ▸ hw'))
    · by_cases hv : v = t
      · subst hv
        exact absurd heq.symm ((haddr w' hw').2 u hu w (hwaiter u hu ▸ hw))
      · exact h.distinct u v w (hwaiter u hu ▸ hw) w' (hwaiter v hv ▸ hw') heq
  inside u args hargs hmode := by
    by_cases hu : u = t
    · subst hu
      exact hinside args hargs hmode
    · rw [hwaiter u hu]
      exact h.inside u args (hpc u hu ▸ hargs) hmode
  asleep u w hw hbulk := by
    by_cases hu : u = t
    · subst hu
      exact hasleep w hw hbulk
    · rw [hpc u hu]
      exact h.asleep u w (hwaiter u hu ▸ hw) hbulk
  holder := hholder

/-- The slot handler or the client acts. Waiters may be signalled. -/
theorem calm (h : s.Base) (hordered : s'.service.Ordered) (hpc : s'.service.pc = s.service.pc)
    (hmutex : s'.service.mutex = s.service.mutex) {f : Waiter → Waiter}
    (hf : ∀ w, (f w).addr = w.addr ∧ (f w).bulk = w.bulk)
    (hwaiter : ∀ t, s'.waiter t = (s.waiter t).map f) : s'.Base := by
  have hmem : ∀ t, ∀ w' ∈ s'.waiter t, ∃ w ∈ s.waiter t, f w = w' := by
    intro t w' hw'
    rw [hwaiter] at hw'
    exact Option.mem_map.1 hw'
  refine ⟨hordered, fun t w' hw' => ?_, fun t u w hw w' hw' heq => ?_,
    fun t args hargs hmode => ?_, fun t w' hw' hbulk => ?_, fun t args hholds => ?_⟩
  · obtain ⟨w, hw, rfl⟩ := hmem t w' hw'
    rw [(hf w).1]
    exact h.addr_ne t w hw
  · obtain ⟨v, hv, rfl⟩ := hmem t w hw
    obtain ⟨v', hv', rfl⟩ := hmem u w' hw'
    rw [(hf v).1, (hf v').1] at heq
    exact h.distinct t u v hv v' hv' heq
  · rw [hpc] at hargs
    obtain ⟨w, hw, haddr⟩ := h.inside t args hargs hmode
    refine ⟨f w, ?_, (hf w).1.trans haddr⟩
    rw [hwaiter]
    exact Option.mem_map_of_mem f hw
  · obtain ⟨w, hw, rfl⟩ := hmem t w' hw'
    rw [(hf w).2] at hbulk
    rw [hpc]
    exact h.asleep t w hw hbulk
  · rw [hmutex] at hholds
    rw [hpc]
    exact h.holder t args hholds

theorem addr_ne_of_ne (h : s.Base) {u : ι} {w w' : Waiter} (hw : w ∈ s.waiter t)
    (hw' : w' ∈ s.waiter u) (hne : u ≠ t) : w.addr ≠ w'.addr :=
  fun heq => hne (h.distinct t u w hw w' hw' heq).symm

/-- The waiter of a coroutine that moves is as it was, but for what it has of its bulk. -/
theorem kept (h : s.Base) {o : Option Waiter}
    (hkept : ∀ w ∈ o, ∃ w₀ ∈ s.waiter t, w.addr = w₀.addr) (w : Waiter) (hw : w ∈ o) :
    w.addr ≠ 0 ∧ ∀ u, u ≠ t → ∀ w' ∈ s.waiter u, w.addr ≠ w'.addr := by
  obtain ⟨w₀, hw₀, heq⟩ := hkept w hw
  rw [heq]
  exact ⟨h.addr_ne t w₀ hw₀, fun u hu w' hw' => h.addr_ne_of_ne hw₀ hw' hu⟩

/-- A coroutine in front of the wait has no bulk yet. -/
theorem bulk_eq_none (h : s.Base) {args : Args} (hargs : callArgs (s.service.pc t) = some args)
    {w : Waiter} (hw : w ∈ s.waiter t) : w.bulk = none := by
  by_contra hbulk
  rw [h.asleep t w hw hbulk] at hargs
  cases hargs

end Base

/-! ## Steps -/

variable [DecidableEq ι]

@[simp] theorem fail_waiter (s : State ι) (t : ι) (args : Args) : (s.fail t args).waiter =
    if args.mode = .blocking then Function.update s.waiter t none else s.waiter := by
  unfold State.fail
  split <;> rfl

theorem fail_waiter_of_ne {u : ι} (hu : u ≠ t) (args : Args) :
    (s.fail t args).waiter u = s.waiter u := by
  rw [fail_waiter]
  split
  · exact Function.update_of_ne hu ..
  · rfl

/-- The waiter is gone, or it is none of this call. -/
theorem mem_fail_waiter {args : Args} {w : Waiter} (hw : w ∈ (s.fail t args).waiter t) :
    w ∈ s.waiter t := by
  rw [fail_waiter] at hw
  split at hw
  · rw [Function.update_self] at hw
    cases hw
  · exact hw

theorem wait_waiter (s : State ι) (t : ι) (args : Args) : (s.wait t args).waiter =
    if args.mode = .blocking then Function.update s.waiter t
      ((s.waiter t).map (·.waits (s.service.queue args.dir) args.dir)) else s.waiter := by
  unfold State.wait
  dsimp only
  split <;> rfl

theorem wait_waiter_of_ne {u : ι} (hu : u ≠ t) (args : Args) :
    (s.wait t args).waiter u = s.waiter u := by
  rw [wait_waiter]
  split
  · exact Function.update_of_ne hu ..
  · rfl

theorem step_lock (s : State ι) (t : ι) (prepared : Bool) :
    (∃ args, s.service.pc t = .lock args ∧ s.service.mutex = none ∧
      s.step (.bulk (.lock t prepared)) =
        { (if ¬ (s.service.queue args.dir).isFull ∧ prepared = false then s.fail t args
            else s) with
          service := s.service.locked t args prepared }) ∨
    s.step (.bulk (.lock t prepared)) = s := by
  unfold State.step State.lock Bulk.State.step
  dsimp only
  cases hpc : s.service.pc t with
  | lock args =>
    cases hmutex : s.service.mutex with
    | none => exact .inl ⟨args, rfl, rfl, rfl⟩
    | some _ => exact .inr rfl
  | _ => exact .inr rfl

theorem step_sent (s : State ι) (ok : Bool) :
    (∃ t args, s.service.mutex = some (t, args) ∧ s.step (.bulk (.sent ok)) =
      { (if ok then s.wait t args else s.fail t args) with
        service := s.service.sent t args ok }) ∨
    s.step (.bulk (.sent ok)) = s := by
  unfold State.step State.sent Bulk.State.step
  dsimp only
  cases hmutex : s.service.mutex with
  | some p => exact .inl ⟨p.1, p.2, rfl, rfl⟩
  | none => exact .inr rfl

theorem step_transfer (s : State ι) (t : ι) (args : Args) :
    (s.service.pc t = .outside ∧ s.waiter t = none ∧ s.step (.bulk (.transfer t args)) =
      { s with
        service := s.service.goto t (.lock args)
        waiter := if args.mode = .blocking then
          Function.update s.waiter t (some { addr := args.userdata }) else s.waiter }) ∨
    s.step (.bulk (.transfer t args)) = s := by
  unfold State.step State.transfer Bulk.State.step
  dsimp only
  split
  next h => exact .inl ⟨h.1, Option.isNone_iff_eq_none.1 h.2, by rw [h.1]⟩
  · exact .inr rfl

/-- `wake`, with a permit. -/
theorem wake_eq {w : Waiter} {dir : Dir} {i : Nat} (hw : s.waiter t = some w)
    (hbulk : w.bulk = some (dir, i)) (hevent : w.event ≠ 0) : s.wake t =
      { service := cancelSignal s.service dir i
        waiter := Function.update s.waiter t none
        returned := Function.update s.returned t
          (some (if w.actual = actualAborted then .error else .success)) } := by
  unfold State.wake
  rw [hw]
  dsimp only
  rw [hbulk]
  dsimp only
  rw [if_neg hevent]

theorem wake_cases (s : State ι) (t : ι) :
    (∃ w dir i, s.waiter t = some w ∧ w.bulk = some (dir, i) ∧ w.event ≠ 0 ∧ s.wake t =
      { service := cancelSignal s.service dir i
        waiter := Function.update s.waiter t none
        returned := Function.update s.returned t
          (some (if w.actual = actualAborted then .error else .success)) }) ∨
    s.wake t = s := by
  cases hw : s.waiter t with
  | none =>
    right
    unfold State.wake
    rw [hw]
  | some w =>
    cases hbulk : w.bulk with
    | none =>
      right
      unfold State.wake
      rw [hw]
      dsimp only
      rw [hbulk]
    | some p =>
      by_cases hevent : w.event = 0
      · right
        unfold State.wake
        rw [hw]
        dsimp only
        rw [hbulk]
        exact if_pos hevent
      · exact .inl ⟨w, p.1, p.2, rfl, hbulk, hevent, wake_eq hw hbulk hevent⟩

theorem bulk_wake (b : Bulk.State ι) (t : ι) :
    (∃ args count, b.pc t = .wait args ∧ b.step (.wake t) =
      { b with bulkRemoveEvent := count }.goto t (.lock args)) ∨ b.step (.wake t) = b := by
  unfold Bulk.State.step
  dsimp only
  split
  next args count hpc hevent => exact .inl ⟨args, count, hpc, rfl⟩
  · exact .inr rfl

namespace Base

omit [DecidableEq ι] in
/-- A coroutine goes on in its call. -/
theorem goOn (h : s.Base) {args : Args} (hargs : callArgs (s.service.pc t) = some args)
    (hordered : s'.service.Ordered)
    (hpc : ∀ u, u ≠ t → s'.service.pc u = s.service.pc u) {pc : Pc}
    (hself : s'.service.pc t = pc) (hcall : callArgs pc = some args)
    (hwaiter : s'.waiter = s.waiter)
    (hholder : ∀ u args, s'.service.mutex = some (u, args) → s'.service.pc u = .send args) :
    s'.Base := by
  refine h.move hordered hpc (fun u _ => by rw [hwaiter]) ?_ ?_ ?_ hholder
  · rw [hwaiter]
    exact h.kept fun w hw => ⟨w, hw, rfl⟩
  · intro args' hargs' hmode
    rw [hself, hcall] at hargs'
    cases hargs'
    rw [hwaiter]
    exact h.inside t args hargs hmode
  · intro w hw hbulk
    rw [hwaiter] at hw
    exact absurd (h.bulk_eq_none hargs hw) hbulk

/-- A coroutine returns from its call without having waited. -/
theorem fail (h : s.Base) {args : Args} (hordered : s'.service.Ordered)
    (hpc : ∀ u, u ≠ t → s'.service.pc u = s.service.pc u) (hout : s'.service.pc t = .outside)
    (hwaiter : s'.waiter = (s.fail t args).waiter) (hmutex : s'.service.mutex = none) :
    s'.Base := by
  refine h.move hordered hpc (fun u hu => by rw [hwaiter, fail_waiter_of_ne hu]) ?_ ?_ ?_ ?_
  · rw [hwaiter]
    exact h.kept fun w hw => ⟨w, mem_fail_waiter hw, rfl⟩
  · intro args' hargs'
    rw [hout] at hargs'
    cases hargs'
  · exact fun _ _ _ => hout
  · intro u args' hholds
    rw [hmutex] at hholds
    cases hholds

theorem lock (h : s.Base) (t : ι) (prepared : Bool) :
    (s.step (.bulk (.lock t prepared))).Base := by
  obtain ⟨args, hpc, hmutex, heq⟩ | heq := s.step_lock t prepared
  · have hargs : callArgs (s.service.pc t) = some args := by rw [hpc]; rfl
    have hordered := h.ordered.locked hmutex t args prepared
    have hnone : ∀ u args, s.service.mutex ≠ some (u, args) := by simp [hmutex]
    rw [heq]
    by_cases hfull : (s.service.queue args.dir).isFull
    · rw [if_neg (fun h => h.1 hfull)]
      rw [locked_of_isFull hfull] at hordered ⊢
      exact h.goOn hargs hordered (fun u hu => Function.update_of_ne hu ..)
        (Function.update_self ..) rfl rfl
        fun u args' hholds => absurd hholds (hnone u args')
    cases prepared with
    | false =>
      rw [if_pos ⟨hfull, rfl⟩]
      rw [locked_not_prepared hfull] at hordered ⊢
      exact h.fail hordered (fun u hu => Function.update_of_ne hu ..)
        (Function.update_self ..) rfl hmutex
    | true =>
      rw [if_neg (fun h => Bool.noConfusion h.2)]
      rw [locked_prepared hfull] at hordered ⊢
      refine h.goOn hargs hordered (fun u hu => Function.update_of_ne hu ..)
        (Function.update_self ..) rfl rfl fun u args' hholds => ?_
      cases hholds
      exact Function.update_self ..
  · rw [heq]
    exact h

theorem sent (h : s.Base) (ok : Bool) : (s.step (.bulk (.sent ok))).Base := by
  obtain ⟨t, args, hmutex, heq⟩ | heq := s.step_sent ok
  · have hpc := h.holder t args hmutex
    have hargs : callArgs (s.service.pc t) = some args := by rw [hpc]; rfl
    have hordered := h.ordered.sent hmutex ok
    rw [heq]
    cases ok with
    | false =>
      exact h.fail hordered (fun u hu => Function.update_of_ne hu ..)
        (Function.update_self ..) rfl rfl
    | true =>
      refine h.move hordered (fun u hu => Function.update_of_ne hu ..)
        (fun u hu => wait_waiter_of_ne hu args) ?_ ?_ ?_ ?_
      · refine h.kept fun w hw => ?_
        change w ∈ (s.wait t args).waiter t at hw
        rw [wait_waiter] at hw
        split at hw
        · rw [Function.update_self] at hw
          obtain ⟨w₀, hw₀, rfl⟩ := Option.mem_map.1 hw
          exact ⟨w₀, hw₀, rfl⟩
        · exact ⟨w, hw, rfl⟩
      · intro args' hargs'
        have hout : (s.service.sent t args true).pc t = .outside := Function.update_self ..
        rw [show callArgs _ = none from congrArg callArgs hout] at hargs'
        cases hargs'
      · exact fun _ _ _ => Function.update_self ..
      · intro u args' hholds
        cases hholds
  · rw [heq]
    exact h

theorem transfer (h : s.Base) {args : Args} (he : s.Admissible (.bulk (.transfer t args))) :
    (s.step (.bulk (.transfer t args))).Base := by
  obtain ⟨hpc, hnone, heq⟩ | heq := s.step_transfer t args
  · have hordered := h.ordered.goto t (.lock args)
    have hself : (s.service.goto t (.lock args)).pc t = .lock args := Function.update_self ..
    rw [heq]
    refine h.move hordered (fun u hu => Function.update_of_ne hu ..) (fun u hu => ?_) ?_ ?_ ?_ ?_
    · dsimp only
      split
      · exact Function.update_of_ne hu ..
      · rfl
    · intro w hw
      dsimp only at hw
      split at hw
      next hmode =>
        rw [Function.update_self] at hw
        cases hw
        obtain ⟨hne, hfresh⟩ := he hmode
        exact ⟨hne, fun u _ w' hw' heq => hfresh u w' hw' heq.symm⟩
      · rw [hnone] at hw
        cases hw
    · intro args' hargs' hmode
      rw [hself] at hargs'
      cases hargs'
      refine ⟨{ addr := args.userdata }, ?_, rfl⟩
      dsimp only
      rw [if_pos hmode, Function.update_self]
      rfl
    · intro w hw hbulk
      dsimp only at hw
      split at hw
      · rw [Function.update_self] at hw
        cases hw
        exact absurd rfl hbulk
      · rw [hnone] at hw
        cases hw
    · intro u args' hholds
      have hsend := h.holder u args' hholds
      have hu : u ≠ t := by
        rintro rfl
        rw [hpc] at hsend
        cases hsend
      exact (Function.update_of_ne hu ..).trans hsend
  · rw [heq]
    exact h

end Base

namespace Base

/-- A coroutine is woken in front of a full queue. -/
theorem bulkWake (h : s.Base) (t : ι) :
    Base { s with service := s.service.step (.wake t) } := by
  have hordered := h.ordered.step (.wake t)
  obtain ⟨args, count, hpc, heq⟩ | heq := bulk_wake s.service t
  · have hargs : callArgs (s.service.pc t) = some args := by rw [hpc]; rfl
    rw [heq] at hordered ⊢
    refine h.goOn hargs hordered
      (fun u hu => Function.update_of_ne hu ..) (Function.update_self ..) rfl rfl
      fun u args' hholds => ?_
    have hsend := h.holder u args' hholds
    have hu : u ≠ t := by
      rintro rfl
      rw [hpc] at hsend
      cases hsend
    exact (Function.update_of_ne hu ..).trans hsend
  · rw [heq]
    exact h

theorem wake (h : s.Base) (t : ι) : (s.wake t).Base := by
  obtain ⟨w, dir, i, hw, hbulk, -, heq⟩ | heq := s.wake_cases t
  · have hpc := h.asleep t w hw (by simp [hbulk])
    rw [heq]
    refine h.move (t := t) (ordered_cancelSignal h.ordered dir i) (fun u _ => rfl)
      (fun u hu => Function.update_of_ne hu ..) ?_ ?_ (fun _ _ _ => hpc) h.holder
    · intro w' hw'
      dsimp only at hw'
      rw [Function.update_self] at hw'
      cases hw'
    · intro args hargs
      change callArgs (s.service.pc t) = some args at hargs
      rw [hpc] at hargs
      cases hargs
  · rw [heq]
    exact h

theorem step (h : s.Base) {e : Event ι} (he : s.Admissible e) : (s.step e).Base := by
  cases e with
  | wake t => exact h.wake t
  | bulk e =>
    have hordered := h.ordered.step e
    have hkeep : ∀ w : Waiter, (id w).addr = w.addr ∧ (id w).bulk = w.bulk := fun _ => ⟨rfl, rfl⟩
    have hid : ∀ t, s.waiter t = (s.waiter t).map id := fun t => Option.map_id.symm ▸ rfl
    cases e with
    | transfer t args => exact h.transfer he
    | lock t prepared => exact h.lock t prepared
    | wake t => exact h.bulkWake t
    | sent ok => exact h.sent ok
    | terminate => exact absurd he id
    | notify =>
      obtain ⟨hpc, hmutex, -⟩ := handler_step s.service .notify rfl
      cases hsignals : signals s.service with
      | none =>
        refine h.calm hordered hpc hmutex hkeep fun t => ?_
        change s.notify.waiter t = _
        rw [State.notify, hsignals]
        exact hid t
      | some bulk =>
        refine h.calm hordered hpc hmutex (f := (·.signal bulk)) (fun w => ?_) fun t => ?_
        · unfold Waiter.signal
          split <;> exact ⟨rfl, rfl⟩
        · change s.notify.waiter t = _
          rw [State.notify, hsignals]
    | done dir actual =>
      obtain ⟨hpc, hmutex, -⟩ := handler_step s.service (.done dir actual) rfl
      exact h.calm hordered hpc hmutex hkeep hid
    | abort =>
      obtain ⟨hpc, hmutex, -⟩ := handler_step s.service .abort rfl
      exact h.calm hordered hpc hmutex hkeep hid
    | poll dir =>
      obtain ⟨hpc, hmutex, -⟩ := handler_step s.service (.poll dir) rfl
      exact h.calm hordered hpc hmutex hkeep hid
    | callbackReturn retry =>
      obtain ⟨hpc, hmutex, -⟩ := handler_step s.service (.callbackReturn retry) rfl
      exact h.calm hordered hpc hmutex hkeep hid

end Base

omit [DecidableEq ι] in
theorem base_init : ({} : State ι).Base where
  ordered := ordered_init
  addr_ne t w hw := by cases hw
  distinct t u w hw := by cases hw
  inside t args hargs := by cases hargs
  asleep t w hw := by cases hw
  holder t args hholds := by cases hholds

/-! ## Every waiter is attended -/

omit [DecidableEq ι] in
/-- The bulks that are pending in mode BLOCKING are those that coroutines wait for. -/
structure Tracked (s : State ι) : Prop where
  base : s.Base
  sleeping : ∀ t, ∀ w ∈ s.waiter t, ∀ dir i, w.bulk = some (dir, i) → i = w.number % 4 ∧
    (w.event = 1 ∧ w.number < (s.service.queue dir).removed ∨
      w.event = 0 ∧ s.Pending dir w.number ∧ (entry s.service dir w.number).mode = .blocking ∧
        (entry s.service dir w.number).userdata = w.addr)
  early : ∀ t, ∀ w ∈ s.waiter t, w.bulk = none → w.event = 0
  pending : ∀ dir k, s.Pending dir k → (entry s.service dir k).mode = .blocking →
    ∃ t, ∃ w ∈ s.waiter t, w.bulk = some (dir, k % 4) ∧ w.number = k
  /-- The entry of the bulk that is being submitted. -/
  held : ∀ t args, s.service.mutex = some (t, args) →
    (entry s.service args.dir (s.service.queue args.dir).submitted.length).mode = args.mode ∧
    (args.mode = .blocking →
      (entry s.service args.dir (s.service.queue args.dir).submitted.length).userdata =
        args.userdata)
  callback : ∀ dir next, s.service.handler = .callback dir next →
    (entry s.service dir (s.service.queue dir).removed).mode = .callback
  hasInstance : s.service.hasInstance = true

namespace Tracked

omit [DecidableEq ι] in
theorem attended (h : s.Tracked) : s.Attended where
  remembered t w hw dir i hbulk := by
    obtain ⟨-, ⟨hevent, -⟩ | ⟨-, hpending, hmode, huserdata⟩⟩ := h.sleeping t w hw dir i hbulk
    · left
      rw [hevent]
      exact Nat.one_ne_zero
    · exact .inr ⟨hpending, hmode, huserdata⟩
  reaches dir k hpending hmode := by
    obtain ⟨t, w, hw, hbulk, rfl⟩ := h.pending dir k hpending hmode
    obtain ⟨-, ⟨-, hlt⟩ | ⟨hevent, -, -, huserdata⟩⟩ := h.sleeping t w hw dir _ hbulk
    · exact absurd hpending.1 (Nat.not_le_of_lt hlt)
    · exact ⟨t, w, hw, huserdata.symm, w, hw, hbulk, rfl, hevent⟩

omit [DecidableEq ι] in
theorem init : ({} : State ι).Tracked where
  base := base_init
  sleeping t w hw := by cases hw
  early t w hw := by cases hw
  pending dir k hpending := absurd hpending.2 (Nat.not_lt_zero k)
  held t args hholds := by cases hholds
  callback dir next hd := by cases hd
  hasInstance := rfl

omit [DecidableEq ι] in
/-- Nothing happens to the bulks. -/
theorem quiet (h : s.Tracked) {b' : Bulk.State ι} (hbase : Base { s with service := b' })
    (hq : Quiet s.service b')
    (hhandler : ∀ dir next, b'.handler = .callback dir next →
      (entry s.service dir (s.service.queue dir).removed).mode = .callback)
    (hinstance : b'.hasInstance = s.service.hasInstance) :
    Tracked { s with service := b' } where
  base := hbase
  sleeping t w hw dir i hbulk := by
    simpa only [State.Pending, hq.removed, hq.submitted, mode_eq hq.requests,
      userdata_eq hq.requests] using h.sleeping t w hw dir i hbulk
  early := h.early
  pending dir k hpending hmode := by
    refine h.pending dir k ?_ ((mode_eq hq.requests).symm.trans hmode)
    simpa only [State.Pending, hq.removed, hq.submitted] using hpending
  held t args hholds := by
    have hheld := h.held t args (hq.mutex.symm.trans hholds)
    simpa only [hq.submitted, mode_eq hq.requests, userdata_eq hq.requests] using hheld
  callback dir next hd := by
    dsimp only
    rw [hq.removed, mode_eq hq.requests]
    exact hhandler dir next hd
  hasInstance := hinstance.trans h.hasInstance

omit [DecidableEq ι] in
/-- The waiter of the oldest bulk, which is about to be notified. -/
theorem of_signalled (h : s.Tracked) {dir : Dir}
    (hpending : s.Pending dir (s.service.queue dir).removed)
    (hmode : (entry s.service dir (s.service.queue dir).removed).mode = .blocking)
    {w : Waiter} (hw : w ∈ s.waiter t)
    (haddr : w.addr = (entry s.service dir (s.service.queue dir).removed).userdata) :
    w.bulk = some (dir, (s.service.queue dir).removed % 4) ∧
      w.number = (s.service.queue dir).removed ∧ w.event = 0 := by
  obtain ⟨u, w', hw', hbulk, hnumber⟩ := h.pending dir _ hpending hmode
  obtain ⟨-, hcase⟩ := h.sleeping u w' hw' dir _ hbulk
  rw [hnumber] at hcase
  obtain ⟨-, hlt⟩ | ⟨hevent, -, -, huserdata⟩ := hcase
  · exact absurd hlt (Nat.lt_irrefl _)
  · obtain rfl := h.base.distinct t u w hw w' hw' (haddr.trans huserdata)
    obtain rfl : w = w' := Option.some.inj (hw.symm.trans hw')
    exact ⟨hbulk, hnumber, hevent⟩

omit [DecidableEq ι] in
/-- The oldest bulk is removed, and if it is one in mode BLOCKING its waiter is signalled. -/
theorem dropped (h : s.Tracked) (hbase : s'.Base) {dir : Dir}
    (hd : Dropped s.service s'.service dir)
    (hpending : s.Pending dir (s.service.queue dir).removed)
    (hhandler : ∀ dir next, s'.service.handler ≠ .callback dir next)
    (hinstance : s'.service.hasInstance = s.service.hasInstance)
    (hother : (entry s.service dir (s.service.queue dir).removed).mode ≠ .blocking →
      s'.waiter = s.waiter)
    (hsignal : (entry s.service dir (s.service.queue dir).removed).mode = .blocking →
      ∀ t, s'.waiter t = (s.waiter t).map
        (·.signal (entry s.service dir (s.service.queue dir).removed))) : s'.Tracked := by
  have hle : ∀ d, (s.service.queue d).removed ≤ (s'.service.queue d).removed := hd.fewer.removed
  -- a waiter that has not been signalled does not wait for the bulk that is removed
  have hstays : ∀ w : Waiter, ∀ d,
      (w.addr = (entry s.service dir (s.service.queue dir).removed).userdata →
        (entry s.service dir (s.service.queue dir).removed).mode ≠ .blocking) →
      (w.event = 1 ∧ w.number < (s.service.queue d).removed ∨
        w.event = 0 ∧ s.Pending d w.number ∧ (entry s.service d w.number).mode = .blocking ∧
          (entry s.service d w.number).userdata = w.addr) →
      (w.event = 1 ∧ w.number < (s'.service.queue d).removed ∨
        w.event = 0 ∧ s'.Pending d w.number ∧ (entry s'.service d w.number).mode = .blocking ∧
          (entry s'.service d w.number).userdata = w.addr) := by
    intro w d hunsignalled hcase
    obtain ⟨hevent, hlt⟩ | ⟨hevent, ⟨hge, hlt⟩, hmode, huserdata⟩ := hcase
    · exact .inl ⟨hevent, Nat.lt_of_lt_of_le hlt (hle d)⟩
    · refine .inr ⟨hevent, ⟨?_, by rw [hd.submitted]; exact hlt⟩, ?_, ?_⟩
      · by_cases hdir : d = dir
        · subst hdir
          rw [hd.removed]
          refine Nat.succ_le_of_lt (Nat.lt_of_le_of_ne hge fun heq => ?_)
          rw [← heq] at hmode huserdata
          exact hunsignalled huserdata.symm hmode
        · rw [hd.others d hdir]
          exact hge
      · rw [mode_eq hd.requests]
        exact hmode
      · rw [userdata_eq hd.requests]
        exact huserdata
  have hpending' : ∀ d k, s'.Pending d k → s.Pending d k := by
    intro d k ⟨hge, hlt⟩
    exact ⟨Nat.le_trans (hle d) hge, by rwa [hd.submitted] at hlt⟩
  have hheld : ∀ t args, s'.service.mutex = some (t, args) →
      (entry s'.service args.dir (s'.service.queue args.dir).submitted.length).mode = args.mode ∧
      (args.mode = .blocking →
        (entry s'.service args.dir (s'.service.queue args.dir).submitted.length).userdata =
          args.userdata) := by
    intro t args hholds
    simpa only [hd.submitted, mode_eq hd.requests, userdata_eq hd.requests] using
      h.held t args (hd.mutex.symm.trans hholds)
  by_cases hmode : (entry s.service dir (s.service.queue dir).removed).mode = .blocking
  · have hwaiter := hsignal hmode
    have hmem : ∀ t, ∀ w' ∈ s'.waiter t, ∃ w ∈ s.waiter t,
        w.signal (entry s.service dir (s.service.queue dir).removed) = w' := by
      intro t w' hw'
      rw [hwaiter] at hw'
      exact Option.mem_map.1 hw'
    refine ⟨hbase, ?_, ?_, ?_, hheld, fun d n hd => absurd hd (hhandler d n),
      hinstance.trans h.hasInstance⟩
    · intro t w' hw' d i hbulk
      obtain ⟨w, hw, rfl⟩ := hmem t w' hw'
      by_cases haddr : w.addr = (entry s.service dir (s.service.queue dir).removed).userdata
      · obtain ⟨hbulk', hnumber, hevent⟩ := h.of_signalled hpending hmode hw haddr
        rw [Waiter.signal, if_pos haddr] at hbulk ⊢
        dsimp only at hbulk ⊢
        rw [hbulk'] at hbulk
        cases hbulk
        refine ⟨by rw [hnumber], .inl ⟨by rw [hevent], ?_⟩⟩
        rw [hnumber, hd.removed]
        exact Nat.lt_succ_self _
      · rw [Waiter.signal, if_neg haddr] at hbulk ⊢
        obtain ⟨hi, hcase⟩ := h.sleeping t w hw d i hbulk
        exact ⟨hi, hstays w d (fun heq => absurd heq haddr) hcase⟩
    · intro t w' hw' hbulk
      obtain ⟨w, hw, rfl⟩ := hmem t w' hw'
      by_cases haddr : w.addr = (entry s.service dir (s.service.queue dir).removed).userdata
      · obtain ⟨hbulk', -⟩ := h.of_signalled hpending hmode hw haddr
        rw [Waiter.signal, if_pos haddr] at hbulk
        exact absurd (hbulk'.symm.trans hbulk) (by simp)
      · rw [Waiter.signal, if_neg haddr] at hbulk ⊢
        exact h.early t w hw hbulk
    · intro d k hk hmode'
      obtain ⟨t, w, hw, hbulk, hnumber⟩ :=
        h.pending d k (hpending' d k hk) ((mode_eq hd.requests).symm.trans hmode')
      refine ⟨t, _, by rw [hwaiter]; exact Option.mem_map_of_mem _ hw, ?_⟩
      unfold Waiter.signal
      split <;> exact ⟨hbulk, hnumber⟩
  · have hwaiter := hother hmode
    refine ⟨hbase, ?_, ?_, ?_, hheld, fun d n hd => absurd hd (hhandler d n),
      hinstance.trans h.hasInstance⟩
    · intro t w hw d i hbulk
      rw [hwaiter] at hw
      obtain ⟨hi, hcase⟩ := h.sleeping t w hw d i hbulk
      exact ⟨hi, hstays w d (fun _ => hmode) hcase⟩
    · rw [hwaiter]
      exact h.early
    · intro d k hk hmode'
      rw [hwaiter]
      exact h.pending d k (hpending' d k hk) ((mode_eq hd.requests).symm.trans hmode')

end Tracked

/-! ## The slot handler -/

namespace Tracked

/-- A message or a poll is taken up. -/
theorem takeUp (h : s.Tracked) {e : Bulk.Event ι} (he : IsHandler e)
    (hq : Quiet s.service (s.service.step e))
    (hhandler : ∀ dir next, (s.service.step e).handler = .callback dir next →
      (entry s.service dir (s.service.queue dir).removed).mode = .callback)
    (hbase : Base { s with service := s.service.step e }) :
    Tracked { s with service := s.service.step e } :=
  h.quiet hbase hq hhandler (handler_step s.service e he).2.2

theorem done (h : s.Tracked) (dir : Dir) (actual : BitVec 32) :
    (s.step (.bulk (.done dir actual))).Tracked := by
  refine h.takeUp rfl ?_ ?_ (h.base.step (e := .bulk (.done dir actual)) trivial)
  · unfold Bulk.State.step
    dsimp only
    split
    · exact quiet_bulkDone h.base.ordered dir actual
    · exact .refl
  · intro d n hd
    refine h.callback d n ?_
    unfold Bulk.State.step at hd
    dsimp only at hd
    split at hd
    · unfold bulkDone at hd
      dsimp only at hd
      split at hd
      · exact hd
      · split at hd
        · exact hd
        · cases hd
    · exact hd

theorem abort (h : s.Tracked) : (s.step (.bulk .abort)).Tracked := by
  refine h.takeUp rfl ?_ ?_ (h.base.step (e := .bulk .abort) trivial)
  · unfold Bulk.State.step
    dsimp only
    split
    · exact quiet_doAbortBulks h.base.ordered
    · exact .refl
  · intro d n hd
    refine h.callback d n ?_
    unfold Bulk.State.step at hd
    dsimp only at hd
    split at hd
    · cases hd
    · exact hd

theorem poll (h : s.Tracked) (dir : Dir) : (s.step (.bulk (.poll dir))).Tracked := by
  refine h.takeUp rfl ?_ ?_ (h.base.step (e := .bulk (.poll dir)) trivial)
  · unfold Bulk.State.step
    dsimp only
    split
    · exact quiet_notifyBulks dir none
    · exact .refl
  · intro d n hd
    refine h.callback d n ?_
    unfold Bulk.State.step at hd
    dsimp only at hd
    split at hd
    · cases hd
    · exact hd

theorem callbackReturn (h : s.Tracked) (retry : Bool) :
    (s.step (.bulk (.callbackReturn retry))).Tracked := by
  have hbase := h.base.step (e := .bulk (.callbackReturn retry)) trivial
  have hkeeps := handler_step s.service (.callbackReturn retry) rfl
  change Tracked { s with service := s.service.step (.callbackReturn retry) }
  change Base { s with service := s.service.step (.callbackReturn retry) } at hbase
  unfold Bulk.State.step at hbase hkeeps ⊢
  dsimp only at hbase hkeeps ⊢
  cases hhandler : s.service.handler with
  | callback dir next =>
    rw [hhandler] at hbase hkeeps
    cases retry with
    | true =>
      exact h.quiet hbase (quiet_notified next)
        (fun d n hd => absurd hd (notified_handler next d n)) hkeeps.2.2
    | false =>
      have hmode := h.callback dir next hhandler
      have hne : (entry s.service dir (s.service.queue dir).removed).mode ≠ .blocking := by
        rw [hmode]
        simp
      have hlt := removed_lt h.base.ordered (h.base.ordered.callback dir next hhandler)
      exact h.dropped hbase (dropped_accept_removeBulk dir next) ⟨Nat.le_refl _, hlt⟩
        (fun d n => by simp [removeBulk]) hkeeps.2.2 (fun _ => rfl) fun hb => absurd hb hne
  | _ =>
    exact h

omit [DecidableEq ι] in
/-- The bulk at `remove`, if it is in mode BLOCKING, has a waiter that is signalled. -/
theorem signals_eq (h : s.Tracked) {dir : Dir} {next : Option Dir}
    (hhandler : s.service.handler = .notify dir next)
    (hne : (s.service.queue dir).remove ≠ (s.service.queue dir).remoteNotify) :
    signals s.service =
      if (entry s.service dir (s.service.queue dir).removed).mode = .blocking then
        some (entry s.service dir (s.service.queue dir).removed) else none := by
  have hlt := removed_lt h.base.ordered hne
  unfold signals
  rw [hhandler]
  dsimp only
  rw [oldest_eq h.base.ordered]
  by_cases hmode : (entry s.service dir (s.service.queue dir).removed).mode = .blocking
  · have hdata := data_isSome h.base.ordered (Nat.le_refl _) hlt
    obtain ⟨t, w, hw, hbulk, hnumber⟩ := h.pending dir _ ⟨Nat.le_refl _, hlt⟩ hmode
    have huserdata : (entry s.service dir (s.service.queue dir).removed).userdata ≠ 0 := by
      obtain ⟨-, ⟨-, hlt'⟩ | ⟨-, -, -, heq⟩⟩ := h.sleeping t w hw dir _ hbulk
      · exact absurd (hnumber ▸ hlt') (Nat.lt_irrefl _)
      · rw [hnumber] at heq
        rw [heq]
        exact h.base.addr_ne t w hw
    rw [if_pos ⟨hne, hdata, h.hasInstance, hmode, huserdata⟩, if_pos hmode]
  · rw [if_neg fun hall => hmode hall.2.2.2.1, if_neg hmode]

theorem notify (h : s.Tracked) : (s.step (.bulk .notify)).Tracked := by
  have hbase := h.base.step (e := .bulk .notify) trivial
  have hkeeps := handler_step s.service .notify rfl
  change Tracked { s.notify with service := s.service.step .notify }
  change Base { s.notify with service := s.service.step .notify } at hbase
  unfold Bulk.State.step at hbase hkeeps ⊢
  dsimp only at hbase hkeeps ⊢
  cases hhandler : s.service.handler with
  | notify dir next =>
    rw [hhandler] at hbase hkeeps
    dsimp only at hbase hkeeps ⊢
    obtain ⟨hq, hcallback, hnone⟩ | ⟨hne, hd, hnot⟩ := notifyTurn_cases s.service dir next
    · have hsignals : signals s.service = none := by
        unfold signals
        rw [hhandler]
        exact if_neg fun hall => hnone ⟨hall.1, hall.2.2.2.1⟩
      have hsame : s.notify = s := by rw [State.notify, hsignals]
      rw [hsame] at hbase ⊢
      refine h.quiet hbase hq (fun d n hd => ?_) hkeeps.2.2
      rw [← oldest_eq h.base.ordered]
      exact hcallback d n hd
    · have hsignals := h.signals_eq hhandler hne
      refine h.dropped hbase hd ⟨Nat.le_refl _, removed_lt h.base.ordered hne⟩ hnot hkeeps.2.2
        (fun hmode => ?_) fun hmode t => ?_
      · rw [if_neg hmode] at hsignals
        dsimp only
        rw [State.notify, hsignals]
      · rw [if_pos hmode] at hsignals
        dsimp only
        rw [State.notify, hsignals]
  | _ =>
    have hsame : s.notify = s := by rw [State.notify, signals, hhandler]
    rw [hsame]
    exact h

end Tracked

/-! ## The coroutines -/

omit [DecidableEq ι] in
theorem lt_bound {b : Bulk.State ι} {dir : Dir} {k : Nat}
    (hlt : k < (b.queue dir).submitted.length) : k < bound b dir := by
  unfold bound
  split <;> omega

omit [DecidableEq ι] in
theorem held_lt_bound {b : Bulk.State ι} {args : Args} (hmutex : b.mutex = some (t, args)) :
    (b.queue args.dir).submitted.length < bound b args.dir := by
  unfold bound
  rw [hmutex]
  simp

namespace Tracked

omit [DecidableEq ι] in
/-- A coroutine moves in front of the wait. -/
theorem move (h : s.Tracked) (hbase : s'.Base)
    (hmode : ∀ dir k, s.Pending dir k →
      (entry s'.service dir k).mode = (entry s.service dir k).mode)
    (huserdata : ∀ dir k, s.Pending dir k →
      (entry s'.service dir k).userdata = (entry s.service dir k).userdata)
    (hsubmitted : ∀ dir, (s'.service.queue dir).submitted = (s.service.queue dir).submitted)
    (hremoved : ∀ dir, (s'.service.queue dir).removed = (s.service.queue dir).removed)
    (hwaiter : ∀ u, u ≠ t → s'.waiter u = s.waiter u)
    (hold : ∀ w ∈ s.waiter t, w.bulk = none)
    (hnew : ∀ w ∈ s'.waiter t, w.bulk = none ∧ w.event = 0)
    (hheld : ∀ t args, s'.service.mutex = some (t, args) →
      (entry s'.service args.dir (s'.service.queue args.dir).submitted.length).mode = args.mode ∧
      (args.mode = .blocking →
        (entry s'.service args.dir (s'.service.queue args.dir).submitted.length).userdata =
          args.userdata))
    (hhandler : s'.service.handler = s.service.handler)
    (hinstance : s'.service.hasInstance = s.service.hasInstance) : s'.Tracked where
  base := hbase
  sleeping u w hw dir i hbulk := by
    by_cases hu : u = t
    · subst hu
      exact absurd ((hnew w hw).1.symm.trans hbulk) (by simp)
    · rw [hwaiter u hu] at hw
      obtain ⟨hi, hcase⟩ := h.sleeping u w hw dir i hbulk
      refine ⟨hi, ?_⟩
      rw [State.Pending, hsubmitted, hremoved]
      obtain hdone | ⟨hevent, hpending, hm, hud⟩ := hcase
      · exact .inl hdone
      · exact .inr ⟨hevent, hpending, (hmode dir _ hpending).trans hm,
          (huserdata dir _ hpending).trans hud⟩
  early u w hw hbulk := by
    by_cases hu : u = t
    · subst hu
      exact (hnew w hw).2
    · exact h.early u w (hwaiter u hu ▸ hw) hbulk
  pending dir k hpending hm := by
    rw [State.Pending, hsubmitted, hremoved] at hpending
    obtain ⟨u, w, hw, hbulk, hnumber⟩ :=
      h.pending dir k hpending ((hmode dir k hpending).symm.trans hm)
    have hu : u ≠ t := by
      rintro rfl
      rw [hold w hw] at hbulk
      cases hbulk
    exact ⟨u, w, hwaiter u hu ▸ hw, hbulk, hnumber⟩
  held := hheld
  callback dir next hd := by
    rw [hhandler] at hd
    have hlt := removed_lt h.base.ordered (h.base.ordered.callback dir next hd)
    rw [hremoved, hmode dir _ ⟨Nat.le_refl _, hlt⟩]
    exact h.callback dir next hd
  hasInstance := hinstance.trans h.hasInstance

theorem transfer (h : s.Tracked) {args : Args} (he : s.Admissible (.bulk (.transfer t args))) :
    (s.step (.bulk (.transfer t args))).Tracked := by
  have hbase := h.base.step he
  obtain ⟨-, hnone, heq⟩ | heq := s.step_transfer t args
  · rw [heq] at hbase ⊢
    refine h.move (t := t) hbase (fun _ _ _ => rfl) (fun _ _ _ => rfl) (fun _ => rfl)
      (fun _ => rfl) (fun u hu => ?_) (fun w hw => ?_) (fun w hw => ?_) h.held rfl rfl
    · dsimp only
      split
      · exact Function.update_of_ne hu ..
      · rfl
    · rw [hnone] at hw
      cases hw
    · dsimp only at hw
      split at hw
      · rw [Function.update_self] at hw
        cases hw
        exact ⟨rfl, rfl⟩
      · rw [hnone] at hw
        cases hw
  · rw [heq]
    exact h

theorem lock (h : s.Tracked) (t : ι) (prepared : Bool) :
    (s.step (.bulk (.lock t prepared))).Tracked := by
  have hbase := h.base.step (e := .bulk (.lock t prepared)) trivial
  obtain ⟨args, hpc, hmutex, heq⟩ | heq := s.step_lock t prepared
  · have hargs : callArgs (s.service.pc t) = some args := by rw [hpc]; rfl
    have hold : ∀ w ∈ s.waiter t, w.bulk = none := fun w hw => h.base.bulk_eq_none hargs hw
    have hnone : ∀ u args, s.service.mutex ≠ some (u, args) := by simp [hmutex]
    rw [heq] at hbase ⊢
    by_cases hfull : (s.service.queue args.dir).isFull
    · rw [if_neg (fun h => h.1 hfull)] at hbase ⊢
      rw [locked_of_isFull hfull] at hbase ⊢
      exact h.move (t := t) hbase (fun _ _ _ => rfl) (fun _ _ _ => rfl) (fun _ => rfl)
        (fun _ => rfl) (fun _ _ => rfl) hold (fun w hw => ⟨hold w hw, h.early t w hw (hold w hw)⟩)
        h.held rfl rfl
    have hfilled := filled_locked h.base.ordered (t := t) hfull prepared
    have hentry : ∀ dir k, s.Pending dir k →
        entry (s.service.locked t args prepared) dir k = entry s.service dir k :=
      fun dir k hpending => hfilled.others dir k hpending.1 hpending.2
    cases prepared with
    | false =>
      rw [if_pos ⟨hfull, rfl⟩] at hbase ⊢
      refine h.move (t := t) hbase (fun dir k hk => congrArg Entry.mode (hentry dir k hk))
        (fun dir k hk => congrArg Entry.userdata (hentry dir k hk)) hfilled.submitted
        hfilled.removed (fun u hu => fail_waiter_of_ne hu args) hold (fun w hw => ?_)
        (fun u args' hholds => ?_) ?_ ?_
      · have hw' := mem_fail_waiter hw
        exact ⟨hold w hw', h.early t w hw' (hold w hw')⟩
      · rw [locked_not_prepared hfull] at hholds
        exact absurd hholds (hnone u args')
      · rw [locked_not_prepared hfull]
        rfl
      · rw [locked_not_prepared hfull]
        rfl
    | true =>
      rw [if_neg (fun h => Bool.noConfusion h.2)] at hbase ⊢
      refine h.move (t := t) hbase (fun dir k hk => congrArg Entry.mode (hentry dir k hk))
        (fun dir k hk => congrArg Entry.userdata (hentry dir k hk)) hfilled.submitted
        hfilled.removed (fun _ _ => rfl) hold
        (fun w hw => ⟨hold w hw, h.early t w hw (hold w hw)⟩) (fun u args' hholds => ?_) ?_ ?_
      · have hargs : args = args' := by
          rw [locked_prepared hfull] at hholds
          cases hholds
          rfl
        subst hargs
        dsimp only
        rw [hfilled.submitted]
        exact ⟨hfilled.mode, fun _ => hfilled.userdata⟩
      · rw [locked_prepared hfull]
        rfl
      · rw [locked_prepared hfull]
        rfl
  · rw [heq]
    exact h

theorem bulkWake (h : s.Tracked) (t : ι) : (s.step (.bulk (.wake t))).Tracked := by
  have hbase := h.base.step (e := .bulk (.wake t)) trivial
  change Base { s with service := s.service.step (.wake t) } at hbase
  change Tracked { s with service := s.service.step (.wake t) }
  obtain ⟨args, count, hpc, heq⟩ | heq := bulk_wake s.service t
  · rw [heq] at hbase ⊢
    exact h.quiet hbase ⟨fun _ _ => rfl, fun _ => rfl, fun _ => rfl, rfl⟩ h.callback rfl
  · rw [heq]
    exact h

/-- The entry of the bulk that has been submitted is the one that is filled in. -/
theorem submit (h : s.Tracked) {args : Args} (hmutex : s.service.mutex = some (t, args))
    (hbase : Base { s.wait t args with service := s.service.sent t args true }) :
    Tracked { s.wait t args with service := s.service.sent t args true } := by
  have hpc := h.base.holder t args hmutex
  have hargs : callArgs (s.service.pc t) = some args := by rw [hpc]; rfl
  obtain ⟨hheldMode, hheldUserdata⟩ := h.held t args hmutex
  obtain ⟨n, p, hindices⟩ := (h.base.ordered.queue args.dir).indices
  obtain ⟨x, hx, -⟩ := h.base.ordered.holder t args hmutex
  have hindex : bulkIndex (s.service.queue args.dir).localInsert =
      (s.service.queue args.dir).submitted.length % 4 := by
    rw [hindices.localInsert, bulkIndex_ofNat]
  have hqueue : ∀ P : Dir → Queue → Prop, (∀ d, P d (s.service.queue d)) →
      P args.dir (s.service.queue args.dir).insert →
      ∀ d, P d ((s.service.sent t args true).queue d) := fun P => queue_setQueue P
  have hentry : ∀ d k, entry (s.service.sent t args true) d k = entry s.service d k :=
    fun d k => hqueue (fun d q => q.bulks (k % 4) = (s.service.queue d).bulks (k % 4))
      (fun _ => rfl) rfl d
  have hremoved : ∀ d, ((s.service.sent t args true).queue d).removed =
      (s.service.queue d).removed :=
    hqueue (fun d q => q.removed = (s.service.queue d).removed) (fun _ => rfl) rfl
  have hle : ∀ d, (s.service.queue d).submitted.length ≤
      ((s.service.sent t args true).queue d).submitted.length :=
    hqueue (fun d q => (s.service.queue d).submitted.length ≤ q.submitted.length)
      (fun _ => Nat.le_refl _) (by rw [Queue.submitted_insert hx, List.length_append]; simp)
  have hsplit : ∀ d k, k < ((s.service.sent t args true).queue d).submitted.length →
      k < (s.service.queue d).submitted.length ∨
        d = args.dir ∧ k = (s.service.queue d).submitted.length := by
    refine hqueue (fun d q => ∀ k, k < q.submitted.length →
      k < (s.service.queue d).submitted.length ∨
        d = args.dir ∧ k = (s.service.queue d).submitted.length)
      (fun d k hk => .inl hk) fun k hk => ?_
    rw [Queue.submitted_insert hx, List.length_append, List.length_singleton] at hk
    rcases Nat.lt_or_eq_of_le (Nat.le_of_lt_succ hk) with hk | hk
    · exact .inl hk
    · exact .inr ⟨rfl, hk⟩
  have hlast : (s.service.queue args.dir).submitted.length <
      ((s.service.sent t args true).queue args.dir).submitted.length := by
    have hself : (s.service.sent t args true).queue args.dir =
        (s.service.queue args.dir).insert := queue_setQueue_self
    rw [hself, Queue.submitted_insert hx, List.length_append, List.length_singleton]
    exact Nat.lt_succ_self _
  have hold : ∀ w ∈ s.waiter t, w.bulk = none := fun w hw => h.base.bulk_eq_none hargs hw
  -- a waiter other than that of the bulk
  have hother : ∀ u, ∀ w ∈ s.waiter u, ∀ d i, w.bulk = some (d, i) → i = w.number % 4 ∧
      (w.event = 1 ∧ w.number < ((s.service.sent t args true).queue d).removed ∨
        w.event = 0 ∧ (((s.service.sent t args true).queue d).removed ≤ w.number ∧
          w.number < ((s.service.sent t args true).queue d).submitted.length) ∧
        (entry (s.service.sent t args true) d w.number).mode = .blocking ∧
        (entry (s.service.sent t args true) d w.number).userdata = w.addr) := by
    intro u w hw d i hbulk
    obtain ⟨hi, hcase⟩ := h.sleeping u w hw d i hbulk
    refine ⟨hi, ?_⟩
    rw [hentry, hremoved]
    obtain hdone | ⟨hevent, ⟨hge, hlt⟩, hm, hud⟩ := hcase
    · exact .inl hdone
    · exact .inr ⟨hevent, ⟨hge, Nat.lt_of_lt_of_le hlt (hle d)⟩, hm, hud⟩
  refine ⟨hbase, fun u w hw d i hbulk => ?_, fun u w hw hbulk => ?_, fun d k hk hm => ?_,
    fun u args' hholds => (by cases hholds), fun d next hd => ?_, h.hasInstance⟩
  · by_cases hu : u = t
    · subst hu
      change w ∈ (s.wait u args).waiter u at hw
      rw [wait_waiter] at hw
      split at hw
      next hblocking =>
        rw [Function.update_self] at hw
        obtain ⟨w₀, hw₀, rfl⟩ := Option.mem_map.1 hw
        cases hbulk
        have haddr : w₀.addr = args.userdata := by
          obtain ⟨w₁, hw₁, haddr⟩ := h.base.inside u args hargs hblocking
          obtain rfl : w₀ = w₁ := Option.some.inj (hw₀.symm.trans hw₁)
          exact haddr
        refine ⟨hindex, .inr ⟨h.early u w₀ hw₀ (hold w₀ hw₀), ⟨?_, hlast⟩, ?_, ?_⟩⟩
        · exact (hremoved args.dir).trans_le hindices.removed_le
        · exact (congrArg Entry.mode (hentry _ _)).trans (hheldMode.trans hblocking)
        · exact (congrArg Entry.userdata (hentry _ _)).trans
            ((hheldUserdata hblocking).trans haddr.symm)
      · exact hother u w hw d i hbulk
    · exact hother u w (wait_waiter_of_ne hu args ▸ hw) d i hbulk
  · by_cases hu : u = t
    · subst hu
      change w ∈ (s.wait u args).waiter u at hw
      rw [wait_waiter] at hw
      split at hw
      · rw [Function.update_self] at hw
        obtain ⟨w₀, hw₀, rfl⟩ := Option.mem_map.1 hw
        cases hbulk
      · exact h.early u w hw hbulk
    · exact h.early u w (wait_waiter_of_ne hu args ▸ hw) hbulk
  · have hm' : (entry s.service d k).mode = .blocking :=
      (congrArg Entry.mode (hentry d k)).symm.trans hm
    have hge : (s.service.queue d).removed ≤ k := (hremoved d).symm.trans_le hk.1
    obtain hlt | ⟨rfl, rfl⟩ := hsplit d k hk.2
    · obtain ⟨u, w, hw, hbulk, hnumber⟩ := h.pending d k ⟨hge, hlt⟩ hm'
      have hu : u ≠ t := by
        rintro rfl
        rw [hold w hw] at hbulk
        cases hbulk
      exact ⟨u, w, (wait_waiter_of_ne hu args).symm ▸ hw, hbulk, hnumber⟩
    · have hblocking : args.mode = .blocking := hheldMode.symm.trans hm'
      obtain ⟨w, hw, -⟩ := h.base.inside t args hargs hblocking
      refine ⟨t, w.waits (s.service.queue args.dir) args.dir, ?_, ?_, rfl⟩
      · change _ ∈ (s.wait t args).waiter t
        rw [wait_waiter, if_pos hblocking, Function.update_self]
        exact Option.mem_map_of_mem _ hw
      · rw [← hindex]
        rfl
  · refine (congrArg Entry.mode (hentry d _)).trans ?_
    rw [show ((s.service.sent t args true).queue d).removed = _ from hremoved d]
    exact h.callback d next hd

theorem sent (h : s.Tracked) (ok : Bool) : (s.step (.bulk (.sent ok))).Tracked := by
  have hbase := h.base.step (e := .bulk (.sent ok)) trivial
  obtain ⟨t, args, hmutex, heq⟩ | heq := s.step_sent ok
  · rw [heq] at hbase ⊢
    cases ok with
    | true => exact h.submit hmutex hbase
    | false =>
      have hpc := h.base.holder t args hmutex
      have hargs : callArgs (s.service.pc t) = some args := by rw [hpc]; rfl
      have hold : ∀ w ∈ s.waiter t, w.bulk = none := fun w hw => h.base.bulk_eq_none hargs hw
      refine h.move (t := t) hbase (fun _ _ _ => rfl) (fun _ _ _ => rfl) (fun _ => rfl)
        (fun _ => rfl) (fun u hu => fail_waiter_of_ne hu args) hold (fun w hw => ?_)
        (fun u args' hholds => by cases hholds) rfl rfl
      have hw' := mem_fail_waiter hw
      exact ⟨hold w hw', h.early t w hw' (hold w hw')⟩
  · rw [heq]
    exact h

end Tracked

namespace Tracked

/-- A coroutine returns whose entry is not in use for a blocking transfer. -/
theorem wake (h : s.Tracked) (ht : s.Timely (.wake t)) : (s.wake t).Tracked := by
  have hbase := h.base.wake t
  obtain ⟨w, dir, i, hw, hbulk, hevent, heq⟩ | heq := s.wake_cases t
  · rw [heq] at hbase ⊢
    have hnumber : w.number < (s.service.queue dir).removed := by
      obtain ⟨-, ⟨-, hlt⟩ | ⟨hzero, -⟩⟩ := h.sleeping t w hw dir i hbulk
      · exact hlt
      · exact absurd hzero hevent
    have hnone := ht w hw hevent (dir, i) hbulk
    have hsubmitted : ∀ d, ((cancelSignal s.service dir i).queue d).submitted =
        (s.service.queue d).submitted :=
      queue_setQueue (fun d q => q.submitted = (s.service.queue d).submitted) (fun _ => rfl) rfl
    have hremoved : ∀ d, ((cancelSignal s.service dir i).queue d).removed =
        (s.service.queue d).removed :=
      queue_setQueue (fun d q => q.removed = (s.service.queue d).removed) (fun _ => rfl) rfl
    have hmode : ∀ d k, (entry (cancelSignal s.service dir i) d k).mode =
        (entry s.service d k).mode := fun d k => mode_cancelSignal s.service dir i d k
    have huserdata : ∀ d k, (s.service.queue d).removed ≤ k → k < bound s.service d →
        (entry s.service d k).mode = .blocking →
        (entry (cancelSignal s.service dir i) d k).userdata = (entry s.service d k).userdata := by
      intro d k hge hlt hm
      refine userdata_cancelSignal_of_ne fun ⟨hd, hk⟩ => ?_
      subst hd
      exact hnone k hlt hge hk hm
    have hkeep : ∀ u, ∀ w' ∈ Function.update s.waiter t none u, u ≠ t ∧ w' ∈ s.waiter u := by
      intro u w' hw'
      by_cases hu : u = t
      · subst hu
        rw [Function.update_self] at hw'
        cases hw'
      · exact ⟨hu, Function.update_of_ne hu none s.waiter ▸ hw'⟩
    have hmem : ∀ u, u ≠ t → ∀ w' ∈ s.waiter u, w' ∈ Function.update s.waiter t none u := by
      intro u hu w' hw'
      rw [Function.update_of_ne hu]
      exact hw'
    refine ⟨hbase, fun u w' hw' d j hbulk' => ?_, fun u w' hw' => h.early u w' (hkeep u w' hw').2,
      fun d k hk hm => ?_, fun u args hholds => ?_, fun d next hd => ?_, h.hasInstance⟩
    · obtain ⟨hj, hcase⟩ := h.sleeping u w' (hkeep u w' hw').2 d j hbulk'
      refine ⟨hj, ?_⟩
      rw [State.Pending, hsubmitted, hremoved, hmode]
      obtain hdone | ⟨hzero, hpending, hm, hud⟩ := hcase
      · exact .inl hdone
      · exact .inr ⟨hzero, hpending, hm,
          (huserdata d _ hpending.1 (lt_bound hpending.2) hm).trans hud⟩
    · rw [State.Pending, hsubmitted, hremoved] at hk
      rw [hmode] at hm
      obtain ⟨u, w', hw', hbulk', hk'⟩ := h.pending d k hk hm
      have hu : u ≠ t := by
        rintro rfl
        obtain rfl : w = w' := Option.some.inj (hw.symm.trans hw')
        cases hbulk.symm.trans hbulk'
        exact absurd hk.1 (Nat.not_le_of_lt (hk' ▸ hnumber))
      exact ⟨u, w', hmem u hu w' hw', hbulk', hk'⟩
    · obtain ⟨hm, hud⟩ := h.held u args hholds
      dsimp only
      rw [hsubmitted, hmode]
      refine ⟨hm, fun hblocking => ?_⟩
      obtain ⟨n, p, hindices⟩ := (h.base.ordered.queue args.dir).indices
      exact (huserdata _ _ hindices.removed_le (held_lt_bound hholds)
        (hm.trans hblocking)).trans (hud hblocking)
    · dsimp only
      rw [hremoved, hmode]
      exact h.callback d next hd
  · rw [heq]
    exact h

theorem step (h : s.Tracked) {e : Event ι} (he : s.Admissible e ∧ s.Timely e) :
    (s.step e).Tracked := by
  cases e with
  | wake t => exact h.wake he.2
  | bulk e =>
    cases e with
    | transfer t args => exact h.transfer he.1
    | lock t prepared => exact h.lock t prepared
    | wake t => exact h.bulkWake t
    | sent ok => exact h.sent ok
    | done dir actual => exact h.done dir actual
    | abort => exact h.abort
    | poll dir => exact h.poll dir
    | notify => exact h.notify
    | callbackReturn retry => exact h.callbackReturn retry
    | terminate => exact absurd he.1 id

end Tracked

variable {es fs : List (Event ι)}

theorem run_tracked
    (hes : Machine.Along State.step (fun s e => s.Admissible e ∧ s.Timely e) {} es) :
    (run {} es).Tracked :=
  Machine.Along.invariant (fun _ _ h he => h.step he) hes .init

/-- The transfer of a coroutine, up to its wait. -/
def submission (t : ι) (mode : Mode) (userdata : BitVec 32) : List (Event ι) :=
  [.bulk (.transfer t ⟨.transmit, mode, userdata, 64⟩), .bulk (.lock t true), .bulk (.sent true)]

/-- The peer is done with the oldest bulk, which is notified. -/
def completion : List (Event ι) :=
  [.bulk (.done .transmit 64), .bulk .notify, .bulk .notify]

/-- As long as no coroutine clears an entry that is in use again, every sleeper has its
signal, or is to get it, and every signal goes to the coroutine that waits for it. -/
theorem waiters_attended
    (hes : Machine.Along State.step (fun s e => s.Admissible e ∧ s.Timely e) {} es) :
    (run {} es).Attended := (run_tracked hes).attended

/-- One of two coroutines has been signalled, and returns. -/
theorem waiters_attended_two : (run {} (submission 0 .blocking 16 ++ submission 1 .blocking 32 ++
    completion ++ [.wake 0]) : State (Fin 2)).Attended := waiters_attended (by decide +kernel)

end State

end Blocking
