-- SUMMARY: A waiter of a bulk transfer whose entry has been cleared for another one is forgotten for good.
import Ampi.Vchiq.BlockingRuns

/-!
# Forgotten waiters

A coroutine that is woken clears the `userdata` of the entry that its bulk was in. By then
the entry may be in use for the bulk of another coroutine, which nothing signals any more.
-/

namespace Blocking

open Bulk Bulk.State

variable {ι : Type*} [DecidableEq ι]

namespace State

variable {s s' : State ι} {t : ι} {es fs : List (Event ι)}

omit [DecidableEq ι] in
/-- A coroutine sleeps on its waiter. -/
def Asleep (s : State ι) (u : ι) : Prop := ∃ w ∈ s.waiter u, w.bulk ≠ none ∧ w.event = 0

omit [DecidableEq ι] in
/-- And no bulk that is in use leads to the waiter. -/
def Forgotten (s : State ι) (u : ι) : Prop :=
  ∃ w ∈ s.waiter u, w.bulk ≠ none ∧ w.event = 0 ∧
    ∀ dir k, (s.service.queue dir).removed ≤ k → k < bound s.service dir →
      (entry s.service dir k).mode = .blocking → (entry s.service dir k).userdata ≠ w.addr

namespace Forgotten

variable {u : ι}

omit [DecidableEq ι] in
theorem asleep (h : s.Forgotten u) : s.Asleep u := by
  obtain ⟨w, hw, hbulk, hevent, -⟩ := h
  exact ⟨w, hw, hbulk, hevent⟩

omit [DecidableEq ι] in
/-- Its own waiter stays as it is, and no entry comes to lead to it. -/
theorem keep (h : s.Forgotten u) (hwaiter : ∀ w ∈ s.waiter u, w ∈ s'.waiter u)
    (hentry : ∀ w ∈ s.waiter u, ∀ dir k, (s'.service.queue dir).removed ≤ k →
      k < bound s'.service dir → (entry s'.service dir k).mode = .blocking →
      (entry s'.service dir k).userdata = w.addr →
      (s.service.queue dir).removed ≤ k ∧ k < bound s.service dir ∧
        (entry s.service dir k).mode = .blocking ∧
        (entry s.service dir k).userdata = w.addr) : s'.Forgotten u := by
  obtain ⟨w, hw, hbulk, hevent, hnone⟩ := h
  refine ⟨w, hwaiter w hw, hbulk, hevent, fun dir k hge hlt hmode heq => ?_⟩
  obtain ⟨hge', hlt', hmode', heq'⟩ := hentry w hw dir k hge hlt hmode heq
  exact hnone dir k hge' hlt' hmode' heq'

omit [DecidableEq ι] in
theorem fewer (h : s.Forgotten u) (hf : Fewer s.service s'.service)
    (hwaiter : ∀ w ∈ s.waiter u, w ∈ s'.waiter u) : s'.Forgotten u := by
  refine h.keep hwaiter fun w _ dir k hge hlt hmode heq => ⟨?_, ?_, ?_, ?_⟩
  · exact Nat.le_trans (hf.removed dir) hge
  · have hbound : bound s'.service dir = bound s.service dir := by
      unfold bound
      rw [hf.mutex, hf.submitted]
    exact hbound ▸ hlt
  · exact (mode_eq hf.requests).symm.trans hmode
  · exact (userdata_eq hf.requests).symm.trans heq

omit [DecidableEq ι] in
theorem pc_eq (h : s.Forgotten u) (hb : s.Base) : s.service.pc u = .outside := by
  obtain ⟨w, hw, hbulk, -⟩ := h
  exact hb.asleep u w hw hbulk

theorem transfer (h : s.Forgotten u) (t : ι) (args : Args) :
    (s.step (.bulk (.transfer t args))).Forgotten u := by
  obtain ⟨-, hnone, heq⟩ | heq := s.step_transfer t args
  · rw [heq]
    have hu : u ≠ t := by
      rintro rfl
      obtain ⟨w, hw, -⟩ := h
      rw [hnone] at hw
      cases hw
    refine h.fewer ⟨fun _ _ => rfl, fun _ => rfl, fun _ => Nat.le_refl _, rfl⟩ fun w hw => ?_
    dsimp only
    split
    · rw [Function.update_of_ne hu]
      exact hw
    · exact hw
  · rw [heq]
    exact h

theorem lock (h : s.Forgotten u) (hb : s.Base) (t : ι) (prepared : Bool) :
    (s.step (.bulk (.lock t prepared))).Forgotten u := by
  obtain ⟨args, hpc, hmutex, heq⟩ | heq := s.step_lock t prepared
  · have hu : u ≠ t := by
      rintro rfl
      rw [h.pc_eq hb] at hpc
      cases hpc
    rw [heq]
    by_cases hfull : (s.service.queue args.dir).isFull
    · rw [if_neg (fun h => h.1 hfull), locked_of_isFull hfull]
      exact h.fewer ⟨fun _ _ => rfl, fun _ => rfl, fun _ => Nat.le_refl _, rfl⟩ fun w hw => hw
    have hfilled := filled_locked hb.ordered (t := t) hfull prepared
    have hold : ∀ dir k, ((s.service.locked t args prepared).queue dir).removed ≤ k →
        k < ((s.service.locked t args prepared).queue dir).submitted.length →
        (s.service.queue dir).removed ≤ k ∧ k < bound s.service dir ∧
          entry (s.service.locked t args prepared) dir k = entry s.service dir k := by
      intro dir k hge hlt
      rw [hfilled.removed] at hge
      rw [hfilled.submitted] at hlt
      exact ⟨hge, lt_bound hlt, hfilled.others dir k hge hlt⟩
    cases prepared with
    | false =>
      have hmutex' : (s.service.locked t args false).mutex = none := by
        rw [locked_not_prepared hfull]
        exact hmutex
      rw [if_pos ⟨hfull, rfl⟩]
      refine h.keep (fun w hw => (fail_waiter_of_ne hu args).symm ▸ hw)
        fun w _ dir k hge hlt hmode heq => ?_
      dsimp only at hge hlt hmode heq
      rw [bound_none hmutex'] at hlt
      obtain ⟨hge', hlt', hsame⟩ := hold dir k hge hlt
      rw [hsame] at hmode heq
      exact ⟨hge', hlt', hmode, heq⟩
    | true =>
      have hmutex' : (s.service.locked t args true).mutex = some (t, args) := by
        rw [locked_prepared hfull]
        rfl
      rw [if_neg (fun h => Bool.noConfusion h.2)]
      refine h.keep (fun w hw => hw) fun w hw dir k hge hlt hmode heq => ?_
      dsimp only at hge hlt hmode heq
      rw [bound_some hmutex'] at hlt
      by_cases hk : k < ((s.service.locked t args true).queue dir).submitted.length
      · obtain ⟨hge', hlt', hsame⟩ := hold dir k hge hk
        rw [hsame] at hmode heq
        exact ⟨hge', hlt', hmode, heq⟩
      · -- the bulk that is being submitted leads to the waiter of its own call
        split at hlt
        next hdir =>
          subst hdir
          have hlast : k = (s.service.queue args.dir).submitted.length := by
            rw [hfilled.submitted] at hk hlt
            omega
          subst hlast
          rw [hfilled.mode] at hmode
          rw [hfilled.userdata] at heq
          obtain ⟨w', hw', haddr⟩ := hb.inside t args (by rw [hpc]; rfl) hmode
          exact absurd (hb.distinct u t w hw w' hw' (heq.symm.trans haddr.symm)) hu
        · exact absurd hlt hk
  · rw [heq]
    exact h

theorem sent (h : s.Forgotten u) (hb : s.Base) (ok : Bool) :
    (s.step (.bulk (.sent ok))).Forgotten u := by
  obtain ⟨t, args, hmutex, heq⟩ | heq := s.step_sent ok
  · have hpc := hb.holder t args hmutex
    have hu : u ≠ t := by
      rintro rfl
      rw [h.pc_eq hb] at hpc
      cases hpc
    rw [heq]
    cases ok with
    | false =>
      refine h.keep (fun w hw => (fail_waiter_of_ne hu args).symm ▸ hw)
        fun w _ dir k hge hlt hmode heq => ⟨hge, ?_, hmode, heq⟩
      exact lt_bound (hlt.trans_eq (bound_none rfl))
    | true =>
      obtain ⟨x, hx, -⟩ := hb.ordered.holder t args hmutex
      have hqueue : ∀ P : Dir → Queue → Prop, (∀ d, P d (s.service.queue d)) →
          P args.dir (s.service.queue args.dir).insert →
          ∀ d, P d ((s.service.sent t args true).queue d) := fun P => queue_setQueue P
      have hremoved : ∀ d, ((s.service.sent t args true).queue d).removed =
          (s.service.queue d).removed :=
        hqueue (fun d q => q.removed = (s.service.queue d).removed) (fun _ => rfl) rfl
      have hentry : ∀ d k, entry (s.service.sent t args true) d k = entry s.service d k :=
        fun d k => hqueue (fun d q => q.bulks (k % 4) = (s.service.queue d).bulks (k % 4))
          (fun _ => rfl) rfl d
      have hbound : ∀ d, ((s.service.sent t args true).queue d).submitted.length ≤
          bound s.service d := by
        refine hqueue (fun d q => q.submitted.length ≤ bound s.service d)
          (fun d => ?_) ?_
        · rw [bound_some hmutex]
          exact Nat.le_add_right ..
        · rw [bound_some hmutex, if_pos rfl, Queue.submitted_insert hx, List.length_append,
            List.length_singleton]
      refine h.keep (fun w hw => (wait_waiter_of_ne hu args).symm ▸ hw)
        fun w _ dir k hge hlt hmode heq => ?_
      dsimp only at hge hlt hmode heq
      rw [hremoved] at hge
      rw [hentry] at hmode heq
      have hlt' : k < ((s.service.sent t args true).queue dir).submitted.length :=
        hlt.trans_eq (bound_none rfl)
      exact ⟨hge, Nat.lt_of_lt_of_le hlt' (hbound dir), hmode, heq⟩
  · rw [heq]
    exact h

theorem wake (h : s.Forgotten u) (hb : s.Base) (t : ι) : (s.wake t).Forgotten u := by
  obtain ⟨w₀, dir₀, i, hw₀, -, hevent, heq⟩ | heq := s.wake_cases t
  · have hu : u ≠ t := by
      rintro rfl
      obtain ⟨w, hw, -, hzero, -⟩ := h
      obtain rfl : w₀ = w := Option.some.inj (hw₀.symm.trans hw)
      exact hevent hzero
    have hsubmitted : ∀ d, ((cancelSignal s.service dir₀ i).queue d).submitted =
        (s.service.queue d).submitted :=
      queue_setQueue (fun d q => q.submitted = (s.service.queue d).submitted) (fun _ => rfl) rfl
    have hremoved : ∀ d, ((cancelSignal s.service dir₀ i).queue d).removed =
        (s.service.queue d).removed :=
      queue_setQueue (fun d q => q.removed = (s.service.queue d).removed) (fun _ => rfl) rfl
    rw [heq]
    refine h.keep (fun w hw => ?_) fun w hw dir k hge hlt hmode heq => ?_
    · dsimp only
      rw [Function.update_of_ne hu]
      exact hw
    · dsimp only at hge hlt hmode heq
      have hbound : bound (cancelSignal s.service dir₀ i) dir = bound s.service dir := by
        unfold bound
        rw [hsubmitted]
        rfl
      rw [hremoved] at hge
      rw [hbound] at hlt
      rw [mode_cancelSignal] at hmode
      by_cases hcleared : dir = dir₀ ∧ k % 4 = i
      · obtain ⟨rfl, rfl⟩ := hcleared
        rw [userdata_cancelSignal] at heq
        exact absurd heq.symm (hb.addr_ne u w hw)
      · rw [userdata_cancelSignal_of_ne hcleared] at heq
        exact ⟨hge, hlt, hmode, heq⟩
  · rw [heq]
    exact h

theorem notify (h : s.Forgotten u) (hb : s.Base) : (s.step (.bulk .notify)).Forgotten u := by
  refine h.fewer (handler_fewer hb.ordered .notify rfl) fun w hw => ?_
  change w ∈ s.notify.waiter u
  cases hsignals : signals s.service with
  | none =>
    rw [State.notify, hsignals]
    exact hw
  | some bulk =>
    rw [State.notify, hsignals]
    obtain ⟨w', hw', -, -, hnone⟩ := h
    obtain rfl : w = w' := Option.some.inj (hw.symm.trans hw')
    obtain ⟨dir, hlt, hmode, rfl⟩ := signals_oldest hb.ordered hsignals
    have hne := hnone dir _ (Nat.le_refl _) (lt_bound hlt) hmode
    have hsame : w.signal (entry s.service dir (s.service.queue dir).removed) = w :=
      if_neg fun heq => hne heq.symm
    dsimp only
    rw [hw, Option.map_some, hsame]
    rfl

theorem step (h : s.Forgotten u) (hb : s.Base) {e : Event ι} (he : s.Admissible e) :
    (s.step e).Forgotten u := by
  have hhandler : ∀ e, IsHandler e → Forgotten { s with service := s.service.step e } u :=
    fun e he => h.fewer (handler_fewer hb.ordered e he) fun _ hw => hw
  cases e with
  | wake t => exact h.wake hb t
  | bulk e =>
    cases e with
    | transfer t args => exact h.transfer t args
    | lock t prepared => exact h.lock hb t prepared
    | wake t =>
      change Forgotten { s with service := s.service.step (.wake t) } u
      obtain ⟨args, count, -, heq⟩ | heq := bulk_wake s.service t
      · rw [heq]
        exact h.fewer ⟨fun _ _ => rfl, fun _ => rfl, fun _ => Nat.le_refl _, rfl⟩ fun _ hw => hw
      · rw [heq]
        exact h
    | sent ok => exact h.sent hb ok
    | terminate => exact absurd he id
    | notify => exact h.notify hb
    | done dir actual => exact hhandler _ rfl
    | abort => exact hhandler _ rfl
    | poll dir => exact hhandler _ rfl
    | callbackReturn retry => exact hhandler _ rfl

end Forgotten

namespace Tracked

omit [DecidableEq ι] in
/-- A waiter is found from the entry of its own bulk only. -/
theorem of_userdata (h : s.Tracked) {u : ι} {w : Waiter} (hw : w ∈ s.waiter u) {p : Dir × Nat}
    (hbulk : w.bulk = some p) {dir : Dir} {k : Nat} (hge : (s.service.queue dir).removed ≤ k)
    (hlt : k < bound s.service dir) (hmode : (entry s.service dir k).mode = .blocking)
    (huserdata : (entry s.service dir k).userdata = w.addr) : p = (dir, k % 4) := by
  by_cases hk : k < (s.service.queue dir).submitted.length
  · obtain ⟨v, w', hw', hbulk', hnumber⟩ := h.pending dir k ⟨hge, hk⟩ hmode
    obtain ⟨-, ⟨-, hremoved⟩ | ⟨-, -, -, heq⟩⟩ := h.sleeping v w' hw' dir _ hbulk'
    · exact absurd hge (Nat.not_le_of_lt (hnumber ▸ hremoved))
    · rw [hnumber, huserdata] at heq
      obtain rfl := h.base.distinct u v w hw w' hw' heq
      obtain rfl : w = w' := Option.some.inj (hw.symm.trans hw')
      exact Option.some.inj (hbulk.symm.trans hbulk')
  · cases hmutex : s.service.mutex with
    | none =>
      rw [bound_none hmutex] at hlt
      exact absurd hlt hk
    | some q =>
      obtain ⟨v, args⟩ := q
      rw [bound_some hmutex] at hlt
      split at hlt
      next hdir =>
        subst hdir
        have hlast : k = (s.service.queue args.dir).submitted.length := by omega
        subst hlast
        have hpc := h.base.holder v args hmutex
        have hargs : callArgs (s.service.pc v) = some args := by rw [hpc]; rfl
        obtain ⟨hm, hud⟩ := h.held v args hmutex
        have hblocking : args.mode = .blocking := hm.symm.trans hmode
        obtain ⟨w', hw', haddr⟩ := h.base.inside v args hargs hblocking
        have heq : w.addr = w'.addr := by rw [← huserdata, hud hblocking, haddr]
        obtain rfl := h.base.distinct u v w hw w' hw' heq
        rw [h.base.bulk_eq_none hargs hw] at hbulk
        cases hbulk
      · exact absurd hlt hk

theorem forgotten_wake (h : s.Tracked) {dir : Dir} {i : Nat} {w : Waiter}
    (hw : s.waiter t = some w) (hbulk : w.bulk = some (dir, i)) (hevent : w.event ≠ 0) {u : ι}
    {w' : Waiter} (hw' : s.waiter u = some w') (hbulk' : w'.bulk = some (dir, i))
    (hevent' : w'.event = 0) : (s.wake t).Forgotten u := by
  have hu : u ≠ t := by
    rintro rfl
    obtain rfl : w = w' := Option.some.inj (hw.symm.trans hw')
    exact hevent hevent'
  have hsubmitted : ∀ d, ((cancelSignal s.service dir i).queue d).submitted =
      (s.service.queue d).submitted :=
    queue_setQueue (fun d q => q.submitted = (s.service.queue d).submitted) (fun _ => rfl) rfl
  have hremoved : ∀ d, ((cancelSignal s.service dir i).queue d).removed =
      (s.service.queue d).removed :=
    queue_setQueue (fun d q => q.removed = (s.service.queue d).removed) (fun _ => rfl) rfl
  rw [wake_eq hw hbulk hevent]
  refine ⟨w', ?_, by simp [hbulk'], hevent', fun d k hge hlt hmode huserdata => ?_⟩
  · dsimp only
    rw [Function.update_of_ne hu]
    exact hw'
  · dsimp only at hge hlt hmode huserdata
    have hbound : bound (cancelSignal s.service dir i) d = bound s.service d := by
      unfold bound
      rw [hsubmitted]
      rfl
    rw [hremoved] at hge
    rw [hbound] at hlt
    rw [mode_cancelSignal] at hmode
    by_cases hcleared : d = dir ∧ k % 4 = i
    · obtain ⟨rfl, rfl⟩ := hcleared
      rw [userdata_cancelSignal] at huserdata
      exact h.base.addr_ne u w' hw' huserdata.symm
    · rw [userdata_cancelSignal_of_ne hcleared] at huserdata
      cases h.of_userdata hw' hbulk' hge hlt hmode huserdata
      exact hcleared ⟨rfl, rfl⟩

end Tracked

/-- A coroutine that clears an entry in use for a blocking transfer condemns the one that
waits for it: it sleeps on, whatever happens. -/
theorem run_forgotten
    (hes : Machine.Along State.step (fun s e => s.Admissible e ∧ s.Timely e) {} es)
    {dir : Dir} {k : Nat} {w : Waiter} (hw : (run {} es).waiter t = some w)
    (hbulk : w.bulk = some (dir, k % 4)) (hevent : w.event ≠ 0)
    (hpending : (run {} es).Pending dir k)
    (hmode : (entry (run {} es).service dir k).mode = .blocking) :
    ∃ u, (run {} es).Waits u dir k ∧
      ∀ fs, Machine.Along State.step Admissible ((run {} es).step (.wake t)) fs →
        (run ((run {} es).step (.wake t)) fs).Asleep u := by
  have h := run_tracked hes
  obtain ⟨u, -, -, -, hwaits⟩ := h.attended.reaches dir k hpending hmode
  refine ⟨u, hwaits, fun fs hfs => ?_⟩
  obtain ⟨w', hw', hbulk', hnumber, hevent'⟩ := hwaits
  have hstart := h.forgotten_wake hw hbulk hevent hw' hbulk' hevent'
  have hbase : ((run {} es).step (.wake t)).Base := h.base.step trivial
  exact (Machine.Along.invariant (I := fun s : State ι => s.Base ∧ s.Forgotten u)
    (fun s e h he => ⟨h.1.step he, h.2.step h.1 he⟩) hfs ⟨hbase, hstart⟩).2.asleep

/-- The first of four bulks has been notified, and the next one is submitted before the
coroutine that has waited for it runs. -/
def reused : List (Event (Fin 3)) :=
  submission 0 .blocking 16 ++ submission 1 .nocallback 0 ++ submission 1 .nocallback 0 ++
    submission 1 .nocallback 0 ++ completion ++ submission 2 .blocking 32

theorem run_forgotten_reused : ∃ u, (run {} reused).Waits u .transmit 4 ∧
    ∀ fs, Machine.Along State.step Admissible ((run {} reused).step (.wake 0)) fs →
      (run ((run {} reused).step (.wake 0)) fs).Asleep u :=
  run_forgotten (w := ⟨16, 1, 64, some (.transmit, 0), 0⟩) (by decide +kernel)
    (by decide +kernel) (by decide) (by decide)
    ⟨by decide +kernel, by decide +kernel⟩ (by decide +kernel)

end State
end Blocking
