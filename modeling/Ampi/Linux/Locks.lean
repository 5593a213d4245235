-- SUMMARY: Mutexes and semaphores of coroutines that switch only at ampi_co_yield.
import Ampi.Machine
import Mathlib.Logic.Function.Basic
import Mathlib.Tactic.Common

/-!
# Locks

linux/mutex.c and linux/semaphore.c, one access of memory a step. One coroutine is running,
the main thread being one of them. It hands over to another only in `ampi_co_yield`, which
it calls in the loops of `mutex_lock` and `down` or in code of its own; which coroutine is
the next one is left open.
-/

namespace Locks

variable {ι μ σ : Type*}

/-- The next step of a coroutine. -/
inductive Pc (μ σ : Type*) where
  /-- Outside of the functions. -/
  | body
  -- `mutex_lock`
  | lockTest (m : μ)
  | lockYield (m : μ)
  | lockSet (m : μ)
  -- `mutex_unlock`
  | unlockSet (m : μ)
  -- `down`
  | downTest (sem : σ)
  | downYield (sem : σ)
  -- `down_trylock`
  | tryTest (sem : σ)
  -- `sem->count--`, of both
  | downLoad (sem : σ)
  | downStore (sem : σ) (value : BitVec 32)
  -- `up`
  | upLoad (sem : σ)
  | upStore (sem : σ) (value : BitVec 32)

/-- A coroutine that is not running can be here. -/
def Pc.parked : Pc μ σ → Bool
  | .body | .lockTest _ | .downTest _ => true
  | _ => false

inductive Call (μ σ : Type*) where
  | mutexLock (m : μ)
  | mutexUnlock (m : μ)
  | down (sem : σ)
  | downTrylock (sem : σ)
  | up (sem : σ)

inductive Event (ι μ σ : Type*) where
  /-- The running coroutine takes its next step. -/
  | exec
  /-- It calls one of the functions. -/
  | call (c : Call μ σ)
  /-- It is in `ampi_co_yield`, from which `next` goes on. -/
  | yield (next : ι)

structure State (ι μ σ : Type*) where
  lock : μ → BitVec 32
  count : σ → BitVec 32
  running : ι
  pc : ι → Pc μ σ
  -- not in the source
  /-- The coroutine is between `mutex_lock` and `mutex_unlock`. -/
  holds : ι → μ → Bool
  /-- The calls of `up` that are complete. -/
  ups : σ → Nat
  /-- The calls of `down` and `down_trylock` that have taken one. -/
  downs : σ → Nat

/-- The initial values of semaphores: an `int` that is not negative. -/
abbrev Permits := {n : Nat // n < 2147483648}

namespace State

/-- After `mutex_init` and `sema_init`. -/
def init (permits : σ → Permits) (main : ι) : State ι μ σ where
  lock _ := 0
  count sem := .ofNat 32 (permits sem)
  running := main
  pc _ := .body
  holds _ _ := false
  ups _ := 0
  downs _ := 0

variable [DecidableEq ι] [DecidableEq μ] [DecidableEq σ]

def goto (s : State ι μ σ) (pc : Pc μ σ) : State ι μ σ :=
  { s with pc := Function.update s.pc s.running pc }

/-- `lock->lock = value`, with which the running coroutine holds the mutex or does not. -/
def setLock (s : State ι μ σ) (m : μ) (value : BitVec 32) (held : Bool) : State ι μ σ :=
  { s with
    lock := Function.update s.lock m value
    holds := Function.update s.holds s.running (Function.update (s.holds s.running) m held) }

def exec (s : State ι μ σ) : State ι μ σ :=
  match s.pc s.running with
  | .body | .lockYield _ | .downYield _ => s
  | .lockTest m => s.goto (if s.lock m ≠ 0 then .lockYield m else .lockSet m)
  | .lockSet m => (s.setLock m 1 true).goto .body
  | .unlockSet m => (s.setLock m 0 false).goto .body
  | .downTest sem => s.goto (if s.count sem = 0 then .downYield sem else .downLoad sem)
  | .tryTest sem => s.goto (if s.count sem = 0 then .body else .downLoad sem)
  | .downLoad sem => s.goto (.downStore sem (s.count sem - 1))
  | .downStore sem value =>
    { s with
      count := Function.update s.count sem value
      downs := Function.update s.downs sem (s.downs sem + 1) }.goto .body
  | .upLoad sem => s.goto (.upStore sem (s.count sem + 1))
  | .upStore sem value =>
    { s with
      count := Function.update s.count sem value
      ups := Function.update s.ups sem (s.ups sem + 1) }.goto .body

/-- A mutex is unlocked only by the coroutine that holds it. -/
def call (s : State ι μ σ) (c : Call μ σ) : State ι μ σ :=
  match s.pc s.running, c with
  | .body, .mutexLock m => s.goto (.lockTest m)
  | .body, .mutexUnlock m => if s.holds s.running m then s.goto (.unlockSet m) else s
  | .body, .down sem => s.goto (.downTest sem)
  | .body, .downTrylock sem => s.goto (.tryTest sem)
  | .body, .up sem => s.goto (.upLoad sem)
  | _, _ => s

/-- The loops test again when the coroutine goes on. -/
def yield (s : State ι μ σ) (next : ι) : State ι μ σ :=
  match s.pc s.running with
  | .body => { s with running := next }
  | .lockYield m => { s.goto (.lockTest m) with running := next }
  | .downYield sem => { s.goto (.downTest sem) with running := next }
  | _ => s

def step (s : State ι μ σ) : Event ι μ σ → State ι μ σ
  | .exec => s.exec
  | .call c => s.call c
  | .yield next => s.yield next

/-! ## What is claimed -/

/-- No two coroutines hold the same mutex. -/
def Exclusive (s : State ι μ σ) : Prop :=
  ∀ m t t', s.holds t m → s.holds t' m → t = t'

/-- The count is what has been put in less what has been taken out. -/
def Balanced (permits : σ → Permits) (s : State ι μ σ) : Prop :=
  ∀ sem, (s.count sem).toInt = (permits sem : Nat) + s.ups sem - s.downs sem ∧
    0 ≤ (s.count sem).toInt

/-- `up` does not add to the greatest value of an `int`. -/
def upFits (s : State ι μ σ) (e : Event ι μ σ) : Bool :=
  match e, s.pc s.running with
  | .exec, .upStore sem _ => s.count sem ≠ 0x7fffffff
  | _, _ => true

/-! ## The invariant -/

/-- What the running coroutine knows at `pc`, since nobody else has run since its last test. -/
def Place (s : State ι μ σ) : Pc μ σ → Prop
  | .lockSet m => s.lock m = 0
  | .unlockSet m => s.holds s.running m = true
  | .downLoad sem => s.count sem ≠ 0
  | .downStore sem value => s.count sem ≠ 0 ∧ value = s.count sem - 1
  | .upStore sem value => value = s.count sem + 1
  | _ => True

/-- The invariant but for the place of the running coroutine. -/
structure Quiet (s : State ι μ σ) : Prop where
  parked : ∀ t, t ≠ s.running → (s.pc t).parked
  free : ∀ m, s.lock m = 0 → ∀ t, s.holds t m = false
  exclusive : s.Exclusive

structure Inv (s : State ι μ σ) : Prop extends s.Quiet where
  place : s.Place (s.pc s.running)

omit [DecidableEq ι] [DecidableEq μ] [DecidableEq σ] in
theorem Place.of_parked {s : State ι μ σ} {pc : Pc μ σ} (h : pc.parked) : s.Place pc := by
  cases pc <;> trivial

omit [DecidableEq μ] [DecidableEq σ] in
theorem Quiet.goto {s : State ι μ σ} {pc : Pc μ σ} (h : s.Quiet) (hpc : s.Place pc) :
    (s.goto pc).Inv where
  parked t ht := by
    have hother : (s.goto pc).pc t = s.pc t := Function.update_of_ne ht ..
    rw [hother]
    exact h.parked t ht
  free := h.free
  exclusive := h.exclusive
  place := by
    have hself : (s.goto pc).pc (s.goto pc).running = pc := Function.update_self ..
    rw [hself]
    cases pc <;> exact hpc

omit [DecidableEq σ] in
theorem holds_setLock (s : State ι μ σ) (m m' : μ) (value : BitVec 32) (held : Bool) (t : ι) :
    (s.setLock m value held).holds t m' =
      if t = s.running ∧ m' = m then held else s.holds t m' := by
  unfold setLock
  by_cases ht : t = s.running
  · subst ht
    by_cases hm : m' = m
    · subst hm
      simp
    · simp [hm]
  · simp [ht]

omit [DecidableEq σ] in
theorem lock_setLock (s : State ι μ σ) (m m' : μ) (value : BitVec 32) (held : Bool) :
    (s.setLock m value held).lock m' = if m' = m then value else s.lock m' :=
  Function.update_apply ..

omit [DecidableEq σ] in
/-- Nobody holds a mutex that is free, so the running coroutine takes it alone. -/
theorem Quiet.lock {s : State ι μ σ} {m : μ} (h : s.Quiet) (hm : s.lock m = 0) :
    (s.setLock m 1 true).Quiet where
  parked := h.parked
  free m' hm' t := by
    rw [lock_setLock] at hm'
    split at hm'
    · exact absurd hm' (by decide)
    next hne =>
      rw [holds_setLock, if_neg fun ht => hne ht.2]
      exact h.free m' hm' t
  exclusive m' t t' ht ht' := by
    rw [holds_setLock] at ht ht'
    split at ht <;> split at ht'
    next ha hb => rw [ha.1, hb.1]
    next ha hb => simp [ha.2, h.free m hm] at ht'
    next ha hb => simp [hb.2, h.free m hm] at ht
    next => exact h.exclusive m' t t' ht ht'

omit [DecidableEq σ] in
/-- The coroutine that holds the mutex is the only one that does. -/
theorem Quiet.unlock {s : State ι μ σ} {m : μ} (h : s.Quiet) (hm : s.holds s.running m) :
    (s.setLock m 0 false).Quiet where
  parked := h.parked
  free m' hm' t := by
    rw [holds_setLock]
    split
    · rfl
    next hne =>
      by_cases heq : m' = m
      · subst heq
        by_contra hheld
        exact hne ⟨h.exclusive m' t s.running (by simpa using hheld) hm, rfl⟩
      · rw [lock_setLock, if_neg heq] at hm'
        exact h.free m' hm' t
  exclusive m' t t' ht ht' := by
    rw [holds_setLock] at ht ht'
    split at ht
    · cases ht
    split at ht'
    · cases ht'
    exact h.exclusive m' t t' ht ht'

theorem Inv.exec {s : State ι μ σ} (h : s.Inv) : s.exec.Inv := by
  have hplace := h.place
  unfold State.exec
  cases hpc : s.pc s.running with rw [hpc] at hplace
  | body | lockYield m | downYield sem => exact h
  | lockTest m =>
    refine h.toQuiet.goto ?_
    split
    · trivial
    next hfree => exact not_not.1 hfree
  | lockSet m => exact (h.toQuiet.lock hplace).goto trivial
  | unlockSet m => exact (h.toQuiet.unlock hplace).goto trivial
  | downTest sem | tryTest sem =>
    refine h.toQuiet.goto ?_
    split
    · trivial
    next hcount => exact hcount
  | downLoad sem => exact h.toQuiet.goto ⟨hplace, rfl⟩
  | upLoad sem => exact h.toQuiet.goto rfl
  | downStore sem value | upStore sem value =>
    exact Quiet.goto ⟨h.parked, h.free, h.exclusive⟩ trivial

omit [DecidableEq μ] [DecidableEq σ] in
theorem Inv.call {s : State ι μ σ} (h : s.Inv) (c : Call μ σ) : (s.call c).Inv := by
  unfold State.call
  split
  case h_2 =>
    split
    next hheld => exact h.toQuiet.goto hheld
    next => exact h
  case h_6 => exact h
  all_goals exact h.toQuiet.goto trivial

omit [DecidableEq μ] [DecidableEq σ] in
/-- The coroutine that hands over is one that can wait where it is. -/
theorem Inv.handOver {s : State ι μ σ} {pc : Pc μ σ} (h : s.Inv) (hself : s.pc s.running = pc)
    (hpc : pc.parked) (next : ι) : { s with running := next : State ι μ σ }.Inv := by
  have hall : ∀ t, (s.pc t).parked := by
    intro t
    by_cases ht : t = s.running
    · rw [ht, hself]
      exact hpc
    · exact h.parked t ht
  exact {
    parked := fun t _ => hall t
    free := h.free
    exclusive := h.exclusive
    place := Place.of_parked (hall next) }

omit [DecidableEq μ] [DecidableEq σ] in
theorem Inv.yield {s : State ι μ σ} (h : s.Inv) (next : ι) : (s.yield next).Inv := by
  unfold State.yield
  split
  next hpc => exact h.handOver hpc rfl next
  next m _ =>
    have hgoto : (s.goto (.lockTest m)).Inv := h.toQuiet.goto trivial
    exact hgoto.handOver (Function.update_self ..) rfl next
  next sem _ =>
    have hgoto : (s.goto (.downTest sem)).Inv := h.toQuiet.goto trivial
    exact hgoto.handOver (Function.update_self ..) rfl next
  next => exact h

theorem Inv.step {s : State ι μ σ} (h : s.Inv) (e : Event ι μ σ) : (s.step e).Inv := by
  cases e with
  | exec => exact h.exec
  | call c => exact h.call c
  | yield next => exact h.yield next

omit [DecidableEq ι] [DecidableEq μ] [DecidableEq σ] in
theorem inv_init (permits : σ → Permits) (main : ι) :
    (init permits main : State ι μ σ).Inv where
  parked _ _ := rfl
  free _ _ _ := rfl
  exclusive := by
    intro m t t' ht
    cases ht
  place := trivial

/-! ## Counts -/

theorem toInt_sub_one {c : BitVec 32} (hc : c ≠ 0) (hnonneg : 0 ≤ c.toInt) :
    (c - 1).toInt = c.toInt - 1 ∧ 1 ≤ c.toInt := by
  have hne : c.toNat ≠ 0 := fun h => hc (BitVec.eq_of_toNat_eq h)
  have hlt := c.isLt
  simp only [BitVec.toInt_eq_toNat_cond, BitVec.toNat_sub, BitVec.reduceToNat] at hnonneg ⊢
  omega

theorem toInt_add_one {c : BitVec 32} (hc : c ≠ 0x7fffffff) (hnonneg : 0 ≤ c.toInt) :
    (c + 1).toInt = c.toInt + 1 := by
  have hne : c.toNat ≠ 0x7fffffff := fun h => hc (BitVec.eq_of_toNat_eq h)
  have hlt := c.isLt
  simp only [BitVec.toInt_eq_toNat_cond, BitVec.toNat_add, BitVec.reduceToNat] at hnonneg ⊢
  omega

omit [DecidableEq ι] [DecidableEq μ] [DecidableEq σ] in
theorem balanced_init (permits : σ → Permits) (main : ι) :
    (init permits main : State ι μ σ).Balanced permits := by
  intro sem
  have hlt := (permits sem).2
  simp only [init, BitVec.toInt_eq_toNat_cond, BitVec.toNat_ofNat]
  omega

variable {permits : σ → Permits}

theorem Balanced.exec {s : State ι μ σ} (h : s.Balanced permits) (hinv : s.Inv)
    (hfits : s.upFits .exec) : s.exec.Balanced permits := by
  have hplace := hinv.place
  unfold upFits at hfits
  unfold State.exec
  cases hpc : s.pc s.running with rw [hpc] at hplace hfits
  | downStore sem value =>
    obtain ⟨hne, rfl⟩ := hplace
    obtain ⟨hsub, hle⟩ := toInt_sub_one hne (h sem).2
    intro sem'
    by_cases heq : sem' = sem
    · subst heq
      have hold := h sem'
      simp only [goto, Function.update_self, hsub]
      omega
    · simp only [goto, Function.update_of_ne heq]
      exact h sem'
  | upStore sem value =>
    subst hplace
    have hadd := toInt_add_one (by simpa using hfits) (h sem).2
    intro sem'
    by_cases heq : sem' = sem
    · subst heq
      have hold := h sem'
      simp only [goto, Function.update_self, hadd]
      omega
    · simp only [goto, Function.update_of_ne heq]
      exact h sem'
  | body | lockTest m | lockYield m | lockSet m | unlockSet m | downTest sem | downYield sem
  | tryTest sem | downLoad sem | upLoad sem => exact h

omit [DecidableEq μ] [DecidableEq σ] in
theorem Balanced.call {s : State ι μ σ} (h : s.Balanced permits) (c : Call μ σ) :
    (s.call c).Balanced permits := by
  unfold State.call
  split <;> (try split) <;> exact h

omit [DecidableEq μ] [DecidableEq σ] in
theorem Balanced.yield {s : State ι μ σ} (h : s.Balanced permits) (next : ι) :
    (s.yield next).Balanced permits := by
  unfold State.yield
  split <;> exact h

theorem Balanced.step {s : State ι μ σ} (h : s.Balanced permits) (hinv : s.Inv) {e : Event ι μ σ}
    (hfits : s.upFits e) : (s.step e).Balanced permits := by
  cases e with
  | exec => exact h.exec hinv hfits
  | call c => exact h.call c
  | yield next => exact h.yield next

/-! ## Runs -/

/-- In every run a mutex is held by one coroutine at most, and in one whose semaphores never
hold more than an `int` does, the counts are right. -/
theorem run_exclusive_balanced (permits : σ → Permits) (main : ι) (es : List (Event ι μ σ)) :
    (Machine.run step (init permits main) es).Exclusive ∧
      (Machine.Along step (fun s e => s.upFits e) (init permits main) es →
        (Machine.run step (init permits main) es).Balanced permits) := by
  constructor
  · have hinv := Machine.run_invariant (I := Inv) (fun s e h => Inv.step (s := s) h e) es
      (inv_init permits main)
    exact hinv.exclusive
  · intro hes
    have hboth := Machine.Along.invariant (I := fun s => s.Inv ∧ s.Balanced permits)
      (fun s e h hfits => ⟨h.1.step e, h.2.step h.1 hfits⟩) hes
      ⟨inv_init permits main, balanced_init permits main⟩
    exact hboth.2

theorem run_exclusive_balanced_two :
    (Machine.run step (init (fun _ : Unit => ⟨0, by decide⟩) false : State Bool Unit Unit)
      [.call (.mutexLock ()), .exec, .exec, .call (.up ()), .exec, .exec, .yield true,
        .call (.mutexLock ()), .exec, .yield true, .exec]).Balanced fun _ => ⟨0, by decide⟩ :=
  (run_exclusive_balanced (fun _ : Unit => ⟨0, by decide⟩) false _).2 (by decide)

/-- One `up` of a semaphore that holds all an `int` does. -/
theorem not_run_balanced :
    ¬ ∀ (permits : Unit → Permits) (es : List (Event Unit Unit Unit)),
      (Machine.run step (init permits ()) es).Balanced permits := by
  intro h
  have hrun := (h (fun _ => ⟨2147483647, by decide⟩) [.call (.up ()), .exec, .exec] ()).2
  exact absurd hrun (by decide)

end State
end Locks
