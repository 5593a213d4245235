-- SUMMARY: The emulated kernel threads: which task a coroutine gets, and when it is the current one.
import Ampi.Linux.Scheduler

/-!
# Kernel threads

linux/kthread.c gives the coroutine `pid` the place `pid` of `tasks`, place 0 being the
main task, and is told about every switch by the callback of the scheduler.
-/

namespace Kthread

open RoundRobin Scheduler

structure State where
  sched : Scheduler.State
  /-- `tasks[i].pid`; the array has `MAX_CO` places, and what follows is other memory. -/
  pid : Nat → Nat := fun _ => 0
  /-- The place in `tasks` that `current` points to. -/
  current : Nat := 0
  /-- `BUG_ON` has stopped the program. -/
  halted : Bool := false
  /-- The place that `kthread_create` has returned for each coroutine. -/
  task : Nat → Option Nat := fun _ => none

/-- `linuxemu_init_kthread`. -/
def boot (stackSpace : UInt32) : State where
  sched := { Scheduler.boot stackSpace with callback := true }

namespace State

/-- `kthread_create`, with the place that it returns a pointer to, or `NULL`. -/
def kthreadCreate (s : State) (job : Job) : State × Option Nat :=
  let (sched, pid) := s.sched.coCreate job
  ({ s with
    sched := sched.say (.created pid)
    pid := Function.update s.pid pid pid
    task := if pid = 0 then s.task else Function.update s.task (pid - 1) (some pid) }, some pid)

/-- `task_switch_handler`. -/
def taskSwitchHandler (s : State) (pid : Nat) : State :=
  if maxCo ≤ pid then { s with halted := true } else { s with current := pid }

/-- The scheduler takes a step, and calls the handler before it jumps. -/
def switch (stackSpace : UInt32) (s : State) (e : Event Job RegSet) : State :=
  let sched := s.sched.step stackSpace e
  match lastTold (sched.log.drop s.sched.log.length) with
  | none => { s with sched }
  | some pid =>
    let s := s.taskSwitchHandler pid
    if s.halted then s else { s with sched }

/-- Coroutines are only created by `kthread_create`, and the callback stays. -/
def act (stackSpace : UInt32) (s : State) : Event Job RegSet → State
  | .create job => if s.sched.inLoop stackSpace then s else (s.kthreadCreate job).1
  | .listen _ => s
  | e => s.switch stackSpace e

def step (stackSpace : UInt32) (s : State) (e : Event Job RegSet) : State :=
  if s.halted then s else s.act stackSpace e

abbrev run (stackSpace : UInt32) (es : List (Event Job RegSet)) : State :=
  Machine.run (step stackSpace) (boot stackSpace) es

/-! ## Tasks of coroutines -/

/-- `kthread_create` returns `NULL` when no coroutine could be created, and otherwise a
task of its own. -/
structure CreatesTask (s : State) (job : Job) : Prop where
  null : (s.kthreadCreate job).2 = none ↔ (s.sched.coCreate job).2 = 0
  own : ∀ p, (s.kthreadCreate job).2 = some p → p < maxCo ∧ p ≠ 0 ∧ ∀ k, s.task k ≠ some p

/-- `current` points to the task of the thread that runs. -/
def CurrentRuns (stackSpace : UInt32) (s : State) : Prop :=
  s.halted = false ∧
    match s.sched.thread stackSpace with
    | none => s.current = 0
    | some k => s.task k = some s.current

structure Sound (stackSpace : UInt32) (s : State) (e : Event Job RegSet) : Prop where
  creates : ∀ job, e = .create job → s.halted = false → s.sched.inLoop stackSpace = false →
    s.CreatesTask job
  current : (s.step stackSpace e).CurrentRuns stackSpace

def AlwaysSound : Prop :=
  ∀ (stackSpace : UInt32) (es : List (Event Job RegSet)),
    Machine.Along (step stackSpace) (Sound stackSpace) (boot stackSpace) es

/-- How many coroutines there are. -/
def coroutines (s : State) : Nat := (List.range maxCo).countP s.sched.isUsed

/-- `kthread_create` is called only while fewer than `MAX_CO - 1` coroutines exist. -/
def placeLeft (s : State) : Event Job RegSet → Bool
  | .create _ => s.coroutines < maxCo - 1
  | _ => true

end State

theorem countP_firstUsed : ∀ n < maxCo + 1,
    (List.range maxCo).countP
      (fun i => decide (firstUsed n &&& (1 : UInt32) <<< UInt32.ofNat i ≠ 0)) = n := by
  decide +kernel

/-! ## The places -/

/-- The number of the thread that runs is a place in `tasks`. -/
theorem number_lt {stackSpace : UInt32} {sched : Scheduler.State} {t : Ideal Job RegSet Entry}
    (h : Simulates stackSpace sched t) (hplaces : t.threads.length < maxCo) :
    t.number < maxCo := by
  rw [Ideal.number]
  cases hrun : t.running with
  | none => exact Nat.zero_lt_of_lt hplaces
  | some k => exact Nat.lt_of_le_of_lt (h.main k hrun).1 hplaces

namespace State

/-- Coroutine `k` has the task of its number, and `current` is that of the thread that
runs. -/
structure Tracks (stackSpace : UInt32) (s : State) (t : Ideal Job RegSet Entry) : Prop where
  simulates : Simulates stackSpace s.sched t
  listens : t.listens = true
  running : s.halted = false
  places : t.threads.length < maxCo
  task : ∀ k, s.task k = if k < t.threads.length then some (k + 1) else none
  current : s.current = t.number

variable {stackSpace : UInt32} {s : State} {t : Ideal Job RegSet Entry}

namespace Tracks

theorem boot (stackSpace : UInt32) : Tracks stackSpace (boot stackSpace) { listens := true } where
  simulates := { Simulates.boot stackSpace with
    callback := rfl
    threads := (Simulates.boot stackSpace).threads
    main := (Simulates.boot stackSpace).main }
  listens := rfl
  running := rfl
  places := by decide
  task _ := rfl
  current := rfl

theorem coroutines_eq (h : Tracks stackSpace s t) : s.coroutines = t.threads.length := by
  have hbits : s.sched.isUsed = fun i =>
      decide (firstUsed t.threads.length &&& (1 : UInt32) <<< UInt32.ofNat i ≠ 0) := by
    funext i
    rw [Scheduler.State.isUsed, h.simulates.used]
  rw [coroutines, hbits]
  exact countP_firstUsed _ (Nat.lt_succ_of_lt h.places)

theorem currentRuns (h : Tracks stackSpace s t) : s.CurrentRuns stackSpace := by
  refine ⟨h.running, ?_⟩
  rw [h.simulates.thread, h.current, Ideal.number]
  cases hrun : t.running with
  | none => rfl
  | some k =>
    have hk := (h.simulates.main k hrun).1
    exact (h.task k).trans (if_pos hk)

/-- With a place left the next coroutine gets it. -/
theorem createsTask (h : Tracks stackSpace s t) (hroom : t.threads.length < maxCo - 1)
    (job : Job) : s.CreatesTask job := by
  have hcreate := Scheduler.State.coCreate_of_lt h.simulates.used h.places job
  have hpid : (s.sched.coCreate job).2 = t.threads.length + 1 := congrArg Prod.snd hcreate
  refine ⟨?_, fun p hp => ?_⟩
  · rw [hpid]
    exact ⟨nofun, nofun⟩
  · obtain rfl : (s.sched.coCreate job).2 = p := Option.some.inj hp
    rw [hpid]
    refine ⟨Nat.add_lt_of_lt_sub hroom, Nat.succ_ne_zero _, fun k hk => ?_⟩
    rw [h.task k] at hk
    split at hk
    · next hlt => exact hlt.ne (Nat.succ.inj (Option.some.inj hk))
    · cases hk

theorem create (h : Tracks stackSpace s t) (hroom : t.threads.length < maxCo - 1) (job : Job) :
    Tracks stackSpace (s.kthreadCreate job).1 ((system stackSpace).create t job) := by
  have hcreate := Scheduler.State.coCreate_of_lt h.simulates.used h.places job
  have hideal : (system stackSpace).create t job =
      { t with threads := t.threads ++ [Thread.fresh job] }.say
        (.created (t.threads.length + 1)) := if_pos h.places
  have hlength : (t.threads ++ [Thread.fresh job]).length = t.threads.length + 1 :=
    List.length_append
  refine ⟨h.simulates.create job, ?_, h.running, ?_, fun k => ?_, ?_⟩
  · rw [hideal]
    exact h.listens
  · rw [hideal]
    exact hlength.trans_lt (Nat.add_lt_of_lt_sub hroom)
  · have htask : (s.kthreadCreate job).1.task =
        Function.update s.task t.threads.length (some (t.threads.length + 1)) := by
      rw [kthreadCreate, hcreate]
      rfl
    rw [htask, hideal]
    change _ = if k < (t.threads ++ [Thread.fresh job]).length then some (k + 1) else none
    rw [hlength]
    by_cases hk : k = t.threads.length
    · rw [hk, Function.update_self, if_pos (Nat.lt_succ_self _)]
    · have hiff : k < t.threads.length + 1 ↔ k < t.threads.length := by omega
      rw [Function.update_of_ne hk, h.task k]
      simp only [hiff]
  · rw [hideal]
    exact h.current

/-- The callback says which thread runs next. -/
theorem switch (h : Tracks stackSpace s t) {e : Event Job RegSet}
    (hcreate : ∀ job, e ≠ .create job) (hlisten : ∀ on, e ≠ .listen on) :
    Tracks stackSpace (s.switch stackSpace e) ((system stackSpace).step t e) := by
  have hsim := h.simulates.step e
  obtain ⟨hlength, hlistens⟩ :=
    System.step_keeps (S := system stackSpace) (t := t) hcreate hlisten
  have hplaces : ((system stackSpace).step t e).threads.length < maxCo := hlength ▸ h.places
  have htask (k : Nat) : s.task k =
      if k < ((system stackSpace).step t e).threads.length then some (k + 1) else none := by
    rw [hlength]
    exact h.task k
  have hnew (new : List (Obs Entry RegSet))
      (hnew : ((system stackSpace).step t e).log = t.log ++ new) :
      (s.sched.step stackSpace e).log.drop s.sched.log.length = new := by
    rw [hsim.log, hnew, h.simulates.log, List.drop_left]
  dsimp only [State.switch]
  cases System.tells_step (S := system stackSpace) h.listens e with
  | nothing new hlog htold hrunning =>
    rw [hnew new hlog, htold]
    have hnumber : ((system stackSpace).step t e).number = t.number := by
      rw [Ideal.number, hrunning, ← Ideal.number]
    exact ⟨hsim, hlistens.trans h.listens, h.running, hplaces, htask, h.current.trans hnumber.symm⟩
  | number new hlog htold =>
    have hlt := number_lt hsim hplaces
    have hhandler : s.taskSwitchHandler ((system stackSpace).step t e).number =
        { s with current := ((system stackSpace).step t e).number } := if_neg hlt.not_ge
    rw [hnew new hlog, htold]
    simp only [hhandler, h.running, Bool.false_eq_true, if_false]
    exact ⟨hsim, hlistens.trans h.listens, rfl, hplaces, htask, rfl⟩

theorem step (h : Tracks stackSpace s t) {e : Event Job RegSet} (hplace : s.placeLeft e) :
    Sound stackSpace s e ∧ ∃ t, Tracks stackSpace (s.step stackSpace e) t := by
  have hstep : s.step stackSpace e = s.act stackSpace e := by
    rw [State.step, h.running]
    rfl
  suffices hnext : (∀ job, e = .create job → s.CreatesTask job) ∧
      ∃ t, Tracks stackSpace (s.act stackSpace e) t by
    obtain ⟨hcreates, t', h'⟩ := hnext
    rw [← hstep] at h'
    exact ⟨⟨fun job he _ _ => hcreates job he, h'.currentRuns⟩, t', h'⟩
  cases e with
  | create job =>
    have hroom : t.threads.length < maxCo - 1 := by
      rw [← h.coroutines_eq]
      simpa [placeLeft] using hplace
    refine ⟨fun job' he => h.createsTask hroom job', ?_⟩
    rw [act, h.simulates.inLoop]
    split
    · exact ⟨t, h⟩
    · exact ⟨_, h.create hroom job⟩
  | listen on => exact ⟨nofun, t, h⟩
  | yield | poke | turn => exact ⟨nofun, _, h.switch nofun nofun⟩

end Tracks

/-- In every run in which a place in `tasks` is left for each new thread, the threads have
tasks of their own and `current` points to that of the thread that runs. -/
theorem tasks_sound (stackSpace : UInt32) {es : List (Event Job RegSet)}
    (hplaces : Machine.Along (step stackSpace) (placeLeft · ·) (boot stackSpace) es) :
    Machine.Along (step stackSpace) (Sound stackSpace) (boot stackSpace) es :=
  hplaces.strengthen (I := fun s => ∃ t, Tracks stackSpace s t)
    (fun _ _ ⟨_, h⟩ hplace => h.step hplace) ⟨_, Tracks.boot stackSpace⟩

/-- A thread is created and gets its first turn. -/
theorem tasks_sound_one :
    Machine.Along (step 0x100000) (Sound 0x100000) (boot 0x100000)
      [.create ⟨0x8000, 0⟩, .poke, .turn { sp := 0x400000, pc := 0x9000 }] :=
  tasks_sound _ (by decide +kernel)

/-- The eighth thread gets the place after the last one. -/
theorem not_alwaysSound : ¬ AlwaysSound := by
  intro h
  have hall := h 0x100000 (List.replicate 8 (.create ⟨0x8000, 0⟩))
  obtain ⟨-, -, -, -, -, -, -, hlast, -⟩ := hall
  have hown := (hlast.creates ⟨0x8000, 0⟩ rfl (by decide +kernel) (by decide +kernel)).own 8
    (by decide +kernel)
  exact absurd hown.1 (by decide)

end State

end Kthread
