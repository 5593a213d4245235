-- SUMMARY: Waits with a timeout: a completion, the 100 Hz clock and one waiting coroutine.
import Ampi.Linux.Completion

/-!
# Timed waits

`wait_for_completion_interruptible_timeout (x, msecs_to_jiffies (ms))`, one access of a
variable a step. Microseconds pass between any two of them, and every ten milliseconds
`periodic_handler` counts a tick; `complete` may be called at any point.
-/

namespace Timeout

/-- `HZ`. -/
def hz : BitVec 32 := 100

/-- `msecs_to_jiffies`, with the `unsigned` product of `MSEC2HZ`. -/
def msecsToJiffies (msecs : BitVec 32) : BitVec 32 := msecs * hz / 1000

/-- The microseconds from one tick to the next. -/
def period : Nat := 10000

/-- `jiffies` and the microseconds since it was last counted on. -/
structure Clock where
  jiffies : BitVec 32
  sinceTick : Nat
  sinceTick_lt : sinceTick < period

/-- A microsecond passes. -/
def Clock.advance (c : Clock) : Clock :=
  if h : c.sinceTick + 1 < period then ⟨c.jiffies, c.sinceTick + 1, h⟩
  else ⟨c.jiffies + 1, 0, by decide⟩

theorem Clock.advance_cases (c : Clock) :
    (c.advance.jiffies = c.jiffies ∧ c.advance.sinceTick = c.sinceTick + 1) ∨
      (c.advance.jiffies = c.jiffies + 1 ∧ c.advance.sinceTick = 0 ∧ c.sinceTick + 1 = period) := by
  unfold Clock.advance
  have hlt := c.sinceTick_lt
  split
  · exact .inl ⟨rfl, rfl⟩
  · exact .inr ⟨rfl, rfl, by omega⟩

/-- The value of `jiffies` after `n` ticks. -/
def Clock.after (c : Clock) (n : Nat) : BitVec 32 := c.jiffies + .ofNat 32 n

/-- The next step of the waiter. -/
inductive Pc where
  | readStart
  | test
  | readNow
  | compare (now : BitVec 32)
  | yield
  | take
  | returned (result : BitVec 32)
  deriving DecidableEq, Repr

structure State where
  x : Completion
  clock : Clock
  timeout : BitVec 32
  start : BitVec 32 := 0
  pc : Pc := .readStart
  -- not in the source
  /-- The microseconds from the call to the return. -/
  elapsed : Nat := 0
  /-- What the last test has found in `x`. -/
  tested : BitVec 32 := 0
  /-- The completions that the waiter has taken. -/
  consumed : Nat := 0

inductive Event where
  /-- The waiter takes its next step. -/
  | exec
  /-- A microsecond passes. -/
  | microsecond
  | complete
  deriving DecidableEq, Repr

namespace State

/-- The call with the argument `ms`. -/
def call (ms : BitVec 32) (x : Completion) (clock : Clock) : State where
  x
  clock
  timeout := msecsToJiffies ms

def exec (s : State) : State :=
  match s.pc with
  | .readStart => { s with start := s.clock.jiffies, pc := .test }
  | .test => { s with tested := s.x.done, pc := if s.x.done = 0 then .readNow else .take }
  | .readNow => { s with pc := .compare s.clock.jiffies }
  | .compare now => { s with pc := if now - s.start ≥ s.timeout then .returned 0 else .yield }
  | .yield => { s with pc := .test }
  | .take =>
    { s with x := ⟨s.x.done - 1⟩, consumed := s.consumed + 1, pc := .returned 1 }
  | .returned _ => s

def microsecond (s : State) : State :=
  { s with
    clock := s.clock.advance
    elapsed := match s.pc with
      | .returned _ => s.elapsed
      | _ => s.elapsed + 1 }

def step (s : State) : Event → State
  | .exec => s.exec
  | .microsecond => s.microsecond
  | .complete => { s with x := s.x.complete }

/-! ## What is claimed -/

/-- A result of 1 stands for one completion that has been taken, and one of 0 for a
completion that was not done when last tested. -/
def Honest (s : State) : Prop :=
  ∀ result, s.pc = .returned result →
    (result = 0 ∨ result = 1) ∧ (result = 1 ↔ s.consumed = 1) ∧ s.consumed ≤ 1 ∧
      (result = 0 → s.tested = 0)

/-- The waiter does not give up before `ms` milliseconds have passed. -/
def Patient (ms : BitVec 32) (s : State) : Prop :=
  s.pc = .returned 0 → ms.toNat * 1000 ≤ s.elapsed

/-- The waiter does not give up before the clock has ticked `ms / 10` times; `sinceTick` is
the time from the tick before the call to the call. -/
def Ticked (ms : BitVec 32) (sinceTick : Nat) (s : State) : Prop :=
  s.pc = .returned 0 → ms.toNat / 10 * period ≤ sinceTick + s.elapsed

/-! ## Results -/

/-- What is known of the completion at each step. -/
def Served (s : State) : Prop :=
  match s.pc with
  | .readNow | .compare _ => s.consumed = 0 ∧ s.tested = 0
  | .returned result => result = 0 ∧ s.consumed = 0 ∧ s.tested = 0 ∨ result = 1 ∧ s.consumed = 1
  | _ => s.consumed = 0

theorem Served.step {s : State} (h : s.Served) (e : Event) : (s.step e).Served := by
  cases e with
  | complete | microsecond => exact h
  | exec =>
    unfold Served at h
    unfold State.step exec
    cases hpc : s.pc with simp only [hpc] at h ⊢
    | readStart | yield => exact h
    | test =>
      unfold Served
      by_cases hdone : s.x.done = 0
      · simp only [if_pos hdone]
        exact ⟨h, hdone⟩
      · simp only [if_neg hdone]
        exact h
    | readNow => exact h
    | compare now =>
      unfold Served
      by_cases htime : now - s.start ≥ s.timeout
      · simp [if_pos htime, h]
      · simp only [if_neg htime]
        exact h.1
    | take => exact .inr ⟨rfl, congrArg (· + 1) h⟩
    | returned result =>
      unfold Served
      simp only [hpc]
      exact h

theorem Served.honest {s : State} (h : s.Served) : s.Honest := by
  intro result hpc
  unfold Served at h
  rw [hpc] at h
  rcases h with ⟨rfl, hconsumed, htested⟩ | ⟨rfl, hconsumed⟩
  · simp [hconsumed, htested]
  · simp [hconsumed]

/-! ## Ticks -/

/-- What has been read of `jiffies` until its `n`-th tick. -/
def Counted (c : Clock) (n : Nat) (s : State) : Prop :=
  match s.pc with
  | .readStart => True
  | .compare now => ∃ a b, a ≤ b ∧ b ≤ n ∧ s.start = c.after a ∧ now = c.after b
  | .returned result => result = 0 → s.timeout.toNat ≤ n
  | _ => ∃ a, a ≤ n ∧ s.start = c.after a

/-- More ticks do not take back what has been read. -/
theorem Counted.mono {c : Clock} {n m : Nat} {s : State} (h : s.Counted c n) (hnm : n ≤ m) :
    s.Counted c m := by
  unfold Counted at h ⊢
  cases hpc : s.pc with simp only [hpc] at h ⊢
  | compare now =>
    obtain ⟨a, b, hab, hb, hs⟩ := h
    exact ⟨a, b, hab, Nat.le_trans hb hnm, hs⟩
  | returned result => exact fun hzero => Nat.le_trans (h hzero) hnm
  | test | readNow | yield | take =>
    obtain ⟨a, ha, hs⟩ := h
    exact ⟨a, Nat.le_trans ha hnm, hs⟩

/-- The time that the waiter sees is the time counted by the ticks, up to whole turns of
the counter. -/
theorem after_sub_le (c : Clock) {a b : Nat} (h : a ≤ b) :
    (c.after b - c.after a).toNat ≤ b - a := by
  have hsub : c.after b - c.after a = .ofNat 32 (b - a) := by
    obtain ⟨d, rfl⟩ := Nat.exists_eq_add_of_le h
    have hsum : c.after (a + d) = .ofNat 32 d + c.after a := by
      rw [Clock.after, Clock.after, BitVec.ofNat_add, ← BitVec.add_assoc, BitVec.add_comm]
    rw [hsum, BitVec.add_sub_cancel, Nat.add_sub_cancel_left]
  rw [hsub, BitVec.toNat_ofNat]
  exact Nat.mod_le _ _

theorem Counted.exec {c : Clock} {n : Nat} {s : State} (h : s.Counted c n)
    (hclock : s.clock.jiffies = c.after n) : s.exec.Counted c n := by
  unfold Counted at h
  unfold State.exec
  cases hpc : s.pc with simp only [hpc] at h ⊢
  | readStart => exact ⟨n, Nat.le_refl n, hclock⟩
  | test =>
    unfold Counted
    by_cases hdone : s.x.done = 0
    · simp only [if_pos hdone]
      exact h
    · simp only [if_neg hdone]
      exact h
  | readNow =>
    obtain ⟨a, ha, hstart⟩ := h
    exact ⟨a, n, ha, Nat.le_refl n, hstart, hclock⟩
  | compare now =>
    obtain ⟨a, b, hab, hb, hstart, rfl⟩ := h
    unfold Counted
    by_cases htime : c.after b - s.start ≥ s.timeout
    · simp only [if_pos htime]
      intro _
      rw [hstart] at htime
      have hle : s.timeout.toNat ≤ (c.after b - c.after a).toNat := htime
      have hsub := after_sub_le c hab
      omega
    · simp only [if_neg htime]
      exact ⟨a, Nat.le_trans hab hb, hstart⟩
  | yield => exact h
  | take => exact fun hone => absurd hone (by decide)
  | returned result =>
    unfold Counted
    simp only [hpc]
    exact h

/-- The clock has ticked `n` times, until the return if there has been one. -/
structure Timed (c : Clock) (n : Nat) (s : State) : Prop where
  counted : s.Counted c n
  running : (∀ result, s.pc ≠ .returned result) → s.clock.jiffies = c.after n ∧
    c.sinceTick + s.elapsed = n * period + s.clock.sinceTick
  past : n * period ≤ c.sinceTick + s.elapsed

theorem Timed.exec {c : Clock} {n : Nat} {s : State} (h : s.Timed c n) : s.exec.Timed c n := by
  by_cases hover : ∃ result, s.pc = .returned result
  · obtain ⟨result, hpc⟩ := hover
    have hself : s.exec = s := by simp [State.exec, hpc]
    rw [hself]
    exact h
  · have hrunning := h.running (not_exists.1 hover)
    -- Nothing but the waiter's own variables changes.
    have hsame : s.exec.clock = s.clock ∧ s.exec.elapsed = s.elapsed := by
      unfold State.exec
      split <;> exact ⟨rfl, rfl⟩
    exact {
      counted := h.counted.exec hrunning.1
      running := fun _ => by rw [hsame.1, hsame.2]; exact hrunning
      past := by rw [hsame.2]; exact h.past }

theorem Timed.microsecond {c : Clock} {n : Nat} {s : State} (h : s.Timed c n) :
    ∃ m, s.microsecond.Timed c m := by
  by_cases hover : ∃ result, s.pc = .returned result
  · obtain ⟨result, hpc⟩ := hover
    have helapsed : s.microsecond.elapsed = s.elapsed := by simp [State.microsecond, hpc]
    exact ⟨n, h.counted, fun hne => absurd hpc (hne result), by rw [helapsed]; exact h.past⟩
  · have hne := not_exists.1 hover
    obtain ⟨hjiffies, helapsed⟩ := h.running hne
    have hstep : s.microsecond.elapsed = s.elapsed + 1 := by
      unfold State.microsecond
      split
      next result hpc => exact absurd hpc (hne result)
      next => rfl
    rcases s.clock.advance_cases with ⟨hj, hs⟩ | ⟨hj, hs, hlast⟩
    · refine ⟨n, h.counted, fun _ => ⟨?_, ?_⟩, ?_⟩
      · exact hj.trans hjiffies
      · change c.sinceTick + s.microsecond.elapsed = n * period + s.clock.advance.sinceTick
        omega
      · omega
    · have hsucc : (n + 1) * period = n * period + period := Nat.succ_mul ..
      refine ⟨n + 1, Counted.mono h.counted (Nat.le_succ n), fun _ => ⟨?_, ?_⟩, ?_⟩
      · change s.clock.advance.jiffies = _
        rw [hj, hjiffies, Clock.after, Clock.after, BitVec.add_assoc, BitVec.ofNat_add]
        rfl
      · change c.sinceTick + s.microsecond.elapsed = (n + 1) * period + s.clock.advance.sinceTick
        omega
      · omega

theorem Timed.step {c : Clock} {n : Nat} {s : State} (h : s.Timed c n) (e : Event) :
    ∃ m, (s.step e).Timed c m := by
  cases e with
  | exec => exact ⟨n, h.exec⟩
  | microsecond => exact h.microsecond
  | complete => exact ⟨n, h.counted, h.running, h.past⟩

/-! ## Runs -/

theorem msecsToJiffies_toNat {ms : BitVec 32} (h : ms.toNat * 100 < 4294967296) :
    (msecsToJiffies ms).toNat = ms.toNat / 10 := by
  rw [msecsToJiffies, BitVec.toNat_udiv, BitVec.toNat_mul]
  simp only [hz, BitVec.reduceToNat]
  omega

theorem run_timeout (s : State) (es : List Event) :
    (Machine.run step s es).timeout = s.timeout := by
  induction es generalizing s with
  | nil => rfl
  | cons e es ih =>
    rw [Machine.run_cons, ih]
    cases e with
    | exec =>
      change s.exec.timeout = s.timeout
      unfold exec
      split <;> rfl
    | microsecond | complete => rfl

/-- Every call, whatever happens while it waits. -/
theorem run_call (ms : BitVec 32) (x : Completion) (c : Clock) (es : List Event) :
    (Machine.run step (call ms x c) es).Honest ∧
      (ms.toNat * 100 < 4294967296 →
        (Machine.run step (call ms x c) es).Ticked ms c.sinceTick) := by
  constructor
  · have hinit : (call ms x c).Served := rfl
    exact (Machine.run_invariant (I := Served) (fun s e h => Served.step h e) es hinit).honest
  · intro hfits hpc
    have hinit : (call ms x c).Timed c 0 := ⟨trivial, fun _ => by simp [call, Clock.after], by simp⟩
    obtain ⟨n, htimed⟩ := Machine.run_invariant (I := fun s : State => ∃ n, s.Timed c n)
      (fun s e ⟨n, hn⟩ => Timed.step hn e) es ⟨0, hinit⟩
    have hcounted := htimed.counted
    unfold Counted at hcounted
    rw [hpc] at hcounted
    have hle := hcounted rfl
    rw [run_timeout] at hle
    change (msecsToJiffies ms).toNat ≤ n at hle
    rw [msecsToJiffies_toNat hfits] at hle
    exact Nat.le_trans (Nat.mul_le_mul_right period hle) htimed.past

/-- A wait of 10 ms that is called a microsecond before a tick. -/
theorem run_call_short :
    (Machine.run step (call 10 {} ⟨0, 9999, by decide⟩)
      [.exec, .exec, .microsecond, .exec, .exec]).Ticked 10 9999 :=
  (run_call 10 {} ⟨0, 9999, by decide⟩ _).2 (by decide)

/-- It is over after that microsecond. -/
theorem not_run_patient :
    ¬ ∀ (ms : BitVec 32) (x : Completion) (c : Clock) (es : List Event),
      (Machine.run step (call ms x c) es).Honest ∧
        (Machine.run step (call ms x c) es).Patient ms := by
  intro h
  have hrun :=
    (h 10 {} ⟨0, 9999, by decide⟩ [.exec, .exec, .microsecond, .exec, .exec]).2 (by decide)
  exact absurd hrun (by decide)

end State
end Timeout
