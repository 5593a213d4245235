-- SUMMARY: The coroutine scheduler with its register sets and stacks, which runs as the ideal one.
import Ampi.RoundRobin
import Ampi.Linux.Coroutine
import Mathlib

/-!
# The scheduler

linux/coroutine.c without interrupts, with what the processor holds: a jump stores r4 to
r11, the stack pointer and the return address in one register set and loads them from
another. Which thread runs is read off the stack pointer, as every thread keeps to its own
stack.
-/

namespace Scheduler

open RoundRobin

/-- `MAX_CO`. -/
def maxCo : Nat := Coroutine.maxCo

/-- `MAX_STACK`. -/
def maxStack : UInt32 := 65536

/-- `struct reg_set`. -/
structure RegSet where
  r4 : UInt32 := 0
  r5 : UInt32 := 0
  r6 : UInt32 := 0
  r7 : UInt32 := 0
  r8 : UInt32 := 0
  r9 : UInt32 := 0
  r10 : UInt32 := 0
  r11 : UInt32 := 0
  sp : UInt32 := 0
  pc : UInt32 := 0
  deriving DecidableEq, Repr

/-- What `ampi_co_create` is given. -/
structure Job where
  fn : UInt32
  arg : UInt32
  deriving DecidableEq, Repr

/-- What a coroutine starts with: its registers, and its argument in r0. -/
structure Entry where
  regs : RegSet
  r0 : UInt32
  deriving DecidableEq, Repr

structure State where
  used : UInt32 := 0
  fnPtr : Nat → UInt32 := fun _ => 0
  args : Nat → UInt32 := fun _ => 0
  current : Nat := 0
  mainRegs : RegSet := {}
  regs : Nat → RegSet := fun _ => {}
  /-- A callback is set. -/
  callback : Bool := false
  -- not in the source
  /-- What the processor has last been loaded with. -/
  cpu : RegSet
  /-- `i` in the loop of `AMPiPoke` or `ampi_co_yield` that the main thread is in. -/
  loop : Option Nat := none
  log : List (Obs Entry RegSet) := []

/-- `&stack_space[i]`. -/
def stackAt (stackSpace : UInt32) (i : Nat) : UInt32 := stackSpace + UInt32.ofNat i * maxStack

/-- The coroutine on whose stack an address is; a stack pointer may point to the end of
the stack, which is empty then. -/
def stackOf (stackSpace : UInt32) (sp : UInt32) : Option Nat :=
  let k := (sp - stackSpace - 1).toNat / maxStack.toNat
  if k < maxCo then some k else none

/-- The thread keeps to its stack, and goes on at an address. -/
def fits (stackSpace : UInt32) (owner : Option Nat) (r : RegSet) : Bool :=
  stackOf stackSpace r.sp = owner ∧ r.pc ≠ 0

/-- The main thread starts on another stack. -/
def boot (stackSpace : UInt32) : State where
  cpu := { sp := stackSpace }

namespace State

def say (s : State) (o : Obs Entry RegSet) : State := { s with log := s.log ++ [o] }

/-- `if (callback) callback(current)`. -/
def callCallback (s : State) : State := if s.callback then s.say (.told s.current) else s

/-- The bit `1 << i` of `used`. -/
def isUsed (s : State) (i : Nat) : Bool := s.used &&& (1 : UInt32) <<< UInt32.ofNat i ≠ 0

/-- `ampi_co_create`, with what it returns. -/
def coCreate (s : State) (job : Job) : State × Nat :=
  match (List.range maxCo).find? fun i => !s.isUsed i with
  | none => (s, 0)
  | some i =>
    ({ s with
      used := s.used ||| (1 : UInt32) <<< UInt32.ofNat i
      fnPtr := Function.update s.fnPtr i job.fn
      args := Function.update s.args i job.arg }, i + 1)

def create (s : State) (job : Job) : State :=
  let (s, id) := s.coCreate job
  s.say (.created id)

/-- `ampi_co_jump_arg`. -/
def jumpArg (s : State) (id : Nat) (r : RegSet) (arg : UInt32) : State :=
  { s with mainRegs := r, cpu := s.regs id }.say (.entered (id + 1) ⟨s.regs id, arg⟩)

/-- `ampi_co_jump` to a coroutine. -/
def jumpTo (s : State) (id : Nat) (r : RegSet) : State :=
  { s with mainRegs := r, cpu := s.regs id }.say (.continued (id + 1) (s.regs id))

/-- `ampi_co_jump` to the main thread. -/
def jumpBack (s : State) (id : Nat) (r : RegSet) : State :=
  { s with regs := Function.update s.regs id r, cpu := s.mainRegs }.say (.returned s.mainRegs)

/-- `ampi_co_next`, which jumps with the registers `r`. -/
def next (stackSpace : UInt32) (s : State) (id : Nat) (r : RegSet) : State :=
  let id := id - 1
  if !s.isUsed id then s
  else
    let s := { s with current := id + 1 }.callCallback
    if (s.regs id).pc = 0 then
      { s with
        regs := Function.update s.regs id
          { s.regs id with
            pc := s.fnPtr id
            sp := stackAt stackSpace (id + 1) } }.jumpArg id r (s.args id)
    else s.jumpTo id r

/-- The loop over `ampi_co_next` begins. -/
def beginLoop (s : State) : State := { s with loop := some 1 }.say .began

/-- A turn of the loop, with the registers at the jump. -/
def loopTurn (stackSpace : UInt32) (s : State) (i : Nat) (r : RegSet) : State :=
  if i ≤ maxCo then { s with loop := some (i + 1) }.next stackSpace i r
  else { s with loop := none }.say .ended

/-- `ampi_co_yield`, which jumps with the registers `r`. -/
def yield (s : State) (r : RegSet) : State :=
  if 0 < s.current then
    let id := s.current - 1
    { s with current := 0 }.callCallback.jumpBack id r
  else s.beginLoop

/-- The thread that runs. -/
def thread (stackSpace : UInt32) (s : State) : Option Nat := stackOf stackSpace s.cpu.sp

/-- The main thread runs and is in the loop. -/
def inLoop (stackSpace : UInt32) (s : State) : Bool :=
  (s.thread stackSpace).isNone && s.loop.isSome

def step (stackSpace : UInt32) (s : State) : Event Job RegSet → State
  | .create job => if s.inLoop stackSpace then s else s.create job
  | .yield r =>
    if s.inLoop stackSpace || !fits stackSpace (s.thread stackSpace) r then s else s.yield r
  | .poke => if (s.thread stackSpace).isSome || s.inLoop stackSpace then s else s.beginLoop
  | .turn r =>
    if (s.thread stackSpace).isSome || !fits stackSpace none r then s
    else
      match s.loop with
      | none => s
      | some i => s.loopTurn stackSpace i r
  | .listen on => if s.inLoop stackSpace then s else { s with callback := on }

abbrev run (stackSpace : UInt32) (es : List (Event Job RegSet)) : State :=
  Machine.run (step stackSpace) (boot stackSpace) es

end State

/-- The scheduler as it is meant to be: a coroutine starts at its function with its
argument, at the end of its own stack. -/
def system (stackSpace : UInt32) : System Job RegSet Entry where
  limit := maxCo
  enter k job := ⟨{ pc := job.fn, sp := stackAt stackSpace (k + 1) }, job.arg⟩
  fits := fits stackSpace

@[simp] theorem system_fits (stackSpace : UInt32) :
    (system stackSpace).fits = fits stackSpace := rfl

/-! ## The table of coroutines -/

/-- The first `n` bits. -/
def firstUsed (n : Nat) : UInt32 := UInt32.ofNat (2 ^ n - 1)

theorem firstUsed_bit : ∀ n < maxCo + 1, ∀ i < maxCo,
    (firstUsed n &&& (1 : UInt32) <<< UInt32.ofNat i ≠ 0) ↔ i < n := by
  decide +kernel

theorem firstUsed_succ : ∀ n < maxCo,
    firstUsed n ||| (1 : UInt32) <<< UInt32.ofNat n = firstUsed (n + 1) := by
  decide +kernel

/-- Each stack is the coroutine's own. -/
theorem stackOf_stackAt (stackSpace : UInt32) {k : Nat} (hk : k < maxCo) :
    stackOf stackSpace (stackAt stackSpace (k + 1)) = some k := by
  have hoffset : ∀ k < maxCo,
      (UInt32.ofNat (k + 1) * maxStack - 1).toNat / maxStack.toNat = k := by
    decide +kernel
  have hsub : stackAt stackSpace (k + 1) - stackSpace - 1 =
      UInt32.ofNat (k + 1) * maxStack - 1 := by
    rw [stackAt, add_sub_cancel_left]
  rw [stackOf, hsub, hoffset k hk]
  exact if_pos hk

theorem stackOf_boot (stackSpace : UInt32) : stackOf stackSpace stackSpace = none := by
  rw [stackOf, sub_self]
  rfl

namespace State

variable {stackSpace : UInt32} {s : State} {n : Nat}

theorem isUsed_iff (hused : s.used = firstUsed n) (hn : n ≤ maxCo) {i : Nat} (hi : i < maxCo) :
    s.isUsed i = true ↔ i < n := by
  rw [isUsed, decide_eq_true_eq, hused]
  exact firstUsed_bit n (Nat.lt_succ_of_le hn) i hi

theorem callCallback_eq (s : State) :
    s.callCallback =
      { s with log := s.log ++ if s.callback then [.told s.current] else [] } := by
  unfold callCallback
  split
  · rfl
  · rw [List.append_nil]

/-- The first turn of a coroutine. -/
theorem next_of_fresh {k : Nat} (hused : s.isUsed k = true) (hpc : (s.regs k).pc = 0)
    (r : RegSet) :
    let start := { s.regs k with pc := s.fnPtr k, sp := stackAt stackSpace (k + 1) }
    s.next stackSpace (k + 1) r =
      { s with
        current := k + 1
        mainRegs := r
        regs := Function.update s.regs k start
        cpu := start
        log := s.log ++ (if s.callback then [.told (k + 1)] else []) ++
          [.entered (k + 1) ⟨start, s.args k⟩] } := by
  simp [next, hused, callCallback_eq, hpc, jumpArg, say]

theorem next_of_suspended {k : Nat} (hused : s.isUsed k = true) (hpc : (s.regs k).pc ≠ 0)
    (r : RegSet) :
    s.next stackSpace (k + 1) r =
      { s with
        current := k + 1
        mainRegs := r
        cpu := s.regs k
        log := s.log ++ (if s.callback then [.told (k + 1)] else []) ++
          [.continued (k + 1) (s.regs k)] } := by
  simp [next, hused, callCallback_eq, hpc, jumpTo, say]

theorem next_of_unused {k : Nat} (hused : s.isUsed k = false) (r : RegSet) :
    s.next stackSpace (k + 1) r = s := by
  simp [next, hused]

/-- The first coroutine that is not used is the next one. -/
theorem coCreate_of_lt (hused : s.used = firstUsed n) (hlt : n < maxCo) (job : Job) :
    s.coCreate job =
      ({ s with
        used := firstUsed (n + 1)
        fnPtr := Function.update s.fnPtr n job.fn
        args := Function.update s.args n job.arg }, n + 1) := by
  have hfind : ((List.range maxCo).find? fun i => !s.isUsed i) = some n := by
    rw [List.find?_range_eq_some]
    refine ⟨?_, List.mem_range.2 hlt, fun j hj => ?_⟩
    · rw [Bool.not_eq_true', Bool.eq_false_iff]
      exact fun hbit => lt_irrefl n ((isUsed_iff hused hlt.le hlt).1 hbit)
    · rw [Bool.not_not]
      exact (isUsed_iff hused hlt.le (hj.trans hlt)).2 hj
  rw [coCreate, hfind, ← firstUsed_succ n hlt, ← hused]

theorem coCreate_of_full (hused : s.used = firstUsed maxCo) (job : Job) :
    s.coCreate job = (s, 0) := by
  have hfind : ((List.range maxCo).find? fun i => !s.isUsed i) = none := by
    rw [List.find?_range_eq_none]
    intro i hi
    rw [Bool.not_not]
    exact (isUsed_iff hused le_rfl hi).2 hi
  rw [coCreate, hfind]

end State

/-! ## Simulation -/

/-- What the tables hold of a coroutine that does not run. -/
def Holds (stackSpace : UInt32) (s : State) (k : Nat) : Thread Job RegSet → Prop
  | .fresh job => s.regs k = {} ∧ s.fnPtr k = job.fn ∧ s.args k = job.arg
  | .suspended r => s.regs k = r ∧ fits stackSpace (some k) r

/-- The scheduler runs as the ideal one does. -/
structure Simulates (stackSpace : UInt32) (s : State) (t : Ideal Job RegSet Entry) : Prop where
  log : s.log = t.log
  callback : s.callback = t.listens
  loop : s.loop = t.turns.map (· + 1)
  few : t.threads.length ≤ maxCo
  used : s.used = firstUsed t.threads.length
  threads : ∀ k thread, t.threads[k]? = some thread → t.running ≠ some k →
    Holds stackSpace s k thread
  unused : ∀ k, t.threads.length ≤ k → s.regs k = {}
  thread : s.thread stackSpace = t.running
  current : s.current = (t.running.map (· + 1)).getD 0
  main : ∀ k, t.running = some k → k < t.threads.length ∧ t.main = some s.mainRegs ∧
    fits stackSpace none s.mainRegs

namespace Simulates

variable {stackSpace : UInt32} {s : State} {t : Ideal Job RegSet Entry}

theorem boot (stackSpace : UInt32) : Simulates stackSpace (boot stackSpace) {} where
  log := rfl
  callback := rfl
  loop := rfl
  few := Nat.zero_le _
  used := rfl
  threads := nofun
  unused _ _ := rfl
  thread := stackOf_boot stackSpace
  current := rfl
  main := nofun

theorem beginLoop (h : Simulates stackSpace s t) :
    Simulates stackSpace s.beginLoop (System.begin t) :=
  { h with
    log := congrArg (· ++ [Obs.began]) h.log
    loop := rfl
    threads := h.threads
    main := h.main }

theorem create (h : Simulates stackSpace s t) (job : Job) :
    Simulates stackSpace (s.create job) ((system stackSpace).create t job) := by
  unfold System.create
  split
  · next hlt =>
    have hlength : (t.threads ++ [Thread.fresh job]).length = t.threads.length + 1 :=
      List.length_append
    rw [State.create, State.coCreate_of_lt h.used hlt]
    refine ⟨?_, h.callback, h.loop, ?_, ?_, fun k thread hk hrun => ?_, fun k hk => ?_, h.thread,
      h.current, fun k hk => ?_⟩
    · exact congrArg (· ++ [Obs.created (t.threads.length + 1)]) h.log
    · exact hlength.le.trans hlt
    · exact congrArg firstUsed hlength.symm
    · by_cases hkn : k = t.threads.length
      · subst hkn
        obtain rfl : Thread.fresh job = thread := by simpa [Ideal.say] using hk
        exact ⟨h.unused _ le_rfl, Function.update_self .., Function.update_self ..⟩
      · have hold : t.threads[k]? = some thread := by
          change (t.threads ++ [Thread.fresh job])[k]? = some thread at hk
          have hlt' : k < t.threads.length + 1 := by
            rw [← hlength]
            exact (List.getElem?_eq_some_iff.1 hk).1
          rwa [List.getElem?_append_left (by omega)] at hk
        have hholds := h.threads k thread hold hrun
        cases thread with
        | fresh job' =>
          obtain ⟨hregs, hfn, harg⟩ := hholds
          exact ⟨hregs, (Function.update_of_ne hkn ..).trans hfn,
            (Function.update_of_ne hkn ..).trans harg⟩
        | suspended r => exact hholds
    · exact h.unused k ((Nat.le_succ _).trans (hlength.ge.trans hk))
    · obtain ⟨hlt', hmain⟩ := h.main k hk
      exact ⟨(Nat.lt_succ_of_lt hlt').trans_eq hlength.symm, hmain⟩
  · next hfull =>
    have hlimit : t.threads.length = maxCo := h.few.antisymm (Nat.not_lt.1 hfull)
    rw [State.create, State.coCreate_of_full (hlimit ▸ h.used)]
    exact { h with
      log := congrArg (· ++ [Obs.created 0]) h.log
      threads := h.threads
      main := h.main }

/-- The thread that a turn goes to is resumed. -/
theorem next (h : Simulates stackSpace s t) (hidle : t.running = none) {k : Nat}
    {thread : Thread Job RegSet} (hthread : t.threads[k]? = some thread) {r : RegSet}
    (hr : fits stackSpace none r) :
    Simulates stackSpace ({ s with loop := some (k + 2) }.next stackSpace (k + 1) r)
      ({ t with
        running := some k
        main := some r
        turns := some (k + 1) }.switch (k + 1) ((system stackSpace).resumed k thread)) := by
  obtain ⟨hk, -⟩ := List.getElem?_eq_some_iff.1 hthread
  have hlt : k < maxCo := hk.trans_le h.few
  have hused : State.isUsed { s with loop := some (k + 2) } k = true :=
    (State.isUsed_iff h.used h.few hlt).2 hk
  have hholds := h.threads k thread hthread (by simp [hidle])
  have hothers (j : Nat) (thread' : Thread Job RegSet) (hj : t.threads[j]? = some thread') :
      Holds stackSpace s j thread' := h.threads j thread' hj (by simp [hidle])
  rw [Ideal.switch_eq]
  cases thread with
  | fresh job =>
    obtain ⟨hregs, hfn, harg⟩ := hholds
    have hstart : { s.regs k with pc := s.fnPtr k, sp := stackAt stackSpace (k + 1) } =
        ({ pc := job.fn, sp := stackAt stackSpace (k + 1) } : RegSet) := by
      rw [hregs, hfn]
    rw [State.next_of_fresh hused (by rw [hregs])]
    refine ⟨?_, h.callback, rfl, h.few, h.used, fun j thread' hj hrun => ?_, fun j hj => ?_, ?_,
      rfl, fun j hj => ?_⟩
    · change s.log ++ _ ++ [Obs.entered (k + 1) ⟨_, s.args k⟩] = t.log ++ _ ++ [_]
      rw [hstart, harg, h.log, h.callback]
      rfl
    · have hjk : j ≠ k := fun heq => hrun (congrArg some heq.symm)
      have hother := hothers j thread' hj
      cases thread' with
      | fresh job' =>
        obtain ⟨hregs', hrest⟩ := hother
        exact ⟨(Function.update_of_ne hjk ..).trans hregs', hrest⟩
      | suspended r' =>
        obtain ⟨hregs', hrest⟩ := hother
        exact ⟨(Function.update_of_ne hjk ..).trans hregs', hrest⟩
    · have hjk : j ≠ k := fun heq => hk.not_ge (heq ▸ hj)
      exact (Function.update_of_ne hjk ..).trans (h.unused j hj)
    · exact stackOf_stackAt stackSpace hlt
    · obtain rfl := Option.some.inj hj
      exact ⟨hk, rfl, hr⟩
  | suspended r' =>
    obtain ⟨hregs, hfits⟩ := hholds
    obtain ⟨hstack, hpc⟩ := of_decide_eq_true hfits
    rw [State.next_of_suspended hused (by rwa [hregs])]
    refine ⟨?_, h.callback, rfl, h.few, h.used, fun j thread' hj _ => hothers j thread' hj,
      h.unused, ?_, rfl, fun j hj => ?_⟩
    · change s.log ++ _ ++ [Obs.continued (k + 1) (s.regs k)] = t.log ++ _ ++ [_]
      rw [hregs, h.log, h.callback]
      rfl
    · change stackOf stackSpace (s.regs k).sp = some k
      rwa [hregs]
    · obtain rfl := Option.some.inj hj
      exact ⟨hk, rfl, hr⟩

theorem turn (h : Simulates stackSpace s t) (hidle : t.running = none) (k : Nat) {r : RegSet}
    (hr : fits stackSpace none r) :
    Simulates stackSpace (s.loopTurn stackSpace (k + 1) r) ((system stackSpace).turn t k r) := by
  unfold State.loopTurn System.turn
  split
  · next hlt =>
    have hlimit : k < (system stackSpace).limit := hlt
    rw [if_pos hlimit]
    cases hthread : t.threads[k]? with
    | none =>
      have hle : t.threads.length ≤ k := List.getElem?_eq_none_iff.1 hthread
      have hunused : State.isUsed { s with loop := some (k + 2) } k = false := by
        rw [Bool.eq_false_iff]
        exact fun hbit => hle.not_gt ((State.isUsed_iff h.used h.few hlt).1 hbit)
      rw [State.next_of_unused hunused]
      exact { h with loop := rfl, threads := h.threads, main := h.main }
    | some thread => exact h.next hidle hthread hr
  · next hend =>
    have hlimit : ¬ k < (system stackSpace).limit := hend
    rw [if_neg hlimit]
    exact { h with
      log := congrArg (· ++ [Obs.ended]) h.log
      loop := rfl
      threads := h.threads
      main := h.main }

theorem yield (h : Simulates stackSpace s t) {r : RegSet}
    (hr : fits stackSpace t.running r) :
    Simulates stackSpace (s.yield r) (System.yield t r) := by
  cases hrun : t.running with
  | none =>
    have hcurrent : s.current = 0 := by rw [h.current, hrun]; rfl
    have hyield : s.yield r = s.beginLoop := by rw [State.yield, hcurrent]; rfl
    have hideal : System.yield t r = System.begin t := by simp only [System.yield, hrun]
    rw [hyield, hideal]
    exact h.beginLoop
  | some k =>
    obtain ⟨hk, hmain, hfits⟩ := h.main k hrun
    obtain ⟨hstack, -⟩ := of_decide_eq_true hfits
    have hcurrent : s.current = k + 1 := by rw [h.current, hrun]; rfl
    have hyield : s.yield r =
        { s with
          current := 0
          regs := Function.update s.regs k r
          cpu := s.mainRegs
          log := s.log ++ (if s.callback then [.told 0] else []) ++ [.returned s.mainRegs] } := by
      simp [State.yield, hcurrent, State.callCallback_eq, State.jumpBack, State.say]
    rw [hyield, System.yield_eq hrun hmain, Ideal.switch_eq]
    refine ⟨?_, h.callback, h.loop, ?_, ?_, fun j thread hj _ => ?_, fun j hj => ?_, hstack, rfl,
      fun j hj => ?_⟩
    · change s.log ++ _ ++ _ = t.log ++ _ ++ _
      rw [h.log, h.callback]
    · exact List.length_set.le.trans h.few
    · exact h.used.trans (congrArg firstUsed List.length_set.symm)
    · by_cases hjk : j = k
      · subst hjk
        obtain rfl : Thread.suspended r = thread := by
          simpa [List.getElem?_set, hk] using hj
        exact ⟨Function.update_self .., hrun ▸ hr⟩
      · have hold : t.threads[j]? = some thread := by
          rwa [List.getElem?_set_ne (Ne.symm hjk)] at hj
        have hother := h.threads j thread hold (by simpa [hrun] using Ne.symm hjk)
        cases thread with
        | fresh job =>
          obtain ⟨hregs, hrest⟩ := hother
          exact ⟨(Function.update_of_ne hjk ..).trans hregs, hrest⟩
        | suspended r' =>
          obtain ⟨hregs, hrest⟩ := hother
          exact ⟨(Function.update_of_ne hjk ..).trans hregs, hrest⟩
    · have hlen : t.threads.length ≤ j := List.length_set.ge.trans hj
      have hjk : j ≠ k := fun heq => hk.not_ge (heq ▸ hlen)
      exact (Function.update_of_ne hjk ..).trans (h.unused j hlen)
    · cases hj

theorem inLoop (h : Simulates stackSpace s t) : s.inLoop stackSpace = t.inRound := by
  rw [State.inLoop, h.thread, h.loop, Option.isSome_map]
  rfl

theorem step (h : Simulates stackSpace s t) (e : Event Job RegSet) :
    Simulates stackSpace (s.step stackSpace e) ((system stackSpace).step t e) := by
  cases e with
  | create job =>
    rw [State.step, System.step, h.inLoop]
    split
    · exact h
    · exact h.create job
  | yield r =>
    rw [State.step, System.step, h.inLoop, h.thread, system_fits]
    split
    · exact h
    · next hgo =>
      rw [Bool.or_eq_true, not_or] at hgo
      exact h.yield (by simpa using hgo.2)
  | poke =>
    rw [State.step, System.step, h.inLoop, h.thread]
    split
    · exact h
    · exact h.beginLoop
  | turn r =>
    rw [State.step, System.step, h.thread, h.loop, system_fits]
    split
    · exact h
    · next hgo =>
      rw [Bool.or_eq_true, not_or] at hgo
      cases t.turns with
      | none => exact h
      | some k => exact h.turn (by simpa using hgo.1) k (by simpa using hgo.2)
  | listen on =>
    rw [State.step, System.step, h.inLoop]
    split
    · exact h
    · exact { h with callback := rfl, threads := h.threads, main := h.main }

theorem run (stackSpace : UInt32) (es : List (Event Job RegSet)) :
    Simulates stackSpace (State.run stackSpace es) ((system stackSpace).run es) := by
  suffices hall : ∀ {s : State} {t : Ideal Job RegSet Entry}, Simulates stackSpace s t →
      Simulates stackSpace (Machine.run (State.step stackSpace) s es)
        (Machine.run (system stackSpace).step t es) from hall (boot stackSpace)
  induction es with
  | nil => exact id
  | cons e es ih => exact fun h => ih (h.step e)

end Simulates

/-- What can be seen of every run can be seen of the ideal run, in which every coroutine
starts at its function with its argument on its own stack and then goes on where it has
yielded; the same thread runs; and the rounds are fair. -/
theorem scheduling_faithful (stackSpace : UInt32) (es : List (Event Job RegSet)) :
    let s := State.run stackSpace es
    let ideal := (system stackSpace).run es
    s.log = ideal.log ∧ s.thread stackSpace = ideal.running ∧
      ∃ n turns, Fair maxCo s.log n turns := by
  intro s ideal
  have h := Simulates.run stackSpace es
  refine ⟨h.log, h.thread, ideal.threads.length, System.turnsSeen ideal, ?_⟩
  change Fair maxCo (State.run stackSpace es).log _ _
  rw [h.log]
  exact System.fair_run (system stackSpace) es

end Scheduler
