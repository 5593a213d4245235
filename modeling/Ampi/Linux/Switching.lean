-- SUMMARY: Whether saved contexts are resumed once and in order, and the interrupts after which they are.
import Ampi.Linux.Coroutine

/-!
# Switching

There is one `main_regs` and one `current`. An interrupt handler that schedules
overwrites both, which is harmless only where the interrupted context uses neither
any more before it sets them again.
-/

namespace Coroutine

/-- Not between `current = id + 1` and the return of `ampi_co_next`, and not on the
coroutine's side of `ampi_co_yield`. -/
def Pc.quiet : Pc → Bool
  | .body | .testCurrent | .testUsed _ | .setCurrent _ => true
  | _ => false

namespace State

/-- An interrupt is taken only while neither `ampi_co_next` is switching nor a
coroutine is running. -/
def interruptSafe (s : State) (e : Event) : Bool :=
  match e, s.running with
  | .interrupt, ⟨.co _, _⟩ :: _ => false
  | .interrupt, frame :: _ => frame.pc.quiet
  | _, _ => true

end State

/-! ## The invariant -/

/-- Under a frame of a handler there is a context that waits outside any switch. -/
def Waiting : List Frame → Prop
  | [] => False
  | frame :: rest => frame.pc.quiet ∧
    match frame.owner with
    | .prog => rest = []
    | .irq => Waiting rest
    | .co _ => False

/-- What lies under a frame of the main program or of a handler. -/
def OnMain (owner : Owner) (rest : List Frame) : Prop :=
  match owner with
  | .prog => rest = []
  | .irq => Waiting rest
  | .co _ => False

theorem waiting_cons {owner : Owner} {pc : Pc} {rest : List Frame} :
    Waiting (⟨owner, pc⟩ :: rest) ↔ pc.quiet ∧ OnMain owner rest := by
  cases owner <;> rfl

namespace State

/-- The saves are told apart by their numbers, and what a coroutine that is not
entered has saved has not been resumed. -/
structure Saves (s : State) : Prop where
  bound : ∀ i save, s.regs i = some save → save.serial < s.serial
  mainBound : ∀ save, s.mainRegs = some save → save.serial < s.serial
  resumedBound : ∀ k ∈ s.resumed, k < s.serial
  distinct : ∀ i j a b, s.regs i = some a → s.regs j = some b → a.serial = b.serial → i = j
  mainDistinct : ∀ i a b, s.regs i = some a → s.mainRegs = some b → a.serial ≠ b.serial
  fresh : ∀ i save, s.regs i = some save → s.entered i = false → save.serial ∉ s.resumed
  stack : ∀ i save, s.regs i = some save → save.stack = [⟨.co i, .body⟩]

/-- The save in `main_regs` is the one to return to: a context of the main program or
of a handler that has not been resumed. -/
def ReturnTo (s : State) (save : Save) : Prop :=
  s.mainRegs = some save ∧ save.serial ∉ s.resumed ∧ Waiting save.stack

/-- What is being executed. -/
inductive Control (s : State) : Prop where
  /-- The main program or a handler, with no coroutine entered. -/
  | main (owner : Owner) (pc : Pc) (rest : List Frame) (hrun : s.running = ⟨owner, pc⟩ :: rest)
      (howner : OnMain owner rest) (hcur : s.current = Frame.expectedCurrent ⟨owner, pc⟩)
      (hent : ∀ i, s.entered i = false)
      (hpc : pc.quiet ∨ ∃ i, pc = .testPc i ∨ pc = .saveMain i ∨
        pc = .restoreCo i ∧ ∃ save, s.ReturnTo save)
  /-- A coroutine, entered unless it has saved itself. -/
  | co (id : Nat) (pc : Pc) (save : Save) (hrun : s.running = [⟨.co id, pc⟩])
      (hcur : s.current = Frame.expectedCurrent ⟨.co id, pc⟩) (hret : s.ReturnTo save)
      (hby : s.enteredBy id = some save.serial)
      (hent : ∀ i, i ≠ id → s.entered i = false)
      (hpc : pc = .body ∨ pc = .testCurrent ∨ pc = .clearCurrent id ∨ pc = .saveCo id ∨
        pc = .restoreMain ∧ s.entered id = false)

structure Invariant (s : State) : Prop where
  saves : s.Saves
  control : s.Control

variable {s : State}

/-! ## Saves -/

namespace Saves

/-- A step that neither saves nor resumes. -/
theorem keep (h : s.Saves) {s' : State} (hregs : s'.regs = s.regs)
    (hmain : s'.mainRegs = s.mainRegs) (hserial : s'.serial = s.serial)
    (hresumed : s'.resumed = s.resumed) (hent : s'.entered = s.entered) : s'.Saves := by
  obtain ⟨h1, h2, h3, h4, h5, h6, h7⟩ := h
  constructor <;> simpa only [hregs, hmain, hserial, hresumed, hent]

/-- A coroutine's context is stored, by itself or as its initial one. -/
theorem store (h : s.Saves) (i : Nat) {entered : Nat → Bool} {running : List Frame}
    (hent : ∀ j, j ≠ i → entered j = s.entered j) :
    Saves { s with
      regs := Function.update s.regs i (some ⟨[⟨.co i, .body⟩], s.serial⟩)
      serial := s.serial + 1, entered, running } := by
  have cases_update : ∀ {j save}, Function.update s.regs i (some ⟨[⟨.co i, .body⟩], s.serial⟩) j =
      some save → j = i ∧ save = ⟨[⟨.co i, .body⟩], s.serial⟩ ∨ j ≠ i ∧ s.regs j = some save := by
    intro j save hj
    by_cases hji : j = i
    · subst hji
      exact .inl ⟨rfl, by simpa using hj.symm⟩
    · exact .inr ⟨hji, by simpa [hji] using hj⟩
  constructor
  case bound =>
    intro j save hj
    rcases cases_update hj with ⟨-, rfl⟩ | ⟨-, hj⟩
    · exact Nat.lt_succ_self _
    · exact Nat.lt_succ_of_lt (h.bound j save hj)
  case mainBound => exact fun save hm => Nat.lt_succ_of_lt (h.mainBound save hm)
  case resumedBound => exact fun k hk => Nat.lt_succ_of_lt (h.resumedBound k hk)
  case distinct =>
    intro j k a b ha hb hab
    rcases cases_update ha with ⟨rfl, rfl⟩ | ⟨hj, ha'⟩ <;>
      rcases cases_update hb with ⟨hk, rfl⟩ | ⟨hk, hb'⟩
    · exact hk.symm
    · exact absurd hab.symm (Nat.ne_of_lt (h.bound k b hb'))
    · exact absurd hab (Nat.ne_of_lt (h.bound j a ha'))
    · exact h.distinct j k a b ha' hb' hab
  case mainDistinct =>
    intro j a b ha hb
    rcases cases_update ha with ⟨-, rfl⟩ | ⟨-, ha⟩
    · exact (Nat.ne_of_lt (h.mainBound b hb)).symm
    · exact h.mainDistinct j a b ha hb
  case fresh =>
    intro j save hj he
    rcases cases_update hj with ⟨-, rfl⟩ | ⟨hji, hj⟩
    · exact fun hmem => Nat.lt_irrefl _ (h.resumedBound _ hmem)
    · exact h.fresh j save hj ((hent j hji).symm.trans he)
  case stack =>
    intro j save hj
    rcases cases_update hj with ⟨rfl, rfl⟩ | ⟨-, hj⟩
    · rfl
    · exact h.stack j save hj

/-- `ampi_co_next` stores its own context. -/
theorem storeMain (h : s.Saves) (stack running : List Frame) :
    Saves { s with mainRegs := some ⟨stack, s.serial⟩, serial := s.serial + 1, running } where
  bound i save hi := Nat.lt_succ_of_lt (h.bound i save hi)
  mainBound := by
    rintro save ⟨⟩
    exact Nat.lt_succ_self _
  resumedBound k hk := Nat.lt_succ_of_lt (h.resumedBound k hk)
  distinct := h.distinct
  mainDistinct := by
    rintro i a b ha ⟨⟩
    exact Nat.ne_of_lt (h.bound i a ha)
  fresh := h.fresh
  stack := h.stack

/-- `ampi_co_next` resumes coroutine `i`. -/
theorem enter (h : s.Saves) {i : Nat} {save : Save} (hi : s.regs i = some save)
    {enteredBy : Nat → Option Nat} {running : List Frame} :
    Saves { s with
      entered := Function.update s.entered i true, enteredBy, running
      resumed := save.serial :: s.resumed } where
  bound := h.bound
  mainBound := h.mainBound
  resumedBound := by
    intro k hk
    rcases List.mem_cons.1 hk with rfl | hk
    · exact h.bound i save hi
    · exact h.resumedBound k hk
  distinct := h.distinct
  mainDistinct := h.mainDistinct
  fresh := by
    intro j a ha he
    have hji : j ≠ i := by
      rintro rfl
      simp at he
    rw [List.mem_cons, not_or]
    exact ⟨fun heq => hji (h.distinct j i a save ha hi heq),
      h.fresh j a ha (by simpa [hji] using he)⟩
  stack := h.stack

/-- A coroutine's yield resumes the context in `main_regs`. -/
theorem leave (h : s.Saves) {save : Save} (hm : s.mainRegs = some save) {running : List Frame} :
    Saves { s with running, resumed := save.serial :: s.resumed } where
  bound := h.bound
  mainBound := h.mainBound
  resumedBound := by
    intro k hk
    rcases List.mem_cons.1 hk with rfl | hk
    · exact h.mainBound save hm
    · exact h.resumedBound k hk
  distinct := h.distinct
  mainDistinct := h.mainDistinct
  fresh := by
    intro j a ha he
    rw [List.mem_cons, not_or]
    exact ⟨h.mainDistinct j a save ha hm, h.fresh j a ha he⟩
  stack := h.stack

end Saves

/-! ## One step -/

theorem expectedCurrent_quiet {owner : Owner} {pc : Pc} {rest : List Frame}
    (howner : OnMain owner rest) (hpc : pc.quiet) : Frame.expectedCurrent ⟨owner, pc⟩ = 0 := by
  cases owner with
  | co id => cases howner
  | prog | irq => cases pc <;> first | rfl | cases hpc

/-- From `current = id + 1` to its jump, `ampi_co_next` has `current` name the coroutine. -/
theorem expectedCurrent_switch {owner : Owner} {pc : Pc} {rest : List Frame} {i : Nat}
    (howner : OnMain owner rest) (hpc : pc = .testPc i ∨ pc = .saveMain i ∨ pc = .restoreCo i) :
    Frame.expectedCurrent ⟨owner, pc⟩ = i + 1 := by
  cases owner with
  | co id => cases howner
  | prog | irq => rcases hpc with rfl | rfl | rfl <;> rfl

/-- A waiting context is the main program's or a handler's. -/
theorem Control.of_waiting {stack : List Frame} (h : Waiting stack) (hrun : s.running = stack)
    (hcur : s.current = 0) (hent : ∀ i, s.entered i = false) : Control s := by
  cases stack with
  | nil => cases h
  | cons frame rest =>
    obtain ⟨hpc, howner⟩ := waiting_cons.1 h
    exact .main frame.owner frame.pc rest hrun howner
      (hcur.trans (expectedCurrent_quiet howner hpc).symm) hent (.inl hpc)

/-- The main program or a handler executes its next statement. -/
theorem main_exec {owner : Owner} {pc : Pc} {rest : List Frame} (hs : s.Saves)
    (hrun : s.running = ⟨owner, pc⟩ :: rest) (howner : OnMain owner rest)
    (hcur : s.current = Frame.expectedCurrent ⟨owner, pc⟩) (hent : ∀ i, s.entered i = false)
    (hpc : pc.quiet ∨ ∃ i, pc = .testPc i ∨ pc = .saveMain i ∨
      pc = .restoreCo i ∧ ∃ save, s.ReturnTo save) :
    s.sound .exec ∧ Invariant (s.exec ⟨owner, pc⟩ rest) := by
  have hzero : pc.quiet → s.current = 0 := fun h => hcur.trans (expectedCurrent_quiet howner h)
  have goto : ∀ {pc' : Pc}, pc.quiet → pc'.quiet → Invariant (s.goto ⟨owner, pc⟩ rest pc') :=
    fun h h' => ⟨hs.keep rfl rfl rfl rfl rfl, .main owner _ rest rfl howner
      ((hzero h).trans (expectedCurrent_quiet howner h').symm) hent (.inl h')⟩
  have switched : ∀ {i : Nat} {pc' : Pc}, pc = .testPc i ∨ pc = .saveMain i ∨ pc = .restoreCo i →
      pc' = .testPc i ∨ pc' = .saveMain i ∨ pc' = .restoreCo i →
      s.current = Frame.expectedCurrent ⟨owner, pc'⟩ := fun h h' =>
    hcur.trans ((expectedCurrent_switch howner h).trans (expectedCurrent_switch howner h').symm)
  cases pc with
  | body => exact ⟨by simp [sound, hrun], hs, .main owner _ rest hrun howner hcur hent hpc⟩
  | testCurrent =>
    have hexec : s.exec ⟨owner, .testCurrent⟩ rest =
        s.goto ⟨owner, .testCurrent⟩ rest (.testUsed 0) := by
      simp [exec, hzero rfl]
    rw [hexec]
    exact ⟨by simp [sound, hrun], goto rfl rfl⟩
  | testUsed i =>
    by_cases hi : i < maxCo
    · have hexec : s.exec ⟨owner, .testUsed i⟩ rest = s.goto ⟨owner, .testUsed i⟩ rest
          (if s.used i then .setCurrent i else .testUsed (i + 1)) := by
        simp [exec, hi]
      rw [hexec]
      refine ⟨?_, goto rfl (by split <;> rfl)⟩
      cases owner <;> cases rest <;> simp [sound, hrun, Nat.not_le.2 hi]
    · have hexec : s.exec ⟨owner, .testUsed i⟩ rest = s.loopDone ⟨owner, .testUsed i⟩ rest := by
        simp [exec, hi]
      rw [hexec]
      cases owner with
      | co id => cases howner
      | prog => exact ⟨by simp [sound, hrun], goto rfl rfl⟩
      | irq =>
        cases rest with
        | nil => cases howner
        | cons below rest =>
          obtain ⟨hbelow, hunder⟩ := waiting_cons.1 howner
          have hsame : s.current = below.expectedCurrent :=
            (hzero rfl).trans (expectedCurrent_quiet hunder hbelow).symm
          exact ⟨by simp [sound, hrun, hsame], hs.keep rfl rfl rfl rfl rfl,
            .of_waiting howner rfl (hzero rfl) hent⟩
  | setCurrent i =>
    exact ⟨by simp [sound, hrun], hs.keep rfl rfl rfl rfl rfl, .main owner _ rest rfl howner
      (expectedCurrent_switch howner (.inl rfl)).symm hent (.inr ⟨i, .inl rfl⟩)⟩
  | testPc i =>
    have hcur' := switched (.inl rfl) (.inr (.inl rfl))
    refine ⟨by simp [sound, hrun], ?_⟩
    cases hregs : s.regs i with
    | some save =>
      have hexec : s.exec ⟨owner, .testPc i⟩ rest =
          s.goto ⟨owner, .testPc i⟩ rest (.saveMain i) := by
        simp [exec, hregs]
      rw [hexec]
      exact ⟨hs.keep rfl rfl rfl rfl rfl,
        .main owner _ rest rfl howner hcur' hent (.inr ⟨i, .inr (.inl rfl)⟩)⟩
    | none =>
      have hexec : s.exec ⟨owner, .testPc i⟩ rest = { s with
          regs := Function.update s.regs i (some ⟨[⟨.co i, .body⟩], s.serial⟩)
          serial := s.serial + 1 }.goto ⟨owner, .testPc i⟩ rest (.saveMain i) := by
        simp [exec, hregs]
      rw [hexec]
      exact ⟨hs.store i fun _ _ => rfl,
        .main owner _ rest rfl howner hcur' hent (.inr ⟨i, .inr (.inl rfl)⟩)⟩
  | saveMain i =>
    refine ⟨by simp [sound, hrun], hs.storeMain .., ?_⟩
    have hfresh : s.serial ∉ s.resumed := fun h => Nat.lt_irrefl _ (hs.resumedBound _ h)
    exact .main owner _ rest rfl howner (switched (.inr (.inl rfl)) (.inr (.inr rfl))) hent
      (.inr ⟨i, .inr (.inr ⟨rfl, _, rfl, hfresh, waiting_cons.2 ⟨rfl, howner⟩⟩)⟩)
  | restoreCo i =>
    obtain ⟨save, hmain, hfresh, hwait⟩ : ∃ save, s.ReturnTo save := by
      simpa [Pc.quiet] using hpc
    cases hregs : s.regs i with
    | none =>
      have hexec : s.exec ⟨owner, .restoreCo i⟩ rest = s := by simp [exec, hregs]
      rw [hexec]
      exact ⟨by simp [sound, hrun, hregs], hs, .main owner _ rest hrun howner hcur hent hpc⟩
    | some co =>
      have hexec : s.exec ⟨owner, .restoreCo i⟩ rest = { s with
          entered := Function.update s.entered i true
          enteredBy := Function.update s.enteredBy i (s.mainRegs.map Save.serial) }.restore co := by
        simp [exec, hregs]
      rw [hexec]
      refine ⟨by simp [sound, hrun, hregs, hent i, hs.fresh i co hregs (hent i)],
        hs.enter hregs, ?_⟩
      have hne : save.serial ∉ co.serial :: s.resumed := by
        rw [List.mem_cons, not_or]
        exact ⟨(hs.mainDistinct i co save hregs hmain).symm, hfresh⟩
      exact .co i .body save (hs.stack i co hregs)
        (hcur.trans (expectedCurrent_switch howner (.inr (.inr rfl)))) ⟨hmain, hne, hwait⟩
        (by simp [restore, hmain]) (fun j hj => (Function.update_of_ne hj ..).trans (hent j))
        (.inl rfl)
  | clearCurrent | saveCo | restoreMain => simp [Pc.quiet] at hpc

/-- A coroutine executes its next statement. -/
theorem co_exec {id : Nat} {pc : Pc} {save : Save} (hs : s.Saves)
    (hrun : s.running = [⟨.co id, pc⟩])
    (hcur : s.current = Frame.expectedCurrent ⟨.co id, pc⟩) (hret : s.ReturnTo save)
    (hby : s.enteredBy id = some save.serial) (hent : ∀ i, i ≠ id → s.entered i = false)
    (hpc : pc = .body ∨ pc = .testCurrent ∨ pc = .clearCurrent id ∨ pc = .saveCo id ∨
      pc = .restoreMain ∧ s.entered id = false) :
    s.sound .exec ∧ Invariant (s.exec ⟨.co id, pc⟩ []) := by
  rcases hpc with rfl | rfl | rfl | rfl | ⟨rfl, hid⟩
  · exact ⟨by simp [sound, hrun], hs, .co id _ save hrun hcur hret hby hent (.inl rfl)⟩
  · have hcur : s.current = id + 1 := hcur
    have hexec : s.exec ⟨.co id, .testCurrent⟩ [] =
        s.goto ⟨.co id, .testCurrent⟩ [] (.clearCurrent id) := by
      simp [exec, hcur]
    rw [hexec]
    exact ⟨by simp [sound, hrun], hs.keep rfl rfl rfl rfl rfl,
      .co id _ save rfl hcur hret hby hent (.inr (.inr (.inl rfl)))⟩
  · exact ⟨by simp [sound, hrun], hs.keep rfl rfl rfl rfl rfl,
      .co id _ save rfl rfl hret hby hent (.inr (.inr (.inr (.inl rfl))))⟩
  · have hother : ∀ j, j ≠ id → Function.update s.entered id false j = s.entered j :=
      fun j hj => Function.update_of_ne hj ..
    refine ⟨by simp [sound, hrun], hs.store id hother, ?_⟩
    exact .co id _ save rfl hcur hret hby (fun i hi => (hother i hi).trans (hent i hi))
      (.inr (.inr (.inr (.inr ⟨rfl, Function.update_self ..⟩))))
  · obtain ⟨hmain, hfresh, hwait⟩ := hret
    have hexec : s.exec ⟨.co id, .restoreMain⟩ [] = s.restore save := by simp [exec, hmain]
    have hall : ∀ i, s.entered i = false := by
      intro i
      by_cases hi : i = id
      · exact hi ▸ hid
      · exact hent i hi
    rw [hexec]
    exact ⟨by simp [sound, hrun, hmain, hby, hfresh], hs.leave hmain,
      .of_waiting hwait rfl hcur hall⟩

theorem create_invariant (h : Invariant s) : Invariant s.create := by
  unfold create
  split
  · exact h
  · refine ⟨h.saves.keep rfl rfl rfl rfl rfl, ?_⟩
    cases h.control with
    | main owner pc rest hrun howner hcur hent hpc =>
      exact .main owner pc rest hrun howner hcur hent hpc
    | co id pc save hrun hcur hret hby hent hpc =>
      exact .co id pc save hrun hcur hret hby hent hpc

/-- Outside a switch an interrupt finds a context that waits. -/
theorem interrupt_invariant (h : Invariant s) (hok : s.interruptSafe .interrupt) :
    Invariant { s with running := ⟨.irq, .testUsed 0⟩ :: s.running } := by
  refine ⟨h.saves.keep rfl rfl rfl rfl rfl, ?_⟩
  cases h.control with
  | main owner pc rest hrun howner hcur hent hpc =>
    have hquiet : pc.quiet = true := by
      cases owner with
      | co id => cases howner
      | prog | irq => simpa [interruptSafe, hrun] using hok
    have hwait : Waiting s.running := by
      rw [hrun]
      exact waiting_cons.2 ⟨hquiet, howner⟩
    exact .main .irq _ s.running rfl hwait (hcur.trans (expectedCurrent_quiet howner hquiet)) hent
      (.inl rfl)
  | co id pc save hrun => simp [interruptSafe, hrun] at hok

theorem step_invariant (h : Invariant s) {e : Event} (hok : s.interruptSafe e) :
    s.sound e ∧ Invariant (s.step e) := by
  cases e with
  | exec =>
    cases h.control with
    | main owner pc rest hrun howner hcur hent hpc =>
      have hstep : s.step .exec = s.exec ⟨owner, pc⟩ rest := by simp [step, hrun]
      rw [hstep]
      exact main_exec h.saves hrun howner hcur hent hpc
    | co id pc save hrun hcur hret hby hent hpc =>
      have hstep : s.step .exec = s.exec ⟨.co id, pc⟩ [] := by simp [step, hrun]
      rw [hstep]
      exact co_exec h.saves hrun hcur hret hby hent hpc
  | yield =>
    refine ⟨by unfold sound; split <;> rfl, ?_⟩
    cases h.control with
    | main owner pc rest hrun howner hcur hent hpc =>
      by_cases hbody : owner = .prog ∧ pc = .body
      · obtain ⟨rfl, rfl⟩ := hbody
        have hstep : s.step .yield = s.goto ⟨.prog, .body⟩ rest .testCurrent := by simp [step, hrun]
        rw [hstep]
        exact ⟨h.saves.keep rfl rfl rfl rfl rfl, .main .prog _ rest rfl howner hcur hent (.inl rfl)⟩
      · have hstep : s.step .yield = s := by
          cases owner <;> cases pc <;> simp_all [step, OnMain]
        rw [hstep]
        exact h
    | co id pc save hrun hcur hret hby hent hpc =>
      by_cases hbody : pc = .body
      · subst hbody
        have hstep : s.step .yield = s.goto ⟨.co id, .body⟩ [] .testCurrent := by simp [step, hrun]
        rw [hstep]
        exact ⟨h.saves.keep rfl rfl rfl rfl rfl,
          .co id _ save rfl hcur hret hby hent (.inr (.inl rfl))⟩
      · have hstep : s.step .yield = s := by cases pc <;> simp_all [step]
        rw [hstep]
        exact h
  | poke =>
    refine ⟨by unfold sound; split <;> rfl, ?_⟩
    cases h.control with
    | main owner pc rest hrun howner hcur hent hpc =>
      by_cases hbody : owner = .prog ∧ pc = .body
      · obtain ⟨rfl, rfl⟩ := hbody
        have hstep : s.step .poke = s.goto ⟨.prog, .body⟩ rest (.testUsed 0) := by simp [step, hrun]
        rw [hstep]
        exact ⟨h.saves.keep rfl rfl rfl rfl rfl, .main .prog _ rest rfl howner hcur hent (.inl rfl)⟩
      · have hstep : s.step .poke = s := by
          cases owner <;> cases pc <;> simp_all [step]
        rw [hstep]
        exact h
    | co id pc save hrun => simpa [step, hrun] using h
  | create =>
    refine ⟨by unfold sound; split <;> rfl, ?_⟩
    have hstep : s.step .create = s.create ∨ s.step .create = s := by
      cases hrun : s.running with
      | nil => simp [step, hrun]
      | cons frame rest =>
        obtain ⟨owner, pc⟩ := frame
        cases owner <;> cases pc <;> simp [step, hrun]
    rcases hstep with hstep | hstep <;> rw [hstep]
    · exact create_invariant h
    · exact h
  | interrupt =>
    refine ⟨by unfold sound; split <;> rfl, ?_⟩
    have hstep : s.step .interrupt = { s with running := ⟨.irq, .testUsed 0⟩ :: s.running } := by
      cases h.control with
      | main owner pc rest hrun => simp [step, hrun]
      | co id pc save hrun => simp [step, hrun]
    rw [hstep]
    exact interrupt_invariant h hok

theorem invariant_init : Invariant {} where
  saves := ⟨nofun, nofun, nofun, nofun, nofun, nofun, nofun⟩
  control := .main .prog .body [] rfl rfl rfl (fun _ => rfl) (.inl rfl)

/-- Contexts are switched soundly in every run whose interrupts are all taken outside
a switch. -/
theorem switches_soundly {es : List Event} (hok : Machine.Along step (interruptSafe · ·) {} es) :
    Machine.Along step (sound · ·) {} es :=
  hok.strengthen (fun _ _ h he => step_invariant h he) invariant_init

/-- The main program polls the coroutines and an interrupt polls them again in between. -/
theorem switches_soundly_between :
    Machine.Along step (sound · ·) {}
      ([.create, .poke] ++ List.replicate 5 .exec ++ [.yield] ++ List.replicate 4 .exec ++
        [.interrupt] ++ List.replicate 5 .exec ++ [.yield] ++ List.replicate 20 .exec) :=
  switches_soundly (by decide +kernel)

/-- The interrupt is taken while the coroutine is running: its handler resumes the
coroutine from the context that it has already been resumed from. -/
theorem not_switchesSoundly : ¬ SwitchesSoundly := by
  intro h
  have := h ([.create, .poke] ++ List.replicate 5 .exec ++ [.interrupt] ++ List.replicate 5 .exec)
  revert this
  decide +kernel

end State
end Coroutine
