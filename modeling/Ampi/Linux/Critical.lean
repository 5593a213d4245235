-- SUMMARY: Nested critical sections of linux/synchronize.c, with interrupts between any two instructions.
import Ampi.Machine
import Mathlib.Tactic.Common

/-!
# Critical sections

`linuxemu_EnterCritical` and `linuxemu_LeaveCritical`, which are `spin_lock` and
`spin_unlock` on one core. Reading the flag, disabling interrupts, counting and saving are
steps of their own. An interrupt is taken whenever interrupts are enabled; its handler runs
with interrupts disabled, enters and leaves critical sections like any other code, may set
the flag outside of them, and gets back the flag of the code that it has interrupted.
-/

namespace Critical

/-- The next step of a frame. The flag says that interrupts are enabled. -/
inductive Pc where
  /-- Outside of the functions. -/
  | body
  -- `linuxemu_EnterCritical`
  | readFlags
  | disable (flags : Bool)
  | loadLevel (flags : Bool)
  | storeLevel (flags : Bool) (level : BitVec 32)
  | saveFlags (flags : Bool)
  -- `linuxemu_LeaveCritical`
  | loadLeave
  | storeLeave (level : BitVec 32)
  | testFlags
  | enable
  deriving DecidableEq, Repr

/-- The main program or an interrupt handler. -/
structure Frame where
  pc : Pc := .body
  /-- The flag that the return from the handler restores. -/
  saved : Bool := true
  -- not in the source
  /-- The critical sections that the frame is in. -/
  depth : Nat := 0
  /-- The flag when the frame began to enter the outermost of them. -/
  before : Bool := true
  deriving DecidableEq, Repr

/-- The frame has disabled interrupts and not come to the end of the outermost
`linuxemu_LeaveCritical`. -/
def Frame.inside (f : Frame) : Bool :=
  match f.pc with
  | .loadLevel _ | .storeLevel .. | .saveFlags _ => true
  | _ => f.depth ≠ 0

inductive Event where
  /-- The next step of the frame being executed. -/
  | exec
  /-- A call of `linuxemu_EnterCritical`. -/
  | enter
  /-- A call of `linuxemu_LeaveCritical`. -/
  | leave
  /-- Code outside of critical sections sets the flag. -/
  | setFlag (flag : Bool)
  | interrupt
  /-- The return from an interrupt handler. -/
  | handlerReturn
  deriving DecidableEq, Repr

structure State where
  enabled : Bool
  sNCriticalLevel : BitVec 32 := 0
  sBWereEnabled : Bool := false
  /-- The frame being executed. -/
  top : Frame := {}
  /-- The frames that have been interrupted. -/
  below : List Frame := []
  deriving DecidableEq, Repr

namespace State

def goto (s : State) (pc : Pc) : State := { s with top := { s.top with pc } }

/-- `linuxemu_EnterCritical` returns. -/
def entered (s : State) : State :=
  { s with top := { s.top with pc := .body, depth := s.top.depth + 1 } }

/-- `linuxemu_LeaveCritical` returns. -/
def left (s : State) : State :=
  { s with top := { s.top with pc := .body, depth := s.top.depth - 1 } }

def exec (s : State) : State :=
  match s.top.pc with
  | .body => s
  | .readFlags => s.goto (.disable s.enabled)
  | .disable flags => { s with enabled := false }.goto (.loadLevel flags)
  | .loadLevel flags => s.goto (.storeLevel flags s.sNCriticalLevel)
  | .storeLevel flags level =>
    let s := { s with sNCriticalLevel := level + 1 }
    if level = 0 then s.goto (.saveFlags flags) else s.entered
  | .saveFlags flags => { s with sBWereEnabled := flags }.entered
  | .loadLeave => s.goto (.storeLeave s.sNCriticalLevel)
  | .storeLeave level =>
    let s := { s with sNCriticalLevel := level - 1 }
    if level - 1 = 0 then s.goto .testFlags else s.left
  | .testFlags => if s.sBWereEnabled then s.goto .enable else s.left
  | .enable => { s with enabled := true }.left

/-- The outermost call notes the flag. -/
def enter (s : State) : State :=
  if s.top.pc = .body then
    { s with
      top := { s.top with
        pc := .readFlags
        before := if s.top.depth = 0 then s.enabled else s.top.before } }
  else s

/-- Critical sections are left as often as they are entered. -/
def leave (s : State) : State :=
  if s.top.pc = .body ∧ s.top.depth ≠ 0 then s.goto .loadLeave else s

def setFlag (s : State) (flag : Bool) : State :=
  if s.top.pc = .body ∧ s.top.depth = 0 then { s with enabled := flag } else s

def interrupt (s : State) : State :=
  if s.enabled then
    { s with enabled := false, top := { saved := s.enabled }, below := s.top :: s.below }
  else s

/-- A handler has left its critical sections. -/
def handlerReturn (s : State) : State :=
  match s.below with
  | [] => s
  | f :: below =>
    if s.top.pc = .body ∧ s.top.depth = 0 then
      { s with enabled := s.top.saved, top := f, below }
    else s

def step (s : State) : Event → State
  | .exec => s.exec
  | .enter => s.enter
  | .leave => s.leave
  | .setFlag flag => s.setFlag flag
  | .interrupt => s.interrupt
  | .handlerReturn => s.handlerReturn

/-! ## What is claimed -/

/-- Interrupts are disabled in a critical section, and none has interrupted one. -/
def Masked (s : State) : Prop :=
  (s.top.inside → s.enabled = false) ∧ ∀ f ∈ s.below, f.inside = false

/-- A step that ends the outermost critical section leaves the flag as it was before. -/
def restores (s : State) (e : Event) : Bool :=
  if e = .exec ∧ s.top.depth = 1 ∧ s.exec.top.depth = 0 then s.exec.enabled = s.top.before
  else true

/-- Critical sections are nested no deeper than the counter can count, 0 standing for
`2 ^ 32`. -/
def nestFits (s : State) (e : Event) : Bool := e ≠ .enter || s.top.depth < 4294967296

end State

/-! ## The invariant -/

/-- The frame is in `depth` critical sections, and the outermost one has saved `before`. -/
structure Frame.Nested (f : Frame) (enabled : Bool) (level : BitVec 32) (were : Bool) : Prop where
  counted : level = .ofNat 32 f.depth
  masked : f.depth ≠ 0 → enabled = false
  kept : f.depth ≠ 0 → were = f.before

/-- What a frame finds in the variables at each step. -/
def Frame.Ok (f : Frame) (enabled : Bool) (level : BitVec 32) (were : Bool) : Prop :=
  match f.pc with
  | .body => f.Nested enabled level were ∧ f.depth ≤ 4294967296
  | .readFlags => f.Nested enabled level were ∧ f.depth < 4294967296 ∧
      (f.depth = 0 → enabled = f.before)
  | .disable flags => f.Nested enabled level were ∧ f.depth < 4294967296 ∧
      (f.depth = 0 → flags = f.before)
  | .loadLevel flags => f.Nested enabled level were ∧ f.depth < 4294967296 ∧
      (f.depth = 0 → flags = f.before) ∧ enabled = false
  | .storeLevel flags v => f.Nested enabled level were ∧ f.depth < 4294967296 ∧
      (f.depth = 0 → flags = f.before) ∧ enabled = false ∧ v = level
  | .saveFlags flags => f.depth = 0 ∧ flags = f.before ∧ enabled = false ∧ level = 1
  | .loadLeave => f.Nested enabled level were ∧ f.depth ≤ 4294967296 ∧ f.depth ≠ 0
  | .storeLeave v => f.Nested enabled level were ∧ f.depth ≤ 4294967296 ∧ f.depth ≠ 0 ∧ v = level
  | .testFlags => f.depth = 1 ∧ were = f.before ∧ enabled = false ∧ level = 0
  | .enable => f.depth = 1 ∧ f.before = true ∧ enabled = false ∧ level = 0

namespace Frame

variable {f : Frame} {enabled : Bool} {level : BitVec 32} {were : Bool}

theorem Nested.level_eq_zero (h : f.Nested enabled level were) (hdepth : f.depth = 0) :
    level = 0 := by
  rw [h.counted, hdepth]
  rfl

/-- The counter tells the outermost section from the others. -/
theorem Nested.level_eq_zero_iff (h : f.Nested enabled level were) (hlt : f.depth < 4294967296) :
    level = 0 ↔ f.depth = 0 := by
  rw [h.counted, ← BitVec.toNat_inj, BitVec.toNat_ofNat]
  simp only [BitVec.reduceToNat]
  omega

theorem nested_of_depth_eq_zero (h : f.depth = 0) : f.Nested enabled 0 were where
  counted := by rw [h]; rfl
  masked hne := absurd h hne
  kept hne := absurd h hne

theorem Ok.masked (h : f.Ok enabled level were) (hin : f.inside) : enabled = false := by
  unfold Ok at h
  unfold inside at hin
  split at h
  case h_1 | h_2 | h_3 | h_7 | h_8 => exact h.1.masked (by simp_all)
  case h_4 => exact h.2.2.2
  case h_5 => exact h.2.2.2.1
  case h_6 | h_9 | h_10 => exact h.2.2.1

/-- The variables of a frame that can be interrupted. -/
theorem Ok.outside (h : f.Ok enabled level were) (hout : f.inside = false) :
    level = 0 ∧ ∀ were', f.Ok enabled 0 were' := by
  cases hpc : f.pc with simp only [Ok, inside, hpc, decide_eq_false_iff_not, not_not] at h hout ⊢
  | body | readFlags | disable flags =>
    exact ⟨h.1.level_eq_zero hout, fun _ => ⟨nested_of_depth_eq_zero hout, h.2⟩⟩
  | loadLevel flags | storeLevel flags v | saveFlags flags => cases hout
  | loadLeave => exact absurd hout h.2.2
  | storeLeave v => exact absurd hout h.2.2.1
  | testFlags | enable => omega

end Frame

namespace State

/-- The frame being executed finds the variables in order. -/
def TopOk (s : State) : Prop := s.top.Ok s.enabled s.sNCriticalLevel s.sBWereEnabled

structure Inv (s : State) : Prop where
  top : s.TopOk
  saved : s.top.saved
  below : ∀ f ∈ s.below, f.inside = false ∧ f.saved ∧ ∀ were, f.Ok true 0 were

/-- A step leaves the frames below as they are. -/
theorem exec_below (s : State) : s.exec.below = s.below ∧ s.exec.top.saved = s.top.saved := by
  unfold exec
  split <;> (try split) <;> exact ⟨rfl, rfl⟩

theorem TopOk.exec {s : State} (h : s.TopOk) : s.exec.TopOk := by
  have hok := h
  unfold TopOk Frame.Ok at h
  cases hpc : s.top.pc with simp only [State.exec, hpc] at h ⊢
  | body => exact hok
  | readFlags =>
    obtain ⟨hn, hlt, hflags⟩ := h
    exact ⟨⟨hn.counted, hn.masked, hn.kept⟩, hlt, hflags⟩
  | disable flags =>
    obtain ⟨hn, hlt, hflags⟩ := h
    exact ⟨⟨hn.counted, fun _ => rfl, hn.kept⟩, hlt, hflags, rfl⟩
  | loadLevel flags =>
    obtain ⟨hn, hlt, hflags, hoff⟩ := h
    exact ⟨⟨hn.counted, hn.masked, hn.kept⟩, hlt, hflags, hoff, rfl⟩
  | storeLevel flags v =>
    obtain ⟨hn, hlt, hflags, hoff, rfl⟩ := h
    split
    next hzero =>
      -- The outermost section; the flag is still to be saved.
      have hdepth := (hn.level_eq_zero_iff hlt).1 hzero
      refine ⟨hdepth, hflags hdepth, hoff, ?_⟩
      change s.sNCriticalLevel + 1 = 1
      rw [hzero]
      rfl
    next hzero =>
      have hdepth : s.top.depth ≠ 0 := fun hd => hzero (hn.level_eq_zero hd)
      refine ⟨⟨?_, fun _ => hoff, fun _ => hn.kept hdepth⟩, hlt⟩
      change s.sNCriticalLevel + 1 = .ofNat 32 (s.top.depth + 1)
      rw [hn.counted, BitVec.ofNat_add]
      rfl
  | saveFlags flags =>
    obtain ⟨hdepth, hflags, hoff, hlevel⟩ := h
    refine ⟨⟨?_, fun _ => hoff, fun _ => hflags⟩, ?_⟩
    · change s.sNCriticalLevel = .ofNat 32 (s.top.depth + 1)
      rw [hlevel, hdepth]
      rfl
    · change s.top.depth + 1 ≤ 4294967296
      omega
  | loadLeave =>
    obtain ⟨hn, hle, hdepth⟩ := h
    exact ⟨⟨hn.counted, hn.masked, hn.kept⟩, hle, hdepth, rfl⟩
  | storeLeave v =>
    obtain ⟨hn, hle, hdepth, rfl⟩ := h
    have hsub : s.sNCriticalLevel - 1 = .ofNat 32 (s.top.depth - 1) := by
      rw [hn.counted]
      apply BitVec.eq_of_toNat_eq
      rw [BitVec.toNat_sub, BitVec.toNat_ofNat, BitVec.toNat_ofNat]
      simp only [BitVec.reduceToNat]
      omega
    rw [hsub]
    have hzero : BitVec.ofNat 32 (s.top.depth - 1) = 0 ↔ s.top.depth = 1 := by
      rw [← BitVec.toNat_inj, BitVec.toNat_ofNat]
      simp only [BitVec.reduceToNat]
      omega
    split
    next hlast =>
      have hone := hzero.1 hlast
      exact ⟨hone, hn.kept hdepth, hn.masked hdepth, hlast⟩
    next hmore =>
      refine ⟨⟨rfl, fun _ => hn.masked hdepth, fun _ => hn.kept hdepth⟩, ?_⟩
      change s.top.depth - 1 ≤ 4294967296
      omega
  | testFlags =>
    obtain ⟨hdepth, hkept, hoff, hlevel⟩ := h
    split
    next hwere => exact ⟨hdepth, hkept.symm.trans hwere, hoff, hlevel⟩
    next =>
      have hleft : s.left.top.depth = 0 := by simp [left, hdepth]
      have hnested : s.left.top.Nested s.enabled 0 s.sBWereEnabled :=
        Frame.nested_of_depth_eq_zero hleft
      rw [← hlevel] at hnested
      exact ⟨hnested, Nat.le_trans (Nat.le_of_eq hleft) (Nat.zero_le _)⟩
  | enable =>
    obtain ⟨hdepth, hkept, hoff, hlevel⟩ := h
    have hleft : s.left.top.depth = 0 := by simp [left, hdepth]
    have hnested : s.left.top.Nested true 0 s.sBWereEnabled := Frame.nested_of_depth_eq_zero hleft
    rw [← hlevel] at hnested
    exact ⟨hnested, Nat.le_trans (Nat.le_of_eq hleft) (Nat.zero_le _)⟩

theorem Inv.exec {s : State} (h : s.Inv) : s.exec.Inv where
  top := h.top.exec
  saved := by rw [(exec_below s).2]; exact h.saved
  below := by rw [(exec_below s).1]; exact h.below

theorem TopOk.enter {s : State} (h : s.TopOk) (hfits : s.nestFits .enter) : s.enter.TopOk := by
  unfold State.enter
  split
  next hpc =>
    have hlt : s.top.depth < 4294967296 := by simpa [nestFits] using hfits
    unfold TopOk Frame.Ok at h
    rw [hpc] at h
    obtain ⟨hn, -⟩ := h
    refine ⟨⟨hn.counted, hn.masked, fun hd => ?_⟩, hlt, fun hd => ?_⟩
    · exact (hn.kept hd).trans (if_neg hd).symm
    · exact (if_pos hd).symm
  next => exact h

theorem TopOk.leave {s : State} (h : s.TopOk) : s.leave.TopOk := by
  unfold State.leave
  split
  next hpc =>
    unfold TopOk Frame.Ok at h
    rw [hpc.1] at h
    obtain ⟨hn, hle⟩ := h
    exact ⟨⟨hn.counted, hn.masked, hn.kept⟩, hle, hpc.2⟩
  next => exact h

theorem TopOk.setFlag {s : State} (h : s.TopOk) (flag : Bool) : (s.setFlag flag).TopOk := by
  unfold State.setFlag
  split
  next hpc =>
    unfold TopOk Frame.Ok at h ⊢
    rw [hpc.1] at h ⊢
    obtain ⟨hn, hle⟩ := h
    exact ⟨⟨hn.counted, fun hd => absurd hpc.2 hd, hn.kept⟩, hle⟩
  next => exact h

/-- Only a frame outside of critical sections is interrupted. -/
theorem Inv.interrupt {s : State} (h : s.Inv) : s.interrupt.Inv := by
  unfold State.interrupt
  split
  next hon =>
    have hout : s.top.inside = false := by
      by_contra hin
      have hoff := h.top.masked (by simpa using hin)
      rw [hon] at hoff
      cases hoff
    obtain ⟨hlevel, hok⟩ := Frame.Ok.outside h.top hout
    refine ⟨?_, hon, ?_⟩
    · exact ⟨⟨hlevel, fun hd => absurd rfl hd, fun hd => absurd rfl hd⟩, Nat.zero_le _⟩
    · intro f hf
      rcases List.mem_cons.1 hf with rfl | hf
      · exact ⟨hout, h.saved, by simpa only [hon] using hok⟩
      · exact h.below f hf
  next => exact h

theorem Inv.handlerReturn {s : State} (h : s.Inv) : s.handlerReturn.Inv := by
  unfold State.handlerReturn
  split
  next => exact h
  next f below hbelow =>
    split
    next hpc =>
      have hout : s.top.inside = false := by simp [Frame.inside, hpc.1, hpc.2]
      obtain ⟨hlevel, -⟩ := Frame.Ok.outside h.top hout
      obtain ⟨-, hsaved, hok⟩ := h.below f (by simp [hbelow])
      refine ⟨?_, hsaved, fun g hg => h.below g (by simp [hbelow, hg])⟩
      have hrestored := hok s.sBWereEnabled
      rw [← h.saved, ← hlevel] at hrestored
      exact hrestored
    next => exact h

theorem Inv.step {s : State} (h : s.Inv) {e : Event} (hfits : s.nestFits e) : (s.step e).Inv := by
  cases e with
  | exec => exact h.exec
  | enter =>
    refine ⟨h.top.enter hfits, ?_, ?_⟩ <;> simp only [State.step, State.enter] <;> split
    exacts [h.saved, h.saved, h.below, h.below]
  | leave =>
    refine ⟨h.top.leave, ?_, ?_⟩ <;> simp only [State.step, State.leave] <;> split
    exacts [h.saved, h.saved, h.below, h.below]
  | setFlag flag =>
    refine ⟨h.top.setFlag flag, ?_, ?_⟩ <;> simp only [State.step, State.setFlag] <;> split
    exacts [h.saved, h.saved, h.below, h.below]
  | interrupt => exact h.interrupt
  | handlerReturn => exact h.handlerReturn

theorem inv_init (enabled : Bool) : (⟨enabled, 0, false, {}, []⟩ : State).Inv where
  top := ⟨⟨rfl, fun hd => absurd rfl hd, fun hd => absurd rfl hd⟩, Nat.zero_le _⟩
  saved := rfl
  below := by simp

theorem Inv.masked {s : State} (h : s.Inv) : s.Masked :=
  ⟨h.top.masked, fun f hf => (h.below f hf).1⟩

/-- The last step of the outermost `linuxemu_LeaveCritical` is the test of the saved flag
or what follows it. -/
theorem Inv.restores {s : State} (h : s.Inv) (e : Event) : s.restores e := by
  unfold State.restores
  split
  next hlast =>
    obtain ⟨-, hone, hzero⟩ := hlast
    have htop := h.top
    unfold TopOk Frame.Ok at htop
    unfold State.exec at hzero ⊢
    cases hpc : s.top.pc with simp only [hpc] at htop hzero ⊢
    | testFlags =>
      obtain ⟨-, hkept, hoff, -⟩ := htop
      split at hzero
      · exact absurd hzero (by rw [goto, hone]; decide)
      next hwere =>
        rw [if_neg hwere, ← hkept]
        simpa [left, hoff] using hwere
    | enable => simp [left, htop.2.1]
    | storeLeave v =>
      -- One section is left, so the counter comes to 0 and the saved flag is looked at.
      obtain ⟨hn, -, -, rfl⟩ := htop
      have hlast : s.sNCriticalLevel - 1 = 0 := by rw [hn.counted, hone]; rfl
      rw [if_pos hlast] at hzero
      exact absurd hzero (by rw [goto, hone]; decide)
    | storeLevel flags v =>
      split at hzero <;> exact absurd hzero (by simp [goto, entered, hone])
    | saveFlags flags => exact absurd hzero (by simp [entered])
    | body | readFlags | disable flags | loadLevel flags | loadLeave =>
      exact absurd hzero (by simp [goto, hone])
  next => rfl

/-! ## Runs -/

/-- In every run that nests no deeper than the counter can count, whatever is interrupted,
no interrupt is taken in a critical section and the flag is restored at its end. -/
theorem run_masked_restores (enabled : Bool) (es : List Event)
    (hes : Machine.Along step (fun s e => s.nestFits e) ⟨enabled, 0, false, {}, []⟩ es) :
    (Machine.run step ⟨enabled, 0, false, {}, []⟩ es).Masked ∧
      Machine.Along step (fun s e => s.restores e) ⟨enabled, 0, false, {}, []⟩ es := by
  have hstep : ∀ (s : State) (e : Event), s.Inv → s.nestFits e → s.restores e ∧ (s.step e).Inv :=
    fun s e h hfits => ⟨h.restores e, h.step hfits⟩
  constructor
  · exact (Machine.Along.invariant (fun s e h hfits => (hstep s e h hfits).2) hes
      (inv_init enabled)).masked
  · exact Machine.Along.strengthen hstep hes (inv_init enabled)

/-- A section in another, while a first interrupt finds the flag read and not yet cleared. -/
theorem run_masked_restores_two :
    (Machine.run step ⟨true, 0, false, {}, []⟩
      [.enter, .exec, .interrupt, .enter, .exec, .handlerReturn, .exec, .exec, .exec, .exec,
        .enter]).Masked :=
  (run_masked_restores true _ (by decide)).1

/-! ## Nesting too deep -/

/-- In `depth` sections, entered with interrupts enabled. -/
def nested (depth : Nat) (were : Bool) : State :=
  ⟨false, .ofNat 32 depth, were, { depth }, []⟩

/-- Enough steps for a `linuxemu_EnterCritical`. -/
def enterSteps : List Event := [.enter, .exec, .exec, .exec, .exec, .exec]

/-- Enough steps for a `linuxemu_LeaveCritical`. -/
def leaveSteps : List Event := [.leave, .exec, .exec, .exec, .exec]

theorem run_enterSteps (depth : Nat) (were : Bool) :
    Machine.run step (nested (depth + 1) were) enterSteps =
      nested (depth + 2) (if BitVec.ofNat 32 (depth + 1) = 0 then false else were) := by
  have hsum : BitVec.ofNat 32 (depth + 1) + 1 = .ofNat 32 (depth + 2) := by
    rw [BitVec.ofNat_add, BitVec.ofNat_add]
    exact BitVec.add_assoc ..
  have hstore : Machine.run step (nested (depth + 1) were) [.enter, .exec, .exec, .exec] =
      (nested (depth + 1) were).goto (.storeLevel false (.ofNat 32 (depth + 1))) := rfl
  have hsplit : enterSteps = [.enter, .exec, .exec, .exec] ++ [.exec, .exec] := rfl
  rw [hsplit, Machine.run_append, hstore]
  by_cases h : BitVec.ofNat 32 (depth + 1) = 0#32
  · rw [h] at hsum
    simp [step, exec, goto, entered, h, nested, ← hsum]
  · simp [step, exec, goto, entered, h, nested, ← hsum]

theorem run_leaveSteps (depth : Nat) :
    Machine.run step (nested (depth + 1) false) leaveSteps = nested depth false := by
  have hsub : BitVec.ofNat 32 (depth + 1) - 1#32 = .ofNat 32 depth := by
    rw [BitVec.ofNat_add]
    exact BitVec.add_sub_cancel ..
  have hstore : Machine.run step (nested (depth + 1) false) [.leave, .exec] =
      (nested (depth + 1) false).goto (.storeLeave (.ofNat 32 (depth + 1))) := rfl
  have hsplit : leaveSteps = [.leave, .exec] ++ [.exec, .exec, .exec] := rfl
  rw [hsplit, Machine.run_append, hstore]
  by_cases h : BitVec.ofNat 32 depth = 0#32
  · simp [step, exec, goto, left, hsub, h, nested]
  · simp [step, exec, goto, left, hsub, h, nested]

/-- As long as the counter does not come to 0 again, the saved flag is kept. -/
theorem run_enterSteps_replicate (n : Nat) (h : n < 4294967296) :
    Machine.run step (nested 1 true) (List.replicate n enterSteps).flatten =
      nested (n + 1) true := by
  induction n with
  | zero => rfl
  | succ n ih =>
    have hne : BitVec.ofNat 32 (n + 1) ≠ 0 := by
      rw [ne_eq, ← BitVec.toNat_inj, BitVec.toNat_ofNat]
      simp only [BitVec.reduceToNat]
      omega
    rw [List.replicate_succ', List.flatten_append, Machine.run_append, ih (by omega),
      List.flatten_singleton, run_enterSteps, if_neg hne]

theorem run_leaveSteps_replicate (depth n : Nat) :
    Machine.run step (nested (depth + n) false) (List.replicate n leaveSteps).flatten =
      nested depth false := by
  induction n with
  | zero => rfl
  | succ n ih =>
    rw [List.replicate_succ, List.flatten_cons, Machine.run_append, ← Nat.add_assoc,
      run_leaveSteps, ih]

/-- `2 ^ 32 + 1` sections, one in another. -/
def tooDeep : List Event :=
  enterSteps ++ ((List.replicate 4294967295 enterSteps).flatten ++
    (enterSteps ++ (List.replicate 4294967296 leaveSteps).flatten))

theorem run_tooDeep : Machine.run step ⟨true, 0, false, {}, []⟩ tooDeep = nested 1 false := by
  have hfirst : Machine.run step ⟨true, 0, false, {}, []⟩ enterSteps = nested 1 true := by
    decide
  have hmore : Machine.run step (nested 1 true) (List.replicate 4294967295 enterSteps).flatten =
      nested 4294967296 true := run_enterSteps_replicate 4294967295 (by decide)
  have hlast : Machine.run step (nested 4294967296 true) enterSteps = nested 4294967297 false :=
    run_enterSteps 4294967295 true
  have hleave : Machine.run step (nested 4294967297 false)
      (List.replicate 4294967296 leaveSteps).flatten = nested 1 false :=
    run_leaveSteps_replicate 1 4294967296
  rw [tooDeep, Machine.run_append, hfirst, Machine.run_append, hmore, Machine.run_append, hlast,
    hleave]

/-- The flag that is saved last is the one in the outermost section. -/
theorem not_run_masked_restores :
    ¬ ∀ (enabled : Bool) (es : List Event),
      (Machine.run step ⟨enabled, 0, false, {}, []⟩ es).Masked ∧
        Machine.Along step (fun s e => s.restores e) ⟨enabled, 0, false, {}, []⟩ es := by
  intro h
  have hes := (h true (tooDeep ++ leaveSteps)).2
  rw [Machine.along_append, run_tooDeep] at hes
  exact absurd hes.2 (by decide)

end State
end Critical
