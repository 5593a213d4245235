-- SUMMARY: The list of the timers when a tick may interrupt any code without the timer lock.
import Ampi.Linux.Timer

/-!
# The list of the timers

`del_timer` and `periodic_handler` take a timer off the list under the lock and set its links
after they have given it back. A tick may come in between, whose timer functions use the same
list; it may also come while a timer function runs. What a tick has interrupted goes on when its
handler returns, so the contexts are on a stack.
-/

namespace Timer

/-- Where a context has given the lock back and is not done. -/
inductive Frame (ι : Type*) where
  /-- In `del_timer`, before `INIT_LIST_HEAD`. -/
  | delReset (t : ι)
  /-- In `periodic_handler`, before `INIT_LIST_HEAD`. -/
  | fireReset (t : ι) (now : UInt32)
  /-- In the call of the timer's function. -/
  | function (t : ι) (now : UInt32)
  deriving DecidableEq

/-- `INIT_LIST_HEAD` of this timer is still to come. -/
def Frame.resets {ι : Type*} [DecidableEq ι] (t : ι) : Frame ι → Bool
  | .delReset u | .fireReset u _ => u = t
  | .function _ _ => false

/-- The function of this timer is still to be called. -/
def Frame.fires {ι : Type*} [DecidableEq ι] (t : ι) : Frame ι → Bool
  | .fireReset u _ => u = t
  | _ => false

/-- The timers with the stack of contexts, the innermost first; without any frame there is the
code that runs outside of all ticks. The other fields are not in the source: the timers that are
off the list with their old links, the calls of `add_timer`, the runs of the function, and the
calls of `del_timer` that have returned 1. -/
structure Nest (ι : Type*) extends State ι where
  stack : List (Frame ι) := []
  cut : ι → Bool := fun _ => false
  added : ι → Nat := fun _ => 0
  ran : ι → Nat := fun _ => 0
  deleted : ι → Nat := fun _ => 0

inductive Nest.Event (ι : Type*) where
  | init (t : ι)
  /-- `expires` is set, and the timer is added. -/
  | add (t : ι) (expires : UInt32)
  | del (t : ι)
  /-- An interrupt calls `periodic_handler`. -/
  | tick
  /-- The innermost context goes on. -/
  | resume

variable {ι : Type*} [DecidableEq ι]

namespace Nest

def boot (links : Links (Node ι)) (expires : ι → UInt32) : Nest ι :=
  { toState := State.boot links expires }

/-- The code that runs may call the functions below. -/
def calling (s : Nest ι) : Bool :=
  match s.stack with
  | [] | .function _ _ :: _ => true
  | _ => false

/-- `init_timer`. -/
def initTimer (s : Nest ι) (t : ι) : Nest ι :=
  { s with toState := s.toState.initTimer t, cut := Function.update s.cut t false }

/-- `add_timer`, with its expiry. -/
def addTimer [Fintype ι] (s : Nest ι) (t : ι) (expires : UInt32) : Nest ι :=
  { s with
    toState :=
      State.addTimer { s.toState with expires := Function.update s.expires t expires } t
    cut := Function.update s.cut t false
    added := Function.update s.added t (s.added t + 1) }

/-- `list_del` of a timer, and what is still to be done to it. -/
def unlink (s : Nest ι) (t : ι) (frame : Frame ι) : Nest ι :=
  { s with
    links := s.links.del (some t)
    pending := Function.update s.pending t false
    cut := Function.update s.cut t true
    stack := frame :: s.stack }

/-- `del_timer` while it holds the lock, with what it is going to return. -/
def delTimer (s : Nest ι) (t : ι) : Nest ι × Bool :=
  if s.links.next (some t) ≠ some t then
    (({ s with deleted := Function.update s.deleted t (s.deleted t + 1) }).unlink t (.delReset t),
      true)
  else ({ s with pending := Function.update s.pending t false }, false)

/-- A turn of the loop in `periodic_handler` while it holds the lock. -/
def loop (s : Nest ι) (now : UInt32) : Nest ι :=
  match s.links.next none with
  | none => s
  | some t => if long (s.expires t - now) ≤ 0 then s.unlink t (.fireReset t now) else s

def tick (s : Nest ι) : Nest ι := loop { s with jiffies := s.jiffies + 1 } (s.jiffies + 1)

/-- `INIT_LIST_HEAD` of a timer's entry. -/
def reset (s : Nest ι) (t : ι) : Nest ι :=
  { s with links := s.links.init (some t), cut := Function.update s.cut t false }

def resume (s : Nest ι) : Nest ι :=
  match s.stack with
  | [] => s
  | .delReset t :: stack => { s.reset t with stack }
  | .fireReset t now :: stack =>
    { s.reset t with
      stack := .function t now :: stack
      ran := Function.update s.ran t (s.ran t + 1) }
  | .function _ now :: stack => loop { s with stack } now

def call [Fintype ι] (s : Nest ι) : Event ι → Nest ι
  | .init t => s.initTimer t
  | .add t expires => s.addTimer t expires
  | .del t => (s.delTimer t).1
  | _ => s

def step [Fintype ι] (s : Nest ι) (e : Event ι) : Nest ι :=
  if s.hung then s
  else
    match e with
    | .tick => s.tick
    | .resume => s.resume
    | e => if s.calling then s.call e else s

abbrev run [Fintype ι] (s : Nest ι) (es : List (Event ι)) : Nest ι := Machine.run step s es

/-! ## Integrity -/

/-- A timer's function has been run, or is just going to be, once for each `add_timer`, except
for those that `del_timer` has returned 1 for and the one that is pending. -/
def Counted (s : Nest ι) : Prop :=
  ∀ t, s.added t = s.ran t + s.stack.countP (Frame.fires t) + s.deleted t +
    if s.pending t then 1 else 0

/-- The list is a ring of the pending timers, and their functions are run as often as they
should. -/
structure Intact (s : Nest ι) : Prop where
  ring : ∃ xs : List ι, s.links.Ring none (xs.map some) ∧ ∀ t, s.pending t ↔ t ∈ xs
  counted : s.Counted

/-- A call of `del_timer` in this step returns 1 exactly if the timer is pending. -/
def Truthful (s : Nest ι) (e : Event ι) : Prop :=
  ∀ t, e = .del t → s.calling → (s.delTimer t).2 = s.pending t

/-- Timers are initialised before they are deleted, and neither initialised nor added while they
are pending. -/
def proper (s : Nest ι) (e : Event ι) : Bool :=
  !s.calling ||
    match e with
    | .init t | .add t _ => !s.pending t
    | .del t => s.initialized t
    | _ => true

/-- No timer is added while its `INIT_LIST_HEAD` is still to come in `del_timer` or
`periodic_handler`, nor deleted before the next `INIT_LIST_HEAD` of it. -/
def undisturbed (s : Nest ι) (e : Event ι) : Bool :=
  !s.calling ||
    match e with
    | .add t _ => s.stack.all fun frame => !frame.resets t
    | .del t => !s.cut t
    | _ => true

def AlwaysIntact (ι : Type*) [DecidableEq ι] [Fintype ι] : Prop :=
  ∀ (links : Links (Node ι)) (expires : ι → UInt32) (es : List (Event ι)),
    Machine.Along step (proper · ·) (boot links expires) es →
      ((boot links expires).run es).Intact ∧ Machine.Along step Truthful (boot links expires) es

/-! ## The invariant -/

/-- The timers on the list are `xs`; the others are linked to themselves once they have been
initialised, unless their links are still to be set. -/
structure Linked (s : Nest ι) (xs : List ι) : Prop where
  ring : s.links.Ring none (xs.map some)
  pending : ∀ t, s.pending t ↔ t ∈ xs
  alone : ∀ t, s.initialized t → s.cut t = false → t ∉ xs → s.links.next (some t) = some t
  off : ∀ t, ∀ frame ∈ s.stack, frame.resets t → t ∉ xs
  running : s.hung = false

variable {s : Nest ι} {xs zs : List ι} {t : ι}

namespace Linked

/-- A timer that is not on the list is linked to itself. -/
theorem reset (h : s.Linked xs) (ht : t ∉ xs) : (s.reset t).Linked xs := by
  have hring := h.ring.init (State.Lists.notMem_ring ht)
  refine ⟨hring, h.pending, fun u hu hcut huxs => ?_, h.off, h.running⟩
  by_cases hut : u = t
  · rw [hut]
    exact Links.next_init_self ..
  · have hcut' : s.cut u = false := by simpa [Nest.reset, hut] using hcut
    have hut' : some u ≠ some t := fun heq => hut (Option.some.inj heq)
    exact (Links.next_init_of_ne hut' _).trans (h.alone u hu hcut' huxs)

theorem init (h : s.Linked xs) (ht : t ∉ xs) : (s.initTimer t).Linked xs := by
  refine ⟨(h.reset ht).ring, h.pending, fun u hu hcut huxs => ?_, h.off, h.running⟩
  by_cases hut : u = t
  · rw [hut]
    exact Links.next_init_self ..
  · have hinit : s.initialized u := by simpa [initTimer, State.initTimer, hut] using hu
    exact (h.reset ht).alone u hinit hcut huxs

/-- A timer is taken off the list, and its links stay as they are. -/
theorem unlink (ys : List ι) (h : s.Linked (ys ++ t :: zs)) {frame : Frame ι}
    (hframe : ∀ u, frame.resets u → u = t) : (s.unlink t frame).Linked (ys ++ zs) := by
  have hnodup : (ys ++ t :: zs).Nodup := (List.nodup_cons.1 h.ring.nodup).2.of_map _
  rw [List.nodup_middle, List.nodup_cons] at hnodup
  have hring := h.ring
  rw [List.map_append, List.map_cons] at hring
  have hdel := hring.del.1
  rw [← List.map_append] at hdel
  have hmem {u : ι} (hu : u ∈ ys ++ zs) : u ∈ ys ++ t :: zs := by
    simp at hu ⊢
    tauto
  refine ⟨hdel, fun u => ?_, fun u hu hcut huxs => ?_, fun u f hf hres => ?_, h.running⟩
  · by_cases hut : u = t
    · simp [Nest.unlink, hut] at hnodup ⊢
      tauto
    · have hold := h.pending u
      simp [Nest.unlink, hut] at hold ⊢
      exact hold
  · have hut : u ≠ t := by
      rintro rfl
      simp [Nest.unlink] at hcut
    have hcut' : s.cut u = false := by simpa [Nest.unlink, hut] using hcut
    have hoff := State.Lists.notMem_ring huxs
    rw [List.map_append] at hoff
    exact (hring.next_del hoff).trans (h.alone u hu hcut' (by simp at huxs ⊢; tauto))
  · rcases List.mem_cons.1 hf with rfl | hf
    · rw [hframe u hres]
      exact hnodup.1
    · exact fun hu => h.off u f hf hres (hmem hu)

/-- A context that is done leaves the list alone. -/
theorem pop (h : s.Linked xs) {stack : List (Frame ι)} (hstack : stack ⊆ s.stack) :
    { s with stack }.Linked xs :=
  ⟨h.ring, h.pending, h.alone, fun u f hf => h.off u f (hstack hf), h.running⟩

/-- The walk of `add_timer` ends, at a place of the list. -/
theorem exists_findPos [Fintype ι] (h : s.Linked xs) (ht : t ∉ xs) (expires : UInt32) :
    ∃ (pos : Node ι) (ys : List ι),
      State.findPos { s.toState with expires := Function.update s.expires t expires } expires =
        some pos ∧
      (s.links.add (some t) pos).Ring none (ys.map some) ∧ (∀ u, u ∈ ys ↔ u = t ∨ u ∈ xs) ∧
      pos ∈ none :: xs.map some := by
  have ht' : some t ∉ none :: xs.map some := State.Lists.notMem_ring ht
  have hwalk := State.Lists.findPos_eq
    (s := { s.toState with expires := Function.update s.expires t expires }) h.ring expires
  rw [hwalk]
  generalize hfind : xs.find? _ = found
  cases found with
  | none => exact ⟨none, t :: xs, rfl, h.ring.add_head ht', by simp, List.mem_cons_self⟩
  | some u =>
    obtain ⟨before, after, rfl⟩ := List.append_of_mem (List.mem_of_find?_eq_some hfind)
    refine ⟨some u, before ++ u :: t :: after, rfl, ?_, fun v => ?_, by simp⟩
    · have hring := h.ring
      rw [List.map_append, List.map_cons] at hring ht'
      rw [List.map_append, List.map_cons, List.map_cons]
      exact hring.add_after ht'
    · simp
      tauto

theorem add [Fintype ι] (h : s.Linked xs) (ht : t ∉ xs) (expires : UInt32)
    (hoff : ∀ frame ∈ s.stack, frame.resets t = false) :
    (s.addTimer t expires).pending = Function.update s.pending t true ∧
      ∃ ys, (s.addTimer t expires).Linked ys := by
  obtain ⟨pos, ys, hfind, hring, hys, hpos⟩ := h.exists_findPos ht expires
  have hadd : (s.addTimer t expires).toState =
      { s.toState with
        expires := Function.update s.expires t expires
        links := s.links.add (some t) pos
        initialized := Function.update s.initialized t true
        pending := Function.update s.pending t true } := by
    simp only [Nest.addTimer, State.addTimer, Function.update_self, hfind]
  refine ⟨by rw [hadd], ys, ?_, fun u => ?_, fun u hu hcut huys => ?_, fun u f hf hres => ?_, ?_⟩
  · rw [hadd]
    exact hring
  · rw [hadd, hys]
    by_cases hut : u = t
    · simp [hut]
    · simpa [hut] using h.pending u
  · rw [hadd] at hu ⊢
    rw [hys, not_or] at huys
    have hinit : s.initialized u := by simpa [huys.1] using hu
    have hcut' : s.cut u = false := by simpa [Nest.addTimer, huys.1] using hcut
    have hut : some u ≠ some t := fun heq => huys.1 (Option.some.inj heq)
    exact (Links.Ring.next_add hpos (State.Lists.notMem_ring huys.2) hut).trans
      (h.alone u hinit hcut' huys.2)
  · rw [hys, not_or]
    refine ⟨?_, h.off u f hf hres⟩
    rintro rfl
    rw [hoff f hf] at hres
    cases hres
  · rw [hadd]
    exact h.running

/-- `del_timer` looks at the links of the timer, and these tell whether it is on the list. -/
theorem del (h : s.Linked xs) (hinit : s.initialized t) (hcut : s.cut t = false) :
    (s.delTimer t).2 = s.pending t ∧ ∃ ys, (s.delTimer t).1.Linked ys := by
  by_cases hmem : t ∈ xs
  · obtain ⟨ys, zs, rfl⟩ := List.append_of_mem hmem
    have hlinked : s.links.next (some t) ≠ some t := by
      have hring := h.ring
      rw [List.map_append, List.map_cons] at hring
      exact hring.next_ne_self
    rw [delTimer, if_pos hlinked]
    refine ⟨((h.pending t).2 hmem).symm, ys ++ zs, ?_⟩
    have hdeleted : { s with deleted := Function.update s.deleted t (s.deleted t + 1) }.Linked
        (ys ++ t :: zs) := ⟨h.ring, h.pending, h.alone, h.off, h.running⟩
    exact hdeleted.unlink ys (by simp [Frame.resets])
  · have hpending : s.pending t = false := Bool.eq_false_iff.2 (mt (h.pending t).1 hmem)
    have hupdate : Function.update s.pending t false = s.pending :=
      Function.update_eq_self_iff.2 hpending.symm
    rw [delTimer, if_neg (not_not.2 (h.alone t hinit hcut hmem)), hupdate]
    exact ⟨hpending.symm, xs, h⟩

theorem head (h : s.Linked xs) (hnext : s.links.next none = some t) : ∃ zs, xs = t :: zs := by
  have hhead := h.ring.next_head
  rw [hnext] at hhead
  cases xs with
  | nil => cases hhead
  | cons u zs =>
    obtain rfl := Option.some.inj hhead
    exact ⟨zs, rfl⟩

/-- A turn of the handler's loop. -/
theorem loop (h : s.Linked xs) (now : UInt32) : ∃ ys, (s.loop now).Linked ys := by
  unfold Nest.loop
  split
  · exact ⟨xs, h⟩
  · split
    case h_2.isFalse => exact ⟨xs, h⟩
    case h_2.isTrue t hnext _ =>
      obtain ⟨zs, rfl⟩ := h.head hnext
      exact ⟨zs, h.unlink [] (by simp [Frame.resets])⟩

end Linked

/-! ## The counts -/

theorem counted_add [Fintype ι] (h : s.Counted) (ht : s.pending t = false) (expires : UInt32)
    (hadd : (s.addTimer t expires).pending = Function.update s.pending t true) :
    (s.addTimer t expires).Counted := by
  intro u
  have hu := h u
  rw [hadd]
  by_cases hut : u = t
  · rw [hut, ht] at hu
    simpa [addTimer, hut] using hu
  · simpa [addTimer, hut] using hu

theorem counted_del (h : s.Counted) (hdel : (s.delTimer t).2 = s.pending t) :
    (s.delTimer t).1.Counted := by
  intro u
  have hu := h u
  unfold delTimer at hdel ⊢
  split at hdel
  case isTrue hlinked =>
    rw [if_pos hlinked]
    by_cases hut : u = t
    · rw [hut, ← hdel] at hu
      simpa [unlink, hut, Frame.fires, add_assoc] using hu
    · simpa [unlink, hut, Frame.fires] using hu
  case isFalse hlinked =>
    rw [if_neg hlinked]
    by_cases hut : u = t
    · rw [hut, ← hdel] at hu
      simpa [hut] using hu
    · simpa [hut] using hu

theorem counted_fire (h : s.Counted) (ht : s.pending t) (now : UInt32) :
    (s.unlink t (.fireReset t now)).Counted := by
  intro u
  have hu := h u
  by_cases hut : u = t
  · rw [hut, if_pos ht] at hu
    simp [unlink, hut, Frame.fires]
    omega
  · simpa [unlink, hut, Frame.fires, Ne.symm hut] using hu

theorem Linked.counted_loop (h : s.Linked xs) (hcount : s.Counted) (now : UInt32) :
    (s.loop now).Counted := by
  unfold Nest.loop
  split
  · exact hcount
  · split
    case h_2.isFalse => exact hcount
    case h_2.isTrue t hnext _ =>
      obtain ⟨zs, rfl⟩ := h.head hnext
      exact counted_fire hcount ((h.pending t).2 List.mem_cons_self) now

/-! ## The steps -/

/-- What holds in every state. -/
def Sound (s : Nest ι) : Prop := (∃ xs, s.Linked xs) ∧ s.Counted

theorem Sound.intact (h : s.Sound) : s.Intact := by
  obtain ⟨⟨xs, hlinked⟩, hcount⟩ := h
  exact ⟨⟨xs, hlinked.ring, hlinked.pending⟩, hcount⟩

theorem Sound.loop (h : s.Sound) (now : UInt32) : (s.loop now).Sound := by
  obtain ⟨⟨xs, hlinked⟩, hcount⟩ := h
  exact ⟨hlinked.loop now, hlinked.counted_loop hcount now⟩

theorem Sound.tick (h : s.Sound) : s.tick.Sound := by
  obtain ⟨⟨xs, hlinked⟩, hcount⟩ := h
  have hjiffies : { s with jiffies := s.jiffies + 1 }.Sound :=
    ⟨⟨xs, hlinked.ring, hlinked.pending, hlinked.alone, hlinked.off, hlinked.running⟩, hcount⟩
  exact hjiffies.loop _

/-- The innermost context goes on; its timer is not on the list. -/
theorem Sound.resume (h : s.Sound) : s.resume.Sound := by
  obtain ⟨⟨xs, hlinked⟩, hcount⟩ := h
  unfold Nest.resume
  split
  case h_1 => exact ⟨⟨xs, hlinked⟩, hcount⟩
  case h_2 t stack hstack =>
    have ht : t ∉ xs := hlinked.off t _ (hstack ▸ List.mem_cons_self) (by simp [Frame.resets])
    refine ⟨⟨xs, (hlinked.reset ht).pop ?_⟩, fun u => ?_⟩
    · exact hstack ▸ List.subset_cons_self ..
    · simpa [reset, hstack, Frame.fires] using hcount u
  case h_3 t now stack hstack =>
    have ht : t ∉ xs := hlinked.off t _ (hstack ▸ List.mem_cons_self) (by simp [Frame.resets])
    have hreset := hlinked.reset ht
    refine ⟨⟨xs, hreset.ring, hreset.pending, hreset.alone, fun u f hf hres => ?_,
      hreset.running⟩, fun u => ?_⟩
    · rcases List.mem_cons.1 hf with rfl | hf
      · cases hres
      · exact hreset.off u f (hstack ▸ List.mem_cons_of_mem _ hf) hres
    · have hu := hcount u
      by_cases hut : u = t
      · simp [reset, hstack, hut, Frame.fires] at hu ⊢
        omega
      · simpa [reset, hstack, hut, Ne.symm hut, Frame.fires] using hu
  case h_4 t now stack hstack =>
    refine Sound.loop ⟨⟨xs, hlinked.pop ?_⟩, fun u => ?_⟩ now
    · exact hstack ▸ List.subset_cons_self ..
    · simpa [hstack, Frame.fires] using hcount u

theorem Sound.call [Fintype ι] (h : s.Sound) {e : Event ι} (hcalling : s.calling)
    (hproper : s.proper e) (hfree : s.undisturbed e) : (s.call e).Sound ∧ s.Truthful e := by
  obtain ⟨⟨xs, hlinked⟩, hcount⟩ := h
  cases e with
  | init t =>
    have ht : ¬ s.pending t := by simpa [proper, hcalling] using hproper
    exact ⟨⟨⟨xs, hlinked.init (mt (hlinked.pending t).2 ht)⟩, hcount⟩, nofun⟩
  | add t expires =>
    have ht : s.pending t = false := by simpa [proper, hcalling] using hproper
    have hoff : ∀ frame ∈ s.stack, frame.resets t = false := by
      simpa [undisturbed, hcalling] using hfree
    have hxs : t ∉ xs := by simpa [ht] using (hlinked.pending t).not
    obtain ⟨hadd, hlinked'⟩ := hlinked.add hxs expires hoff
    exact ⟨⟨hlinked', counted_add hcount ht expires hadd⟩, nofun⟩
  | del t =>
    have hinit : s.initialized t := by simpa [proper, hcalling] using hproper
    have hcut : s.cut t = false := by simpa [undisturbed, hcalling] using hfree
    obtain ⟨hdel, hlinked'⟩ := hlinked.del hinit hcut
    refine ⟨⟨hlinked', counted_del hcount hdel⟩, fun u hu _ => ?_⟩
    obtain rfl := Event.del.inj hu
    exact hdel
  | tick | resume => exact ⟨⟨⟨xs, hlinked⟩, hcount⟩, nofun⟩

theorem Sound.step [Fintype ι] (h : s.Sound) {e : Event ι} (hproper : s.proper e)
    (hfree : s.undisturbed e) : (s.step e).Sound ∧ s.Truthful e := by
  obtain ⟨xs, hlinked⟩ := h.1
  unfold Nest.step
  rw [hlinked.running]
  by_cases hcalling : s.calling
  · cases e with
    | tick => exact ⟨h.tick, nofun⟩
    | resume => exact ⟨h.resume, nofun⟩
    | _ => simpa [hcalling] using h.call hcalling hproper hfree
  · have htruthful : s.Truthful e := fun _ _ hcall => absurd hcall hcalling
    cases e with
    | tick => exact ⟨h.tick, htruthful⟩
    | resume => exact ⟨h.resume, htruthful⟩
    | _ => simpa [hcalling] using And.intro h htruthful

theorem boot_sound (links : Links (Node ι)) (expires : ι → UInt32) :
    (boot links expires).Sound := by
  have hlists := State.lists_boot links expires
  refine ⟨⟨[], hlists.ring, hlists.pending, nofun, nofun, rfl⟩, fun t => rfl⟩

/-- In every run in which no timer is added or deleted while its links are still to be set, the
list is a ring of the pending timers, each function runs as often as it should, and
`del_timer` tells whether the timer was pending. -/
theorem intact_run [Fintype ι] (links : Links (Node ι)) (expires : ι → UInt32)
    {es : List (Event ι)} (hproper : Machine.Along step (proper · ·) (boot links expires) es)
    (hfree : Machine.Along step (undisturbed · ·) (boot links expires) es) :
    ((boot links expires).run es).Intact ∧
      Machine.Along step Truthful (boot links expires) es := by
  have hboth := Machine.along_and.2 ⟨hproper, hfree⟩
  have hboot := boot_sound links expires
  constructor
  · exact (hboth.invariant (fun s e h hok => (h.step hok.1 hok.2).1) hboot).intact
  · exact hboth.strengthen (fun s e h hok => (h.step hok.1 hok.2).symm) hboot

/-- A timer is added by the function of the other one, and deletes itself. -/
theorem intact_run_two :
    ((boot (State.selfLinks Bool) fun _ => 0).run
        [.init false, .init true, .add false 1, .tick, .resume, .add true 1, .resume, .resume,
          .del false, .del true, .resume]).Intact ∧
      Machine.Along step Truthful (boot (State.selfLinks Bool) fun _ => 0)
        [.init false, .init true, .add false 1, .tick, .resume, .add true 1, .resume, .resume,
          .del false, .del true, .resume] :=
  intact_run _ _ (by decide +kernel) (by decide +kernel)

/-- The tick comes in `del_timer` before `INIT_LIST_HEAD`, and its timer function adds the timer
again. -/
theorem not_alwaysIntact : ¬ AlwaysIntact Bool := by
  intro h
  obtain ⟨⟨⟨xs, hring, hpending⟩, -⟩, -⟩ := h (State.selfLinks _) (fun _ => 0)
    [.init false, .init true, .add true 5, .add false 1, .del true, .tick, .resume, .add true 5,
      .resume, .resume] (by decide +kernel)
  obtain ⟨ys, zs, rfl⟩ := List.append_of_mem ((hpending true).1 (by decide +kernel))
  rw [List.map_append, List.map_cons] at hring
  exact hring.next_ne_self (by decide +kernel)

end Nest

end Timer
