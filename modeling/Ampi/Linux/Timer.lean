-- SUMMARY: The emulated kernel timers: when every pending timer fires at the tick that reaches it.
import Ampi.LinkedList
import Ampi.Machine
import Mathlib

/-!
# Timers

The pending timers are on a list, and `periodic_handler` looks only at the head of it. A
timer function runs inside the handler and may initialise, add and delete timers.
-/

namespace Timer

/-- The nodes of the list are `timer_list` itself and the entries of the timers. -/
abbrev Node (ι : Type*) := Option ι

/-- Where `periodic_handler` stands; `now` is its local. -/
inductive Handler (ι : Type*) where
  | outside
  /-- At the beginning of a turn of the loop. -/
  | loop (now : UInt32)
  /-- In the call of the timer's function. -/
  | function (t : ι) (now : UInt32)
  deriving DecidableEq

structure State (ι : Type*) where
  links : Links (Node ι)
  expires : ι → UInt32
  jiffies : UInt32 := 0
  handler : Handler ι := .outside
  /-- A call of `add_timer` walks round the list for ever. -/
  hung : Bool := false
  /-- The timers that have been initialised or added. -/
  initialized : ι → Bool := fun _ => false
  /-- The timers that have been added, and since then neither deleted nor taken to be run. -/
  pending : ι → Bool := fun _ => false

inductive Event (ι : Type*) where
  | init (t : ι)
  /-- `expires` is set, and the timer is added. -/
  | add (t : ι) (expires : UInt32)
  | del (t : ι)
  /-- The environment calls `periodic_handler`. -/
  | tick
  /-- A turn of the handler's loop, up to the call of the timer's function. -/
  | turn
  /-- The timer's function returns. -/
  | ret

variable {ι : Type*} [DecidableEq ι]

/-- `(long) x`. -/
def long (x : UInt32) : Int := x.toBitVec.toInt

namespace State

/-- `linuxemu_init_timer`; the entries of the timers are linked to anything. -/
def boot (links : Links (Node ι)) (expires : ι → UInt32) : State ι where
  links := links.init none
  expires

/-- `init_timer`. -/
def initTimer (s : State ι) (t : ι) : State ι :=
  { s with
    links := s.links.init (some t)
    expires := Function.update s.expires t 0
    initialized := Function.update s.initialized t true }

/-- The test of the loop in `add_timer`. -/
def earlier (s : State ι) (expires : UInt32) : Node ι → Bool
  | none => false
  | some t => long (s.expires t - expires) < 0

/-- The loop in `add_timer` over `timer_list`. A walk that has not ended when every node
has had its turn never ends. -/
def findPos [Fintype ι] (s : State ι) (expires : UInt32) : Option (Node ι) :=
  s.links.walk none (s.earlier expires) (Fintype.card ι + 1) (s.links.next none)

/-- `add_timer`. -/
def addTimer [Fintype ι] (s : State ι) (t : ι) : State ι :=
  match s.findPos (s.expires t) with
  | some pos =>
    { s with
      links := s.links.add (some t) pos
      initialized := Function.update s.initialized t true
      pending := Function.update s.pending t true }
  | none => { s with hung := true }

/-- `del_timer`, with what it returns. -/
def delTimer (s : State ι) (t : ι) : State ι × Bool :=
  let pending := Function.update s.pending t false
  if s.links.next (some t) ≠ some t then
    ({ s with links := (s.links.del (some t)).init (some t), pending }, true)
  else ({ s with pending }, false)

/-- A turn of the loop in `periodic_handler`. -/
def loop (s : State ι) (now : UInt32) : State ι :=
  match s.links.next none with
  | none => { s with handler := .outside }
  | some t =>
    if long (s.expires t - now) ≤ 0 then
      { s with
        links := (s.links.del (some t)).init (some t)
        pending := Function.update s.pending t false
        handler := .function t now }
    else { s with handler := .outside }

/-- The calls that a client or a timer's function makes. -/
def call [Fintype ι] (s : State ι) : Event ι → State ι
  | .init t => s.initTimer t
  | .add t expires => { s with expires := Function.update s.expires t expires }.addTimer t
  | .del t => (s.delTimer t).1
  | _ => s

def act [Fintype ι] (s : State ι) (e : Event ι) : State ι :=
  match s.handler with
  | .outside =>
    match e with
    | .tick => { s with jiffies := s.jiffies + 1, handler := .loop (s.jiffies + 1) }
    | _ => s.call e
  | .loop now =>
    match e with
    | .turn => s.loop now
    | _ => s
  | .function _ now =>
    match e with
    | .ret => { s with handler := .loop now }
    | _ => s.call e

def step [Fintype ι] (s : State ι) (e : Event ι) : State ι := if s.hung then s else s.act e

/-! ## Firing on time -/

/-- How many ticks are left, in the order that wraps. -/
def due (s : State ι) (t : ι) : Int := long (s.expires t - s.jiffies)

/-- A timer's function is run only when its expiry is reached, and when the handler
returns it has left nothing behind whose expiry is reached. -/
structure OnTime [Fintype ι] (s : State ι) (e : Event ι) : Prop where
  fired : ∀ now t, s.handler = .loop now → (s.step e).handler = .function t now →
    s.pending t ∧ s.due t ≤ 0
  returned : ∀ now, s.handler = .loop now → (s.step e).handler = .outside →
    ∀ t, (s.step e).pending t → 0 < (s.step e).due t

/-- Timers are initialised before they are deleted, and neither initialised nor added
while they are pending. An expiry lies within half the range of `jiffies` and of the other
expiries. -/
def proper [Fintype ι] (s : State ι) : Event ι → Bool
  | .init t => !s.pending t
  | .add t expires =>
    let d := long (expires - s.jiffies)
    !s.pending t ∧ -2 ^ 31 < d ∧
      ∀ u, s.pending u → -2 ^ 31 < s.due u - d ∧ s.due u - d < 2 ^ 31
  | .del t => s.initialized t
  | _ => true

/-- No two pending timers expire before one that is added. -/
def oneEarlier [Fintype ι] (s : State ι) : Event ι → Bool
  | .add _ expires =>
    let d := long (expires - s.jiffies)
    ∀ u v, s.pending u → s.pending v → s.due u < d → s.due v < d → u = v
  | _ => true

def AlwaysOnTime (ι : Type*) [DecidableEq ι] [Fintype ι] : Prop :=
  ∀ (links : Links (Node ι)) (expires : ι → UInt32) (es : List (Event ι)),
    Machine.Along step (proper · ·) (boot links expires) es →
      Machine.Along step OnTime (boot links expires) es

end State

/-! ## The signed difference -/

theorem long_sub {a b : UInt32} (hlow : -2 ^ 31 ≤ long a - long b)
    (hhigh : long a - long b < 2 ^ 31) : long (a - b) = long a - long b := by
  have hsub : (a - b).toBitVec = a.toBitVec - b.toBitVec := rfl
  rw [long, hsub, BitVec.toInt_sub]
  exact Int.bmod_eq_of_le hlow hhigh

/-- The difference of two expiries is that of the ticks that are left. -/
theorem long_sub_of_near {a b j : UInt32} (hlow : -2 ^ 31 ≤ long (a - j) - long (b - j))
    (hhigh : long (a - j) - long (b - j) < 2 ^ 31) :
    long (a - b) = long (a - j) - long (b - j) := by
  rw [← long_sub hlow hhigh, sub_sub_sub_cancel_right]

theorem long_bounds (a : UInt32) : -2 ^ 31 ≤ long a ∧ long a < 2 ^ 31 :=
  ⟨BitVec.le_toInt _, BitVec.toInt_lt⟩

theorem long_tick {a j : UInt32} (h : -2 ^ 31 < long (a - j)) :
    long (a - (j + 1)) = long (a - j) - 1 := by
  have hone : long 1 = 1 := rfl
  have hhigh := (long_bounds (a - j)).2
  rw [← sub_sub, long_sub, hone] <;> omega

namespace State

variable {s : State ι} {t : ι} {xs ys zs : List ι}

/-! ## The list of the pending timers -/

/-- The local of the handler that runs is the current `jiffies`; between two runs no
expiry is so late that the next tick turns it into an early one. -/
def HandlerOk (s : State ι) (xs : List ι) : Handler ι → Prop
  | .outside => ∀ t ∈ xs, -2 ^ 31 < s.due t
  | .loop now => now = s.jiffies
  | .function _ now => now = s.jiffies

/-- The pending timers `xs` are on the list, the first to expire first, and the other
timers that have been initialised are on their own. -/
structure Lists (s : State ι) (xs : List ι) : Prop where
  ring : s.links.Ring none (xs.map some)
  pending : ∀ t, s.pending t ↔ t ∈ xs
  sorted : xs.Pairwise fun t u => s.due t ≤ s.due u
  alone : ∀ t, s.initialized t → t ∉ xs → s.links.next (some t) = some t
  handler : s.HandlerOk xs s.handler
  running : s.hung = false

namespace Lists

omit [DecidableEq ι] in
theorem nodup (h : s.Lists xs) : xs.Nodup := (List.nodup_cons.1 h.ring.nodup).2.of_map _

omit [DecidableEq ι] in
theorem notMem_ring (ht : t ∉ xs) : some t ∉ none :: xs.map some := by simpa using ht

/-- A deleted timer is on its own, and the other timers are linked as before. -/
theorem unlink (h : s.Lists (ys ++ t :: zs)) :
    ((s.links.del (some t)).init (some t)).Ring none ((ys ++ zs).map some) ∧
      ∀ u, s.initialized u → u ∉ ys ++ zs →
        ((s.links.del (some t)).init (some t)).next (some u) = some u := by
  have hnodup := h.nodup
  rw [List.nodup_middle, List.nodup_cons] at hnodup
  have hring := h.ring
  rw [List.map_append, List.map_cons] at hring
  have hdel := hring.del.1
  rw [← List.map_append] at hdel
  refine ⟨hdel.init (notMem_ring hnodup.1), fun u hu huxs => ?_⟩
  by_cases hut : u = t
  · rw [hut]
    exact Links.next_init_self ..
  · have hut' : some u ≠ some t := fun heq => hut (Option.some.inj heq)
    have hoff := notMem_ring huxs
    rw [List.map_append] at hoff
    rw [Links.next_init_of_ne hut', hring.next_del hoff]
    exact h.alone u hu (by simp at huxs ⊢; tauto)

/-- A timer is taken off the list. -/
theorem take (ys : List ι) (h : s.Lists (ys ++ t :: zs)) {handler : Handler ι}
    (hhandler : s.HandlerOk (ys ++ zs) handler) :
    { s with
      links := (s.links.del (some t)).init (some t)
      pending := Function.update s.pending t false
      handler }.Lists (ys ++ zs) := by
  obtain ⟨hring, halone⟩ := h.unlink
  refine ⟨hring, fun u => ?_, h.sorted.sublist (by simp), halone, ?_, h.running⟩
  · have hnodup := h.nodup
    rw [List.nodup_middle, List.nodup_cons] at hnodup
    by_cases hut : u = t
    · simp [hut] at hnodup ⊢
      tauto
    · have hold := h.pending u
      simp [hut] at hold ⊢
      exact hold
  · cases handler <;> exact hhandler

/-! ## The steps keep the list -/

/-- Setting the expiry of one timer leaves the others where they are. -/
theorem due_setExpires (hts : t ∉ xs) {u : ι} (hu : u ∈ xs) (expires : UInt32) :
    due { s with expires := Function.update s.expires t expires } u = s.due u := by
  have hne : u ≠ t := fun heq => hts (heq ▸ hu)
  change long (Function.update s.expires t expires u - s.jiffies) = _
  rw [Function.update_of_ne hne, due]

/-- The expiry of a timer that is not pending is set. -/
theorem setExpires (h : s.Lists xs) (ht : t ∉ xs) (expires : UInt32) :
    { s with expires := Function.update s.expires t expires }.Lists xs := by
  refine ⟨h.ring, h.pending, ?_, h.alone, ?_, h.running⟩
  · refine h.sorted.imp_of_mem fun hu hv hle => ?_
    rwa [due_setExpires ht hu, due_setExpires ht hv]
  · have hhandler := h.handler
    change HandlerOk _ xs s.handler
    cases hs : s.handler with
    | outside =>
      rw [hs] at hhandler
      intro u hu
      have hfresh := hhandler u hu
      rwa [← due_setExpires ht hu expires] at hfresh
    | loop now => rwa [hs] at hhandler
    | function u now => rwa [hs] at hhandler

theorem init (h : s.Lists xs) (ht : t ∉ xs) : (s.initTimer t).Lists xs := by
  have hset := h.setExpires ht 0
  refine ⟨h.ring.init (notMem_ring ht), h.pending, hset.sorted, ?_, hset.handler, h.running⟩
  intro u hu huxs
  by_cases hut : u = t
  · rw [hut]
    exact Links.next_init_self ..
  · have hinit : s.initialized u := by simpa [initTimer, hut] using hu
    have hut' : some u ≠ some t := fun heq => hut (Option.some.inj heq)
    exact (Links.next_init_of_ne hut' _).trans (h.alone u hinit huxs)

/-- The timer `t` is linked in behind `pos`. -/
theorem link (h : s.Lists xs) (ht : t ∉ xs) {pos : Node ι} (hpos : pos ∈ none :: xs.map some)
    (hring : (s.links.add (some t) pos).Ring none (ys.map some))
    (hys : ∀ u, u ∈ ys ↔ u = t ∨ u ∈ xs) (hsorted : ys.Pairwise fun u v => s.due u ≤ s.due v)
    (hlow : -2 ^ 31 < s.due t) :
    { s with
      links := s.links.add (some t) pos
      initialized := Function.update s.initialized t true
      pending := Function.update s.pending t true }.Lists ys := by
  refine ⟨hring, fun u => ?_, hsorted, fun u hu huys => ?_, ?_, h.running⟩
  · by_cases hut : u = t
    · simp [hut, hys]
    · have hold := h.pending u
      simp [hut, hys] at hold ⊢
      exact hold
  · rw [hys, not_or] at huys
    have hinit : s.initialized u := by simpa [huys.1] using hu
    have hut : some u ≠ some t := fun heq => huys.1 (Option.some.inj heq)
    exact (Links.Ring.next_add hpos (notMem_ring huys.2) hut).trans (h.alone u hinit huys.2)
  · have hhandler := h.handler
    change HandlerOk _ ys s.handler
    cases hs : s.handler with
    | outside =>
      rw [hs] at hhandler
      intro u hu
      rcases (hys u).1 hu with rfl | huxs
      · exact hlow
      · exact hhandler u huxs
    | loop now => rwa [hs] at hhandler
    | function u now => rwa [hs] at hhandler

variable [Fintype ι]

/-- The loop ends, at the first pending timer that expires earlier if there is one. -/
theorem findPos_eq (h : s.links.Ring none (xs.map some)) (expires : UInt32) :
    s.findPos expires = some (xs.find? fun u => long (s.expires u - expires) < 0) := by
  have hnodup : xs.Nodup := (List.nodup_cons.1 h.nodup).2.of_map _
  have hturns : (xs.map some).length < Fintype.card ι + 1 := by
    rw [List.length_map]
    exact Nat.lt_succ_of_le hnodup.length_le_card
  have hnode (o : Option ι) : (o.map some).getD none = o := by cases o <;> rfl
  rw [findPos, h.walk_eq _ hturns, List.find?_map, hnode]
  rfl

/-- With no two pending timers that expire earlier, the timer comes to its place. -/
theorem addTimer (h : s.Lists xs) (ht : t ∉ xs) (hlow : -2 ^ 31 < s.due t)
    (hnear : ∀ u ∈ xs, -2 ^ 31 < s.due u - s.due t ∧ s.due u - s.due t < 2 ^ 31)
    (hone : ∀ u ∈ xs, ∀ v ∈ xs, s.due u < s.due t → s.due v < s.due t → u = v) :
    ∃ ys, (s.addTimer t).Lists ys := by
  have hearlier (u : ι) (hu : u ∈ xs) :
      long (s.expires u - s.expires t) < 0 ↔ s.due u < s.due t := by
    obtain ⟨hlow, hhigh⟩ := hnear u hu
    rw [long_sub_of_near hlow.le hhigh]
    exact sub_neg
  rw [State.addTimer, findPos_eq h.ring]
  cases hfind : xs.find? fun u => long (s.expires u - s.expires t) < 0 with
  | none =>
    have hlate (u : ι) (hu : u ∈ xs) : s.due t ≤ s.due u := by
      have hnot := List.find?_eq_none.1 hfind u hu
      rw [decide_eq_true_eq, hearlier u hu] at hnot
      exact Int.not_lt.1 hnot
    refine ⟨t :: xs, h.link ht List.mem_cons_self ?_ (by simp) ?_ hlow⟩
    · exact h.ring.add_head (notMem_ring ht)
    · exact List.pairwise_cons.2 ⟨hlate, h.sorted⟩
  | some u =>
    obtain ⟨hu, before, after, rfl, hbefore⟩ := List.find?_eq_some_iff_append.1 hfind
    have hu' : s.due u < s.due t := (hearlier u (by simp)).1 (by simpa using hu)
    have hsorted := h.sorted
    have hnil : before = [] := by
      apply List.eq_nil_iff_forall_not_mem.2
      intro v hv
      have hle : s.due v ≤ s.due u := (List.pairwise_append.1 hsorted).2.2 v hv u (by simp)
      have hnot := hbefore v hv
      rw [Bool.not_eq_true', decide_eq_false_iff_not, hearlier v (by simp [hv])] at hnot
      exact hnot (hle.trans_lt hu')
    subst hnil
    rw [List.nil_append] at h hsorted ht hnear hone
    have hlate (v : ι) (hv : v ∈ after) : s.due t ≤ s.due v := by
      by_contra hlt
      have heq := hone v (by simp [hv]) u (by simp) (Int.not_le.1 hlt) hu'
      exact (List.nodup_cons.1 h.nodup).1 (heq ▸ hv)
    refine ⟨u :: t :: after, h.link ht (by simp) ?_ (by simp; tauto) ?_ hlow⟩
    · exact h.ring.add_after (l := []) (notMem_ring ht)
    · obtain ⟨hfirst, hrest⟩ := List.pairwise_cons.1 hsorted
      refine List.pairwise_cons.2 ⟨fun v hv => ?_, List.pairwise_cons.2 ⟨hlate, hrest⟩⟩
      rcases List.mem_cons.1 hv with rfl | hv
      · exact hu'.le
      · exact hfirst v hv

omit [Fintype ι] in
theorem delTimer (h : s.Lists xs) (ht : s.initialized t) : ∃ ys, (s.delTimer t).1.Lists ys := by
  by_cases hmem : t ∈ xs
  · obtain ⟨ys, zs, rfl⟩ := List.append_of_mem hmem
    have hlinked : s.links.next (some t) ≠ some t := by
      have hring := h.ring
      rw [List.map_append, List.map_cons] at hring
      exact hring.next_ne_self
    have hhandler : s.HandlerOk (ys ++ zs) s.handler := by
      have hold := h.handler
      cases hs : s.handler with
      | outside =>
        rw [hs] at hold
        exact fun u hu => hold u (by simp at hu ⊢; tauto)
      | loop now => rwa [hs] at hold
      | function u now => rwa [hs] at hold
    refine ⟨ys ++ zs, ?_⟩
    rw [State.delTimer, if_pos hlinked]
    exact h.take ys hhandler
  · have hpending : Function.update s.pending t false = s.pending := by
      rw [Function.update_eq_self_iff]
      exact (Bool.eq_false_iff.2 (mt (h.pending t).1 hmem)).symm
    refine ⟨xs, ?_⟩
    rw [State.delTimer, if_neg (not_not.2 (h.alone t ht hmem)), hpending]
    exact h

omit [DecidableEq ι] [Fintype ι] in
theorem tick (h : s.Lists xs) (hs : s.handler = .outside) :
    { s with jiffies := s.jiffies + 1, handler := .loop (s.jiffies + 1) }.Lists xs := by
  have hfresh := h.handler
  rw [hs] at hfresh
  refine ⟨h.ring, h.pending, ?_, h.alone, rfl, h.running⟩
  refine h.sorted.imp_of_mem fun hu hv hle => ?_
  change long _ ≤ long _
  rw [long_tick (hfresh _ hu), long_tick (hfresh _ hv)]
  exact Int.sub_le_sub_right hle 1

omit [Fintype ι] in
/-- The head of the list decides for the whole list. -/
theorem loop (h : s.Lists xs) {now : UInt32} (hs : s.handler = .loop now) :
    (∃ ys, (s.loop now).Lists ys) ∧
      (∀ t, (s.loop now).handler = .function t now → s.pending t ∧ s.due t ≤ 0) ∧
      ((s.loop now).handler = .outside → ∀ t, (s.loop now).pending t → 0 < (s.loop now).due t) := by
  have hnow := h.handler
  rw [hs] at hnow
  obtain rfl : now = s.jiffies := hnow
  -- the handler returns when no pending timer is due
  have hreturn (hlate : ∀ u ∈ xs, 0 < s.due u) :
      { s with handler := .outside }.Lists xs ∧
        ∀ t, s.pending t → 0 < s.due t := by
    refine ⟨⟨h.ring, h.pending, h.sorted, h.alone, fun u hu => ?_, h.running⟩, fun t ht => ?_⟩
    · exact (by decide : (-2 ^ 31 : Int) < 0).trans (hlate u hu)
    · exact hlate t ((h.pending t).1 ht)
  cases xs with
  | nil =>
    have hloop : s.loop s.jiffies = { s with handler := .outside } := by
      rw [State.loop, h.ring.next_head]
      rfl
    obtain ⟨hlists, htime⟩ := hreturn (by simp)
    rw [hloop]
    exact ⟨⟨_, hlists⟩, nofun, fun _ => htime⟩
  | cons t zs =>
    have hnext : s.links.next none = some t := h.ring.next_head
    by_cases hdue : s.due t ≤ 0
    · have hloop : s.loop s.jiffies =
          { s with
            links := (s.links.del (some t)).init (some t)
            pending := Function.update s.pending t false
            handler := .function t s.jiffies } := by
        rw [State.loop, hnext]
        exact if_pos hdue
      rw [hloop]
      refine ⟨⟨zs, h.take [] rfl⟩, fun u hu => ?_, nofun⟩
      obtain ⟨rfl, -⟩ := Handler.function.inj hu
      exact ⟨(h.pending _).2 (by simp), hdue⟩
    · have hloop : s.loop s.jiffies = { s with handler := .outside } := by
        rw [State.loop, hnext]
        exact if_neg hdue
      have hlate (u : ι) (hu : u ∈ t :: zs) : 0 < s.due u := by
        rcases List.mem_cons.1 hu with rfl | hu
        · exact Int.not_le.1 hdue
        · exact (Int.not_le.1 hdue).trans_le ((List.pairwise_cons.1 h.sorted).1 u hu)
      obtain ⟨hlists, htime⟩ := hreturn hlate
      rw [hloop]
      exact ⟨⟨_, hlists⟩, nofun, fun _ => htime⟩

end Lists

variable [Fintype ι]

theorem Lists.call (h : s.Lists xs) {e : Event ι} (hproper : s.proper e) (hone : s.oneEarlier e) :
    ∃ ys, (s.call e).Lists ys := by
  cases e with
  | init t =>
    have ht : ¬ s.pending t := by simpa [proper] using hproper
    exact ⟨xs, h.init (mt (h.pending t).2 ht)⟩
  | add t expires =>
    obtain ⟨ht, hlow, hnear⟩ := of_decide_eq_true hproper
    have hxs : t ∉ xs := mt (h.pending t).2 (by simpa using ht)
    have hset := h.setExpires hxs expires
    have hdue (u : ι) (hu : u ∈ xs) := Lists.due_setExpires (s := s) hxs hu expires
    have hdue_t : due { s with expires := Function.update s.expires t expires } t =
        long (expires - s.jiffies) := by
      change long (Function.update s.expires t expires t - s.jiffies) = _
      rw [Function.update_self]
    refine hset.addTimer hxs (hdue_t ▸ hlow) (fun u hu => ?_) fun u hu v hv => ?_
    · rw [hdue u hu, hdue_t]
      exact hnear u ((h.pending u).2 hu)
    · rw [hdue u hu, hdue v hv, hdue_t]
      exact of_decide_eq_true hone u v ((h.pending u).2 hu) ((h.pending v).2 hv)
  | del t => exact h.delTimer hproper
  | tick | turn | ret => exact ⟨xs, h⟩

theorem onTime_of_ne_loop {e : Event ι} (h : ∀ now, s.handler ≠ .loop now) : OnTime s e :=
  ⟨fun now _ hs => absurd hs (h now), fun now hs => absurd hs (h now)⟩

theorem onTime_of_stay {e : Event ι} (h : s.step e = s) : OnTime s e := by
  refine ⟨fun now t hs hfun => ?_, fun now hs hout => ?_⟩
  · rw [h, hs] at hfun
    cases hfun
  · rw [h, hs] at hout
    cases hout

theorem Lists.step (h : s.Lists xs) {e : Event ι} (hproper : s.proper e) (hone : s.oneEarlier e) :
    s.OnTime e ∧ ∃ ys, (s.step e).Lists ys := by
  have hstep : s.step e = s.act e := by
    rw [State.step, h.running]
    rfl
  cases hs : s.handler with
  | outside =>
    refine ⟨onTime_of_ne_loop (by simp [hs]), ?_⟩
    rw [hstep]
    unfold act
    rw [hs]
    cases e with
    | tick => exact ⟨xs, h.tick hs⟩
    | _ => exact h.call hproper hone
  | loop now =>
    cases e with
    | turn =>
      have hloop : s.step .turn = s.loop now := by
        rw [hstep]
        unfold act
        rw [hs]
      obtain ⟨hlists, hfired, hreturned⟩ := h.loop hs
      rw [← hloop] at hlists hfired hreturned
      refine ⟨⟨fun now' t hnow => ?_, fun now' hnow => hreturned⟩, hlists⟩
      rw [hs] at hnow
      obtain rfl := Handler.loop.inj hnow
      exact hfired t
    | _ =>
      refine ⟨onTime_of_stay ?_, xs, ?_⟩
      all_goals
        rw [hstep]
        unfold act
        rw [hs]
      exact h
  | function t now =>
    refine ⟨onTime_of_ne_loop (by simp [hs]), ?_⟩
    rw [hstep]
    unfold act
    rw [hs]
    cases e with
    | ret =>
      have hnow := h.handler
      rw [hs] at hnow
      exact ⟨xs, h.ring, h.pending, h.sorted, h.alone, hnow, h.running⟩
    | _ => exact h.call hproper hone

omit [Fintype ι] in
theorem lists_boot (links : Links (Node ι)) (expires : ι → UInt32) :
    (boot links expires).Lists [] := by
  refine ⟨⟨?_, by simp⟩, by simp [boot], .nil, by simp [boot], by simp [boot, HandlerOk], rfl⟩
  simp [boot, Links.init, Links.setNext, Links.setPrev, Links.Adjacent]

/-- In every run in which at most one pending timer expires before one that is added, each
timer's function runs at the first tick that reaches its expiry. -/
theorem timers_fire (links : Links (Node ι)) (expires : ι → UInt32) {es : List (Event ι)}
    (hproper : Machine.Along step (proper · ·) (boot links expires) es)
    (hone : Machine.Along step (oneEarlier · ·) (boot links expires) es) :
    Machine.Along step OnTime (boot links expires) es := by
  have hboth := Machine.along_and.2 ⟨hproper, hone⟩
  refine hboth.strengthen (I := fun s => ∃ xs, s.Lists xs) ?_ ⟨[], lists_boot links expires⟩
  rintro s e ⟨xs, h⟩ ⟨hproper, hone⟩
  exact h.step hproper hone

/-- A list that no timer has been on. -/
def selfLinks (ι : Type*) : Links (Node ι) := ⟨id, id⟩

theorem timers_fire_two :
    Machine.Along step OnTime (boot (selfLinks (Fin 2)) fun _ => 0)
      [.add 0 1, .add 1 2, .tick, .turn, .ret, .turn, .tick, .turn, .ret, .turn] :=
  timers_fire _ _ (by decide +kernel) (by decide +kernel)

/-- The third timer goes in between the first and the second. -/
theorem not_alwaysOnTime : ¬ AlwaysOnTime (Fin 3) := by
  intro h
  have hall := h (selfLinks _) (fun _ => 0)
    [.init 0, .init 1, .init 2, .add 0 1, .add 1 2, .add 2 3, .tick, .turn, .ret, .turn,
      .tick, .turn] (by decide +kernel)
  obtain ⟨-, -, -, -, -, -, -, -, -, -, -, hlast, -⟩ := hall
  have hlate := hlast.returned 2 (by decide +kernel) (by decide +kernel) 1 (by decide +kernel)
  revert hlate
  decide +kernel

end State

end Timer
