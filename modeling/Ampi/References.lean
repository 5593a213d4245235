-- SUMMARY: Objects with counted references: programs that take and drop them, a discipline of calls, and what it gives for all runs.
import Mathlib.Algebra.Order.BigOperators.Group.Finset
import Mathlib.Data.List.Forall2

/-!
# Counted references

Objects live in a heap and are found through a table. Each has a count of references, one of
which is its own until it is retired. Threads run programs, which find objects, look at their
states and change them, and drop the references again; a thread gives way only where it waits.

A program is safe if it drops what it has taken, and if what it takes for granted about a
state is what it has seen, up to what other threads may have done while it has waited.
-/

namespace References

/-! ## Programs -/

/-- What a thread has left to do. Its references are a stack, the last one on top. -/
inductive Prog (σ : Type) where
  | done
  | add (state : σ) (next : Prog σ)
  /-- Take a reference to an object in one of the states, if it is the one looked for. -/
  | find (accepts : σ → Bool) (found missing : Prog σ)
  /-- Drop the reference on top. -/
  | unlock (next : Prog σ)
  | pick (ps : Nat → Prog σ)
  /-- A choice that others make, the first branch only for objects that are not retired. -/
  | ask (alive any : Prog σ)
  | switch (cases : σ → Prog σ)
  | set (state : σ) (next : Prog σ)
  /-- Retire the object: its state is the dead one, and its own reference is dropped. -/
  | free (next : Prog σ)
  | wait (next : Prog σ)

namespace Prog

variable {σ : Type}

def choose (p q : Prog σ) : Prog σ := .pick fun n => if n = 0 then p else q

/-- Any number of rounds. -/
def loop (body : Prog σ → Prog σ) (next : Prog σ) : Prog σ := .pick fun n => body^[n] next

/-- Other threads may run. -/
def idle : Prog σ → Bool
  | .done | .wait _ => true
  | _ => false

end Prog

/-! ## The machine -/

structure Object (σ : Type) where
  refCount : Nat
  state : σ
  place : Nat
  retired : Bool

structure Store (ι σ : Type) where
  table : Nat → Option Nat
  heap : Nat → Option (Object σ)
  /-- The objects that there have been have lower numbers. -/
  next : Nat
  freed : Nat → Nat
  /-- An assertion has failed, or memory that is not there has been looked at. -/
  faulted : Bool
  held : ι → List Nat

namespace Store

variable {ι σ : Type} [DecidableEq ι] [DecidableEq σ]

def init : Store ι σ := ⟨fun _ => none, fun _ => none, 0, fun _ => 0, false, fun _ => []⟩

def fault (s : Store ι σ) : Store ι σ := { s with faulted := true }

def write (s : Store ι σ) (id : Nat) (o : Object σ) : Store ι σ :=
  { s with heap := Function.update s.heap id (some o) }

/-- One reference less, and the object goes with its last one. -/
def unlock (s : Store ι σ) (dead : σ) (id : Nat) : Store ι σ :=
  match s.heap id with
  | none => s.fault
  | some o =>
    if o.refCount = 0 then s.fault
    else if o.refCount = 1 then
      { s with
        faulted := s.faulted || o.state ≠ dead
        table := Function.update s.table o.place none
        heap := Function.update s.heap id none
        freed := Function.update s.freed id (s.freed id + 1) }
    else s.write id { o with refCount := o.refCount - 1 }

def add (s : Store ι σ) (place : Nat) (state : σ) : Store ι σ :=
  { s with
    table := Function.update s.table place (some s.next)
    heap := Function.update s.heap s.next (some ⟨1, state, place, false⟩)
    next := s.next + 1 }

def lock (s : Store ι σ) (i : ι) (id : Nat) (o : Object σ) : Store ι σ :=
  { s.write id { o with refCount := o.refCount + 1 } with
    faulted := s.faulted || o.refCount = 0
    held := Function.update s.held i (id :: s.held i) }

def retire (s : Store ι σ) (dead : σ) (id : Nat) (o : Object σ) : Store ι σ :=
  (s.write id { o with state := dead, retired := true }).unlock dead id

def pop (s : Store ι σ) (i : ι) : Store ι σ :=
  { s with held := Function.update s.held i (s.held i).tail }

/-- The object on top of the references of a thread. -/
def top (s : Store ι σ) (i : ι) : Option (Nat × Object σ) :=
  match s.held i with
  | [] => none
  | id :: _ => (s.heap id).map fun o => (id, o)

/-- The entry that is looked for, if there is one. -/
def look (s : Store ι σ) : Nat → Option Nat
  | 0 => none
  | place + 1 => s.table place

/-- The next command of a thread, with what it finds or picks. -/
def exec (s : Store ι σ) (dead : σ) (i : ι) (n : Nat) : Prog σ → Store ι σ × Prog σ
  | .done => (s, .done)
  | .add state next =>
    (if (s.table n).isNone && state ≠ dead then s.add n state else s, next)
  | .find accepts found missing =>
    match s.look n with
    | none => (s, missing)
    | some id =>
      match s.heap id with
      | none => (s.fault, missing)
      | some o => if accepts o.state then (s.lock i id o, found) else (s, missing)
  | .unlock next =>
    match s.held i with
    | [] => (s.fault, next)
    | id :: _ => ((s.pop i).unlock dead id, next)
  | .pick ps => (s, ps n)
  | .ask alive any => (s, if n = 0 then alive else any)
  | .switch cases =>
    match s.top i with
    | none => (s.fault, .done)
    | some (_, o) => (s, cases o.state)
  | .set state next =>
    match s.top i with
    | none => (s.fault, next)
    | some (id, o) => (s.write id { o with state }, next)
  | .free next =>
    match s.top i with
    | none => (s.fault, next)
    | some (id, o) => (s.retire dead id o, next)
  | .wait next => (s, next)

end Store

structure World (ι σ : Type) where
  store : Store ι σ
  current : ι
  prog : ι → Prog σ

namespace World

variable {ι σ : Type} [DecidableEq ι] [DecidableEq σ]

def init (main : ι → Prog σ) (i : ι) : World ι σ := ⟨.init, i, fun j => .wait (main j)⟩

/-- The thread runs on, or the one that runs gives way. -/
def ready (w : World ι σ) (i : ι) : Bool := i = w.current || (w.prog w.current).idle

def step (dead : σ) (w : World ι σ) (e : ι × Nat) : World ι σ :=
  if w.ready e.1 then
    let r := w.store.exec dead e.1 e.2 (w.prog e.1)
    ⟨r.1, e.1, Function.update w.prog e.1 r.2⟩
  else w

def run (dead : σ) (w : World ι σ) (es : List (ι × Nat)) : World ι σ := es.foldl (step dead) w

/-- The first branch of a question is not taken over a retired object. -/
def fair (dead : σ) (w : World ι σ) (e : ι × Nat) : Bool :=
  match w.prog e.1 with
  | .ask _ _ => e.2 ≠ 0 || (w.store.top e.1).all fun r => r.2.state ≠ dead
  | _ => true

def fairRun (dead : σ) : World ι σ → List (ι × Nat) → Bool
  | _, [] => true
  | w, e :: es => w.fair dead e && fairRun dead (w.step dead e) es

end World

/-! ## The discipline -/

/-- What the thread may set a state to, in which states it may retire an object, and what
becomes of a state while it waits. -/
structure Discipline (σ : Type) where
  sets : σ → σ → Prop
  frees : σ → Prop
  rely : σ → σ → Prop
  rely_refl : ∀ s, rely s s
  rely_trans : ∀ {s t u}, rely s t → rely t u → rely s u

/-- What is known of a state after a wait. -/
def Discipline.after {σ : Type} (d : Discipline σ) (K : Set σ) : Set σ :=
  {t | ∃ s ∈ K, d.rely s t}

/-- What is known of a state in `K'` after one in `K` has been set to `t`. -/
def moved {σ : Type} (K : Set σ) (t : σ) (K' : Set σ) : Set σ :=
  {u | u ∈ K' ∨ u = t ∧ (K ∩ K').Nonempty}

/-- The program drops what it has taken, when the objects of its references are in states of
the `Ks`. -/
inductive Safe {σ : Type} (d : Discipline σ) (dead : σ) : List (Set σ) → Prog σ → Prop where
  | done : Safe d dead [] .done
  | add {Ks : List (Set σ)} {state : σ} {next : Prog σ} (hnext : Safe d dead Ks next) :
    Safe d dead Ks (.add state next)
  | find {Ks : List (Set σ)} {accepts : σ → Bool} {found missing : Prog σ}
    (hfound : Safe d dead ({s | accepts s = true} :: Ks) found)
    (hmissing : Safe d dead Ks missing) : Safe d dead Ks (.find accepts found missing)
  | unlock {K : Set σ} {Ks : List (Set σ)} {next : Prog σ} (hnext : Safe d dead Ks next) :
    Safe d dead (K :: Ks) (.unlock next)
  | pick {Ks : List (Set σ)} {ps : Nat → Prog σ} (hps : ∀ n, Safe d dead Ks (ps n)) :
    Safe d dead Ks (.pick ps)
  | ask {K : Set σ} {Ks : List (Set σ)} {alive any : Prog σ}
    (halive : Safe d dead ({s | s ∈ K ∧ s ≠ dead} :: Ks) alive)
    (hany : Safe d dead (K :: Ks) any) : Safe d dead (K :: Ks) (.ask alive any)
  | switch {K : Set σ} {Ks : List (Set σ)} {cases : σ → Prog σ}
    (hcases : ∀ s ∈ K, Safe d dead ({s} :: Ks) (cases s)) : Safe d dead (K :: Ks) (.switch cases)
  | set {K : Set σ} {Ks : List (Set σ)} {state : σ} {next : Prog σ}
    (hsets : ∀ s ∈ K, s ≠ dead ∧ d.sets s state) (hstate : state ≠ dead)
    (hnext : Safe d dead ({state} :: Ks.map (moved K state)) next) :
    Safe d dead (K :: Ks) (.set state next)
  | free {K : Set σ} {Ks : List (Set σ)} {next : Prog σ}
    (hfrees : ∀ s ∈ K, s ≠ dead ∧ d.frees s)
    (hnext : Safe d dead ({dead} :: Ks.map (moved K dead)) next) :
    Safe d dead (K :: Ks) (.free next)
  | wait {Ks : List (Set σ)} {next : Prog σ} (hnext : Safe d dead (Ks.map d.after) next) :
    Safe d dead Ks (.wait next)

/-- No thread does what another one does not reckon with. -/
structure Compatible {ι σ : Type} (d : ι → Discipline σ) (dead : σ) : Prop where
  set : ∀ {i j}, i ≠ j → ∀ {s t}, (d i).sets s t → (d j).rely s t
  free : ∀ {i j}, i ≠ j → ∀ {s}, (d i).frees s → (d j).rely s dead

/-! ### Rules -/

section

variable {σ : Type} {d : Discipline σ} {dead : σ} {Ks Ks' : List (Set σ)} {p q next : Prog σ}
  {K K' : Set σ}

/-- Less is known. -/
def Weaker (Ks Ks' : List (Set σ)) : Prop := List.Forall₂ (fun K K' => K' ⊆ K) Ks Ks'

theorem Weaker.refl (Ks : List (Set σ)) : Weaker Ks Ks :=
  List.forall₂_same.2 fun _ _ => subset_rfl

theorem Weaker.cons (hK : K' ⊆ K) (h : Weaker Ks Ks') : Weaker (K :: Ks) (K' :: Ks') :=
  List.Forall₂.cons hK h

theorem Weaker.map {f g : Set σ → Set σ} (hfg : ∀ {K K'}, K' ⊆ K → g K' ⊆ f K)
    (h : Weaker Ks Ks') : Weaker (Ks.map f) (Ks'.map g) := by
  induction h with
  | nil => exact .nil
  | cons hK _ ih => exact .cons (hfg hK) ih

theorem after_mono (h : K' ⊆ K) : d.after K' ⊆ d.after K :=
  fun _ ⟨s, hs, hrely⟩ => ⟨s, h hs, hrely⟩

theorem moved_mono {L L' : Set σ} {t : σ} (hL : L' ⊆ L) (hK : K' ⊆ K) :
    moved L' t K' ⊆ moved L t K := by
  rintro u (hu | ⟨rfl, s, hs, hs'⟩)
  · exact .inl (hK hu)
  · exact .inr ⟨rfl, s, hL hs, hK hs'⟩

theorem Safe.mono (h : Safe d dead Ks p) (hle : Weaker Ks Ks') : Safe d dead Ks' p := by
  induction h generalizing Ks' with
  | done =>
    cases hle
    exact .done
  | add _ ih => exact .add (ih hle)
  | find _ _ ihf ihm => exact .find (ihf (.cons subset_rfl hle)) (ihm hle)
  | unlock _ ih =>
    obtain _ | ⟨-, hKs⟩ := hle
    exact .unlock (ih hKs)
  | pick _ ih => exact .pick fun n => ih n hle
  | ask _ _ iha ihn =>
    obtain _ | ⟨hK, hKs⟩ := hle
    exact .ask (iha (.cons (fun _ hs => ⟨hK hs.1, hs.2⟩) hKs)) (ihn (.cons hK hKs))
  | switch _ ih =>
    obtain _ | ⟨hK, hKs⟩ := hle
    exact .switch fun s hs => ih s (hK hs) (.cons subset_rfl hKs)
  | set hsets hstate _ ih =>
    obtain _ | ⟨hK, hKs⟩ := hle
    exact .set (fun s hs => hsets s (hK hs)) hstate
      (ih (.cons subset_rfl (Weaker.map (fun h => moved_mono hK h) hKs)))
  | free hfrees _ ih =>
    obtain _ | ⟨hK, hKs⟩ := hle
    exact .free (fun s hs => hfrees s (hK hs))
      (ih (.cons subset_rfl (Weaker.map (fun h => moved_mono hK h) hKs)))
  | wait _ ih => exact .wait (ih (hle.map after_mono))

/-- It is safe whatever the state on top. -/
theorem Safe.top (h : Safe d dead (Set.univ :: Ks) p) : Safe d dead (K :: Ks) p :=
  h.mono (.cons (Set.subset_univ K) (.refl Ks))

theorem Safe.choose (hp : Safe d dead Ks p) (hq : Safe d dead Ks q) :
    Safe d dead Ks (.choose p q) := by
  refine .pick fun n => ?_
  split
  · exact hp
  · exact hq

theorem Safe.loop {body : Prog σ → Prog σ} (hbody : ∀ q, Safe d dead Ks q → Safe d dead Ks (body q))
    (hnext : Safe d dead Ks next) : Safe d dead Ks (.loop body next) := by
  refine .pick fun n => ?_
  induction n with
  | zero => exact hnext
  | succ n ih =>
    rw [Function.iterate_succ_apply']
    exact hbody _ ih

/-- Whatever may happen to a state in `K`, it stays there. -/
def Settled (may : σ → σ → Prop) (K : Set σ) : Prop := ∀ s ∈ K, ∀ t, may s t → t ∈ K

theorem Settled.univ (may : σ → σ → Prop) : Settled may Set.univ := fun _ _ _ _ => trivial

variable {may : σ → σ → Prop}

theorem Weaker.after (hmay : ∀ {s t}, d.rely s t → may s t) (hKs : ∀ K ∈ Ks, Settled may K) :
    Weaker Ks (Ks.map d.after) := by
  refine List.forall₂_map_right_iff.2 (List.forall₂_same.2 fun K hK => ?_)
  rintro t ⟨s, hs, hrely⟩
  exact hKs K hK s hs t (hmay hrely)

theorem Safe.wait_settled (hmay : ∀ {s t}, d.rely s t → may s t)
    (hKs : ∀ K ∈ Ks, Settled may K) (h : Safe d dead Ks next) : Safe d dead Ks (.wait next) :=
  .wait (h.mono (.after hmay hKs))

theorem Weaker.moved {t : σ} (hmay : Ks ≠ [] → ∀ s ∈ K, may s t)
    (hKs : ∀ K ∈ Ks, Settled may K) : Weaker Ks (Ks.map (moved K t)) := by
  refine List.forall₂_map_right_iff.2 (List.forall₂_same.2 fun L hL => ?_)
  rintro u (hu | ⟨rfl, s, hs, hs'⟩)
  · exact hu
  · exact hKs L hL s hs' u (hmay (List.ne_nil_of_mem hL) s hs)

theorem Safe.set_settled {state : σ} (hKs : ∀ K ∈ Ks, Settled may K)
    (hsets : ∀ s ∈ K, s ≠ dead ∧ d.sets s state) (hstate : state ≠ dead)
    (hmay : Ks ≠ [] → ∀ s ∈ K, may s state) (h : Safe d dead ({state} :: Ks) next) :
    Safe d dead (K :: Ks) (.set state next) :=
  .set hsets hstate (h.mono (.cons subset_rfl (.moved hmay hKs)))

theorem Safe.free_settled (hKs : ∀ K ∈ Ks, Settled may K)
    (hfrees : ∀ s ∈ K, s ≠ dead ∧ d.frees s) (hmay : Ks ≠ [] → ∀ s ∈ K, may s dead)
    (h : Safe d dead ({dead} :: Ks) next) : Safe d dead (K :: Ks) (.free next) :=
  .free hfrees (h.mono (.cons subset_rfl (.moved hmay hKs)))

end

/-! ## Counts -/

section

variable {ι σ : Type} [DecidableEq ι] [DecidableEq σ] [Fintype ι] {dead : σ} {s : Store ι σ}
  {i j : ι} {id : Nat} {o : Object σ} {extra : Nat → Nat}

/-- The references to an object that are held. -/
def Store.refs (s : Store ι σ) (id : Nat) : Nat := ∑ i, (s.held i).count id

/-- The reference that an object has itself. -/
def Object.own (o : Object σ) : Nat := if o.retired then 0 else 1

/-- Each count is that of the references, and `extra` of an object is yet to be dropped. -/
structure Counted (dead : σ) (extra : Nat → Nat) (s : Store ι σ) : Prop where
  count : ∀ {id o}, s.heap id = some o → o.refCount = o.own + s.refs id + extra id
  pos : ∀ {id o}, s.heap id = some o → 0 < o.refCount
  live : ∀ {i id}, id ∈ s.held i → ∃ o, s.heap id = some o
  table : ∀ {place id}, s.table place = some id ↔ ∃ o, s.heap id = some o ∧ o.place = place
  dead : ∀ {id o}, s.heap id = some o → (o.state = dead ↔ o.retired = true)
  /-- An object is freed once, and is there until then. -/
  freed : ∀ id, s.freed id = if id < s.next ∧ s.heap id = none then 1 else 0
  fresh : ∀ {id o}, s.heap id = some o → id < s.next
  faulted : s.faulted = false

/-- No reference is to be dropped. -/
def balanced : Nat → Nat := fun _ => 0

/-- One reference is to be dropped. -/
def owed (id : Nat) : Nat → Nat := Function.update (fun _ => 0) id 1

@[simp] theorem owed_self (id : Nat) : owed id id = 1 := Function.update_self _ _ _

theorem owed_of_ne {id' : Nat} (h : id' ≠ id) : owed id id' = 0 := Function.update_of_ne h _ _

theorem refs_update (held : ι → List Nat) (i : ι) (l : List Nat) (id : Nat) :
    (∑ j, (Function.update held i l j).count id) + (held i).count id =
      (∑ j, (held j).count id) + l.count id := by
  have herase : ∑ j ∈ Finset.univ.erase i, (Function.update held i l j).count id =
      ∑ j ∈ Finset.univ.erase i, (held j).count id :=
    Finset.sum_congr rfl fun j hj => by
      rw [Function.update_of_ne (Finset.ne_of_mem_erase hj)]
  have hnew := Finset.add_sum_erase Finset.univ
    (fun j => (Function.update held i l j).count id) (Finset.mem_univ i)
  have hold := Finset.add_sum_erase Finset.univ (fun j => (held j).count id) (Finset.mem_univ i)
  simp only [Function.update_self] at hnew
  omega

omit [DecidableEq ι] [DecidableEq σ] in
theorem Store.count_le_refs (s : Store ι σ) (i : ι) (id : Nat) : (s.held i).count id ≤ s.refs id :=
  Finset.single_le_sum (f := fun j => (s.held j).count id) (fun _ _ => Nat.zero_le _)
    (Finset.mem_univ i)

omit [DecidableEq ι] [DecidableEq σ] in
theorem Store.refs_pos (hmem : id ∈ s.held i) : 0 < s.refs id :=
  (List.count_pos_iff.2 hmem).trans_le (s.count_le_refs i id)

namespace Counted

omit [DecidableEq ι] [DecidableEq σ] in
theorem refs_eq_zero (h : Counted dead extra s) (hnone : s.heap id = none) : s.refs id = 0 := by
  by_contra hne
  obtain ⟨j, -, hj⟩ := Finset.exists_ne_zero_of_sum_ne_zero hne
  obtain ⟨o, ho⟩ := h.live (List.count_pos_iff.1 (Nat.pos_of_ne_zero hj))
  simp [ho] at hnone

omit [DecidableEq ι] [DecidableEq σ] in
theorem init : Counted dead balanced (.init : Store ι σ) where
  count h := by simp [Store.init] at h
  pos h := by simp [Store.init] at h
  live h := by simp [Store.init] at h
  table := by simp [Store.init]
  dead h := by simp [Store.init] at h
  freed := by simp [Store.init]
  fresh h := by simp [Store.init] at h
  faulted := rfl

omit [DecidableEq ι] [DecidableEq σ] in
/-- Another object in its place: the same but for the count and the state. -/
theorem write {extra' : Nat → Nat} {o' : Object σ} (h : Counted dead extra s)
    (ho : s.heap id = some o) (hplace : o'.place = o.place)
    (hcount : o'.refCount = o'.own + s.refs id + extra' id) (hpos : 0 < o'.refCount)
    (hdead : o'.state = dead ↔ o'.retired = true)
    (hextra : ∀ id', id' ≠ id → extra' id' = extra id') : Counted dead extra' (s.write id o') where
  count {id' u} hu := by
    by_cases hid : id' = id
    · subst hid
      simp only [Store.write, Function.update_self, Option.some.injEq] at hu
      subst hu
      exact hcount
    · simp only [Store.write, Function.update_of_ne hid] at hu
      rw [hextra id' hid]
      exact h.count hu
  pos {id' u} hu := by
    by_cases hid : id' = id
    · subst hid
      simp only [Store.write, Function.update_self, Option.some.injEq] at hu
      exact hu ▸ hpos
    · simp only [Store.write, Function.update_of_ne hid] at hu
      exact h.pos hu
  live {j id'} hmem := by
    by_cases hid : id' = id
    · subst hid
      exact ⟨o', by simp [Store.write]⟩
    · obtain ⟨u, hu⟩ := h.live hmem
      exact ⟨u, by simp [Store.write, hid, hu]⟩
  table {place id'} := by
    refine h.table.trans ?_
    by_cases hid : id' = id
    · subst hid
      simp [Store.write, ho, hplace]
    · simp [Store.write, hid]
  dead {id' u} hu := by
    by_cases hid : id' = id
    · subst hid
      simp only [Store.write, Function.update_self, Option.some.injEq] at hu
      exact hu ▸ hdead
    · simp only [Store.write, Function.update_of_ne hid] at hu
      exact h.dead hu
  freed id' := by
    refine (h.freed id').trans ?_
    by_cases hid : id' = id
    · subst hid
      simp [Store.write, ho]
    · simp [Store.write, hid]
  fresh {id' u} hu := by
    by_cases hid : id' = id
    · subst hid
      exact h.fresh ho
    · simp only [Store.write, Function.update_of_ne hid] at hu
      exact h.fresh hu
  faulted := h.faulted

omit [DecidableEq ι] in
/-- The reference too many is dropped. -/
theorem unlock (h : Counted dead (owed id) s) (ho : s.heap id = some o) :
    Counted dead balanced (s.unlock dead id) := by
  have hcount := h.count ho
  rw [owed_self] at hcount
  rw [Store.unlock, ho]
  dsimp only
  rw [if_neg (h.pos ho).ne']
  split
  case isFalse hone =>
    refine h.write ho rfl ?_ ?_ (h.dead (o := o) ho) fun id' hid => (owed_of_ne hid).symm
    · show o.refCount - 1 = o.own + s.refs id + 0
      omega
    · show 0 < o.refCount - 1
      omega
  case isTrue hone =>
    have hretired : o.retired = true := by
      by_contra hret
      simp [Object.own, hret] at hcount
      omega
    have hrefs : s.refs id = 0 := by omega
    have hstate := (h.dead ho).2 hretired
    exact {
      count := fun {id' u} hu => by
        by_cases hid : id' = id
        · simp [hid] at hu
        · simp only [Function.update_of_ne hid] at hu
          rw [h.count hu, owed_of_ne hid]
          rfl
      pos := fun {id' u} hu => by
        by_cases hid : id' = id
        · simp [hid] at hu
        · simp only [Function.update_of_ne hid] at hu
          exact h.pos hu
      live := fun {j id'} hmem => by
        by_cases hid : id' = id
        · subst hid
          exact absurd hrefs (Store.refs_pos hmem).ne'
        · obtain ⟨u, hu⟩ := h.live hmem
          exact ⟨u, by simp [hid, hu]⟩
      table := fun {place id'} => by
        by_cases hplace : place = o.place
        · subst hplace
          simp only [Function.update_self, reduceCtorEq, false_iff, not_exists, not_and]
          intro u hu hup
          by_cases hid : id' = id
          · simp [hid] at hu
          · simp only [Function.update_of_ne hid] at hu
            have hid' := h.table.2 ⟨u, hu, hup⟩
            rw [h.table.2 ⟨o, ho, rfl⟩] at hid'
            exact hid (Option.some.inj hid').symm
        · simp only [Function.update_of_ne hplace]
          refine h.table.trans ?_
          by_cases hid : id' = id
          · subst hid
            simp [ho, Ne.symm hplace]
          · simp [hid]
      dead := fun {id' u} hu => by
        by_cases hid : id' = id
        · simp [hid] at hu
        · simp only [Function.update_of_ne hid] at hu
          exact h.dead hu
      freed := fun id' => by
        by_cases hid : id' = id
        · subst hid
          simp [h.freed, ho, h.fresh ho]
        · simp [hid, h.freed]
      fresh := fun {id' u} hu => by
        by_cases hid : id' = id
        · simp [hid] at hu
        · simp only [Function.update_of_ne hid] at hu
          exact h.fresh hu
      faulted := by simp [h.faulted, hstate] }

omit [DecidableEq ι] [DecidableEq σ] in
theorem add (h : Counted dead balanced s) {place : Nat} {state : σ} (hfree : s.table place = none)
    (hstate : state ≠ dead) : Counted dead balanced (s.add place state) := by
  have hnext : s.heap s.next = none := by
    cases hn : s.heap s.next with
    | none => rfl
    | some u => exact absurd (h.fresh hn) (Nat.lt_irrefl _)
  exact {
    count := fun {id' u} hu => by
      by_cases hid : id' = s.next
      · subst hid
        simp only [Store.add, Function.update_self, Option.some.injEq] at hu
        subst hu
        have hrefs : (s.add place state).refs s.next = 0 := h.refs_eq_zero hnext
        rw [hrefs]
        rfl
      · simp only [Store.add, Function.update_of_ne hid] at hu
        exact h.count hu
    pos := fun {id' u} hu => by
      by_cases hid : id' = s.next
      · subst hid
        simp only [Store.add, Function.update_self, Option.some.injEq] at hu
        subst hu
        exact Nat.one_pos
      · simp only [Store.add, Function.update_of_ne hid] at hu
        exact h.pos hu
    live := fun {j id'} hmem => by
      obtain ⟨u, hu⟩ := h.live hmem
      have hid : id' ≠ s.next := fun hid => by simp [hid, hnext] at hu
      exact ⟨u, by simp [Store.add, hid, hu]⟩
    table := fun {place' id'} => by
      by_cases hplace : place' = place
      · subst hplace
        simp only [Store.add, Function.update_self, Option.some.injEq]
        constructor
        · rintro rfl
          exact ⟨_, Function.update_self _ _ _, rfl⟩
        · rintro ⟨u, hu, hup⟩
          by_contra hid
          rw [Function.update_of_ne (Ne.symm hid)] at hu
          simp [h.table.2 ⟨u, hu, hup⟩] at hfree
      · simp only [Store.add, Function.update_of_ne hplace]
        refine h.table.trans ?_
        by_cases hid : id' = s.next
        · subst hid
          simp [hnext, Ne.symm hplace]
        · simp [hid]
    dead := fun {id' u} hu => by
      by_cases hid : id' = s.next
      · subst hid
        simp only [Store.add, Function.update_self, Option.some.injEq] at hu
        subst hu
        simp [hstate]
      · simp only [Store.add, Function.update_of_ne hid] at hu
        exact h.dead hu
    freed := fun id' => by
      by_cases hid : id' = s.next
      · subst hid
        simp [Store.add, h.freed]
      · have hlt : id' < s.next + 1 ↔ id' < s.next := by omega
        simp [Store.add, hid, h.freed, hlt]
    fresh := fun {id' u} hu => by
      show id' < s.next + 1
      by_cases hid : id' = s.next
      · omega
      · simp only [Store.add, Function.update_of_ne hid] at hu
        exact Nat.lt_succ_of_lt (h.fresh hu)
    faulted := h.faulted }

omit [DecidableEq ι] [DecidableEq σ] in
/-- Other references are held. -/
theorem reheld {extra' : Nat → Nat} {held : ι → List Nat} (h : Counted dead extra s)
    (hrefs : ∀ id, (∑ j, (held j).count id) + extra' id = s.refs id + extra id)
    (hlive : ∀ {j id}, id ∈ held j → ∃ o, s.heap id = some o) :
    Counted dead extra' { s with held } where
  count {id o} ho := by
    have hid := hrefs id
    have hcount := h.count ho
    show o.refCount = o.own + (∑ j, (held j).count id) + extra' id
    omega
  pos := h.pos
  live := hlive
  table := h.table
  dead := h.dead
  freed := h.freed
  fresh := h.fresh
  faulted := h.faulted

omit [DecidableEq σ] in
theorem lock (h : Counted dead balanced s) (ho : s.heap id = some o) :
    Counted dead balanced (s.lock i id o) := by
  have hwrite : Counted dead (owed id) (s.write id { o with refCount := o.refCount + 1 }) := by
    refine h.write ho rfl ?_ (Nat.succ_pos _) (h.dead (o := o) ho) fun id' hid => owed_of_ne hid
    show o.refCount + 1 = o.own + s.refs id + owed id id
    rw [h.count ho, owed_self]
    rfl
  have hlock : s.lock i id o = { s.write id { o with refCount := o.refCount + 1 } with
      held := Function.update s.held i (id :: s.held i) } := by
    simp [Store.lock, Store.write, (h.pos ho).ne']
  rw [hlock]
  refine hwrite.reheld (fun id' => ?_) fun {j id'} hmem => ?_
  · have hupdate := refs_update s.held i (id :: s.held i) id'
    show (∑ j, (Function.update s.held i (id :: s.held i) j).count id') + 0 =
      (∑ j, (s.held j).count id') + owed id id'
    by_cases hid : id' = id
    · subst hid
      simp only [List.count_cons_self, owed_self] at hupdate ⊢
      omega
    · rw [List.count_cons_of_ne (Ne.symm hid)] at hupdate
      rw [owed_of_ne hid]
      omega
  · by_cases hid : id' = id
    · exact ⟨_, by simp [Store.write, hid]; rfl⟩
    · refine hwrite.live (i := j) ?_
      show id' ∈ s.held j
      by_cases hj : j = i
      · subst hj
        simpa [hid] using hmem
      · simpa [hj] using hmem

theorem drop {rest : List Nat} (h : Counted dead balanced s) (hheld : s.held i = id :: rest) :
    Counted dead balanced ((s.pop i).unlock dead id) := by
  have hmem : id ∈ s.held i := by simp [hheld]
  obtain ⟨o, ho⟩ := h.live hmem
  have hpop : Counted dead (owed id) (s.pop i) := by
    refine h.reheld (fun id' => ?_) fun {j id'} hmem => h.live (i := j) ?_
    · have hupdate := refs_update s.held i (s.held i).tail id'
      show (∑ j, (Function.update s.held i (s.held i).tail j).count id') + owed id id' =
        (∑ j, (s.held j).count id') + 0
      simp only [hheld, List.tail_cons] at hupdate ⊢
      by_cases hid : id' = id
      · subst hid
        rw [List.count_cons_self] at hupdate
        rw [owed_self]
        omega
      · rw [List.count_cons_of_ne (Ne.symm hid)] at hupdate
        rw [owed_of_ne hid]
        omega
    · by_cases hj : j = i
      · subst hj
        rw [Function.update_self] at hmem
        exact List.mem_of_mem_tail hmem
      · simpa [hj] using hmem
  exact hpop.unlock (o := o) ho

omit [DecidableEq ι] [DecidableEq σ] in
theorem setState {state : σ} (h : Counted dead balanced s) (ho : s.heap id = some o)
    (hne : o.state ≠ dead) (hstate : state ≠ dead) :
    Counted dead balanced (s.write id { o with state }) := by
  refine h.write ho rfl (h.count (o := o) ho) (h.pos (o := o) ho) ?_ fun _ _ => rfl
  show state = dead ↔ o.retired = true
  rw [← h.dead ho]
  simp [hne, hstate]

omit [DecidableEq ι] in
theorem retire (h : Counted dead balanced s) (ho : s.heap id = some o) (hne : o.state ≠ dead) :
    Counted dead balanced (s.retire dead id o) := by
  have hretired : o.retired = false := by
    rw [← Bool.not_eq_true, ← h.dead ho]
    exact hne
  refine unlock (o := { o with state := dead, retired := true }) ?_ (Function.update_self _ _ _)
  refine h.write ho rfl ?_ (h.pos (o := o) ho) (by simp) fun id' hid => owed_of_ne hid
  show o.refCount = 0 + s.refs id + owed id id
  have hcount := h.count ho
  simp only [Object.own, hretired] at hcount
  rw [hcount, owed_self]
  show 1 + s.refs id + 0 = _
  omega

end Counted

/-! ## Threads -/

/-- The objects of the references are in states of the sets. -/
def Fits (s : Store ι σ) (ids : List Nat) (Ks : List (Set σ)) : Prop :=
  List.Forall₂ (fun id K => ∀ o, s.heap id = some o → o.state ∈ K) ids Ks

/-- The state of an object that stays is what `f` makes of it. -/
def Turned (f : Nat → σ → σ) (s s' : Store ι σ) : Prop :=
  ∀ id o o', s.heap id = some o → s'.heap id = some o' → o'.state = f id o.state

/-- States stay as they are. -/
def Kept (s s' : Store ι σ) : Prop := Turned (fun _ state => state) s s'

/-- The state of one object is set. -/
def Put (id : Nat) (state : σ) (s s' : Store ι σ) : Prop :=
  Turned (Function.update (fun _ t => t) id fun _ => state) s s'

omit [DecidableEq ι] [DecidableEq σ] [Fintype ι] in
theorem Kept.refl (s : Store ι σ) : Kept s s := by
  intro id o o' ho ho'
  rw [ho] at ho'
  exact congrArg Object.state (Option.some.inj ho').symm

omit [DecidableEq ι] [DecidableEq σ] [Fintype ι] in
theorem Kept.write {o' : Object σ} (ho : s.heap id = some o) (hstate : o'.state = o.state) :
    Kept s (s.write id o') := by
  intro id' u u' hu hu'
  by_cases hid : id' = id
  · subst hid
    rw [ho] at hu
    simp only [Store.write, Function.update_self] at hu'
    rw [← Option.some.inj hu, ← Option.some.inj hu', hstate]
  · simp only [Store.write, Function.update_of_ne hid] at hu'
    exact Kept.refl s id' u u' hu hu'

omit [DecidableEq σ] [Fintype ι] in
theorem Kept.lock (ho : s.heap id = some o) : Kept s (s.lock i id o) := by
  have hwrite : Kept s (s.write id { o with refCount := o.refCount + 1 }) := .write ho rfl
  exact hwrite

omit [DecidableEq ι] [DecidableEq σ] [Fintype ι] in
theorem Put.write {state : σ} : Put id state s (s.write id { o with state }) := by
  intro id' u u' hu hu'
  by_cases hid : id' = id
  · subst hid
    simp only [Store.write, Function.update_self] at hu'
    rw [← Option.some.inj hu', Function.update_self]
  · simp only [Store.write, Function.update_of_ne hid] at hu'
    rw [Function.update_of_ne hid]
    exact Kept.refl s id' u u' hu hu'

omit [DecidableEq ι] [Fintype ι] in
theorem Kept.unlock (dead : σ) (id : Nat) : Kept s (s.unlock dead id) := by
  rw [Store.unlock]
  split
  · exact Kept.refl s
  case _ o ho =>
    split
    · exact Kept.refl s
    split
    · intro id' u u' hu hu'
      by_cases hid : id' = id
      · simp [hid] at hu'
      · simp only [Function.update_of_ne hid] at hu'
        exact Kept.refl s id' u u' hu hu'
    · exact .write ho rfl

omit [DecidableEq ι] [DecidableEq σ] in
theorem Kept.add (h : Counted dead extra s) (place : Nat) (state : σ) :
    Kept s (s.add place state) := by
  intro id u u' hu hu'
  have hid : id ≠ s.next := (h.fresh hu).ne
  simp only [Store.add, Function.update_of_ne hid] at hu'
  exact Kept.refl s id u u' hu hu'

omit [DecidableEq ι] [Fintype ι] in
/-- An unlocking leaves what it does not free. -/
theorem exists_heap_of_unlock {u' : Object σ} {id' : Nat}
    (h : (s.unlock dead id).heap id' = some u') : ∃ u, s.heap id' = some u := by
  rw [Store.unlock] at h
  split at h
  · exact ⟨u', h⟩
  case _ o ho =>
    split at h
    · exact ⟨u', h⟩
    · by_cases hid : id' = id
      · exact ⟨o, hid ▸ ho⟩
      split at h
      · simp only [Function.update_of_ne hid] at h
        exact ⟨u', h⟩
      · simp only [Store.write, Function.update_of_ne hid] at h
        exact ⟨u', h⟩

omit [DecidableEq ι] [Fintype ι] in
theorem Put.retire : Put id dead s (s.retire dead id o) := by
  intro id' u u' hu hu'
  obtain ⟨v, hv⟩ := exists_heap_of_unlock hu'
  rw [Kept.unlock dead id id' v u' hv hu']
  exact Put.write (o := { o with retired := true }) id' u v hu hv

omit [DecidableEq ι] [DecidableEq σ] [Fintype ι] in
theorem Fits.kept {s' : Store ι σ} {ids : List Nat} {Ks : List (Set σ)} (h : Fits s ids Ks)
    (hlive : ∀ id ∈ ids, ∃ o, s.heap id = some o) (hkept : Kept s s') : Fits s' ids Ks := by
  induction h with
  | nil => exact .nil
  | @cons id K _ _ hK _ ih =>
    obtain ⟨⟨o, ho⟩, hlive⟩ := List.forall_mem_cons.1 hlive
    refine .cons (fun o' ho' => ?_) (ih hlive)
    rw [hkept id o o' ho ho']
    exact hK o ho

omit [DecidableEq ι] [DecidableEq σ] [Fintype ι] in
theorem Fits.put {s' : Store ι σ} {ids : List Nat} {K : Set σ} {Ks : List (Set σ)} {state : σ}
    (h : Fits s ids Ks) (ho : s.heap id = some o) (hK : o.state ∈ K)
    (hlive : ∀ id ∈ ids, ∃ o, s.heap id = some o) (hput : Put id state s s') :
    Fits s' ids (Ks.map (moved K state)) := by
  induction h with
  | nil => exact .nil
  | @cons id' K' _ _ hK' _ ih =>
    obtain ⟨⟨u, hu⟩, hlive⟩ := List.forall_mem_cons.1 hlive
    refine .cons (fun u' hu' => ?_) (ih hlive)
    rw [hput id' u u' hu hu']
    by_cases hid : id' = id
    · subst hid
      rw [Function.update_self]
      exact .inr ⟨rfl, o.state, hK, hK' o ho⟩
    · rw [Function.update_of_ne hid]
      exact .inl (hK' u hu)

omit [DecidableEq ι] [DecidableEq σ] [Fintype ι] in
theorem Fits.after {d : Discipline σ} {ids : List Nat} {Ks : List (Set σ)} (h : Fits s ids Ks) :
    Fits s ids (Ks.map d.after) := by
  induction h with
  | nil => exact .nil
  | cons hK _ ih => exact .cons (fun o ho => ⟨o.state, hK o ho, d.rely_refl _⟩) ih

/-- What the discipline lets a thread do to a state. -/
def Discipline.Moves (d : Discipline σ) (dead t t' : σ) : Prop :=
  t' = t ∨ d.sets t t' ∨ d.frees t ∧ t' = dead

/-- What a command of the thread `i` makes of the store and of its program. -/
structure Executed (d : Discipline σ) (dead : σ) (i : ι) (s : Store ι σ)
    (r : Store ι σ × Prog σ) : Prop where
  counted : Counted dead balanced r.1
  safe : ∃ Ks, Safe d dead Ks r.2 ∧ Fits r.1 (r.1.held i) Ks
  others : ∀ j, j ≠ i → r.1.held j = s.held j
  moves : ∀ id o o', s.heap id = some o → r.1.heap id = some o' → d.Moves dead o.state o'.state

section

variable {d : Discipline σ} {K : Set σ} {Ks : List (Set σ)} {p next : Prog σ} {n : Nat}

omit [DecidableEq ι] [DecidableEq σ] in
theorem Executed.kept {s' : Store ι σ} (hc : Counted dead balanced s') (hsafe : Safe d dead Ks next)
    (hfits : Fits s' (s'.held i) Ks) (hothers : ∀ j, j ≠ i → s'.held j = s.held j)
    (hkept : Kept s s') : Executed d dead i s (s', next) where
  counted := hc
  safe := ⟨Ks, hsafe, hfits⟩
  others := hothers
  moves id o o' ho ho' := .inl (hkept id o o' ho ho')

omit [DecidableEq ι] [DecidableEq σ] in
/-- The store stays as it is. -/
theorem Executed.stay (hc : Counted dead balanced s) (hsafe : Safe d dead Ks next)
    (hfits : Fits s (s.held i) Ks) : Executed d dead i s (s, next) :=
  .kept hc hsafe hfits (fun _ _ => rfl) (Kept.refl s)

omit [DecidableEq ι] [DecidableEq σ] in
/-- The object on top of the references, when something is known of it. -/
theorem Fits.top (hc : Counted dead balanced s) (h : Fits s (s.held i) (K :: Ks)) :
    ∃ id rest o, s.held i = id :: rest ∧ s.heap id = some o ∧ s.top i = some (id, o) ∧
      o.state ∈ K ∧ Fits s rest Ks := by
  generalize hheld : s.held i = ids at h
  obtain _ | @⟨id, _, rest, _, hK, hKs⟩ := h
  have hmem : id ∈ s.held i := by simp [hheld]
  obtain ⟨o, ho⟩ := hc.live hmem
  exact ⟨id, rest, o, rfl, ho, by simp [Store.top, hheld, ho], hK o ho, hKs⟩

omit [DecidableEq ι] [DecidableEq σ] in
theorem Executed.put {s' : Store ι σ} {rest : List Nat} {state : σ} (hc : Counted dead balanced s)
    (hc' : Counted dead balanced s') (hsafe : Safe d dead ({state} :: Ks.map (moved K state)) next)
    (hheld : s.held i = id :: rest) (ho : s.heap id = some o) (hK : o.state ∈ K)
    (hfits : Fits s rest Ks) (hheld' : s'.held = s.held) (hput : Put id state s s')
    (hmoves : d.Moves dead o.state state) : Executed d dead i s (s', next) where
  counted := hc'
  safe := by
    refine ⟨_, hsafe, ?_⟩
    rw [hheld', hheld]
    refine .cons (fun o' ho' => ?_) (hfits.put ho hK (fun id' hid => ?_) hput)
    · rw [hput id o o' ho ho', Function.update_self]
      rfl
    · exact hc.live (i := i) (by simp [hheld, hid])
  others _ _ := by rw [hheld']
  moves id' u u' hu hu' := by
    rw [hput id' u u' hu hu']
    by_cases hid : id' = id
    · subst hid
      rw [Function.update_self]
      obtain rfl := Option.some.inj (ho.symm.trans hu)
      exact hmoves
    · rw [Function.update_of_ne hid]
      exact .inl rfl

omit [DecidableEq ι] [Fintype ι] in
theorem Store.unlock_held (s : Store ι σ) (dead : σ) (id : Nat) :
    (s.unlock dead id).held = s.held := by
  rw [Store.unlock]
  split
  · rfl
  split
  · rfl
  split <;> rfl

theorem Executed.exec (hc : Counted dead balanced s) (hsafe : Safe d dead Ks p)
    (hfits : Fits s (s.held i) Ks)
    (hfair : ∀ alive any, p = .ask alive any → n = 0 →
      ∀ id o, s.top i = some (id, o) → o.state ≠ dead) :
    Executed d dead i s (s.exec dead i n p) := by
  have hlive : ∀ id ∈ s.held i, ∃ o, s.heap id = some o := fun id => hc.live
  cases hsafe with
  | done => exact .stay hc .done hfits
  | add hnext =>
    rw [Store.exec]
    split
    case isTrue hadd =>
      simp only [Bool.and_eq_true, Option.isNone_iff_eq_none, decide_eq_true_eq] at hadd
      exact .kept (hc.add hadd.1 hadd.2) hnext (hfits.kept hlive (.add hc _ _))
        (fun _ _ => rfl) (.add hc _ _)
    case isFalse => exact .stay hc hnext hfits
  | find hfound hmissing =>
    rw [Store.exec]
    cases hlook : s.look n with
    | none => exact .stay hc hmissing hfits
    | some id =>
      obtain ⟨o, ho⟩ : ∃ o, s.heap id = some o := by
        cases n with
        | zero => simp [Store.look] at hlook
        | succ place =>
          obtain ⟨o, ho, -⟩ := hc.table.1 hlook
          exact ⟨o, ho⟩
      simp only [ho]
      split
      case isFalse => exact .stay hc hmissing hfits
      case isTrue haccepts =>
        have hkept : Kept s (s.lock i id o) := Kept.lock ho
        refine .kept (hc.lock ho) hfound ?_ (fun j hj => ?_) hkept
        · have hheld : (s.lock i id o).held i = id :: s.held i := Function.update_self _ _ _
          rw [hheld]
          refine .cons (fun o' ho' => ?_) (hfits.kept hlive hkept)
          rw [hkept id o o' ho ho']
          exact haccepts
        · exact Function.update_of_ne hj _ _
  | unlock hnext =>
    obtain ⟨id, rest, o, hheld, ho, -, -, hrest⟩ := hfits.top hc
    have hkept : Kept s ((s.pop i).unlock dead id) := Kept.unlock (s := s.pop i) dead id
    have hheld' : ((s.pop i).unlock dead id).held = Function.update s.held i rest := by
      rw [Store.unlock_held, Store.pop, hheld]
      rfl
    rw [Store.exec, hheld]
    refine .kept (hc.drop hheld) hnext ?_ (fun j hj => ?_) hkept
    · rw [hheld', Function.update_self]
      exact hrest.kept (fun id' hid => hlive id' (by simp [hheld, hid])) hkept
    · rw [hheld', Function.update_of_ne hj]
  | pick hps => exact .stay hc (hps n) hfits
  | ask halive hany =>
    rw [Store.exec]
    split
    case isFalse => exact .stay hc hany hfits
    case isTrue hn =>
      obtain ⟨id, rest, o, hheld, ho, htop, hK, hrest⟩ := hfits.top hc
      refine .stay hc halive ?_
      rw [hheld]
      refine .cons (fun o' ho' => ?_) hrest
      obtain rfl := Option.some.inj (ho.symm.trans ho')
      exact ⟨hK, hfair _ _ rfl hn id o htop⟩
  | switch hcases =>
    obtain ⟨id, rest, o, hheld, ho, htop, hK, hrest⟩ := hfits.top hc
    rw [Store.exec, htop]
    refine .stay hc (hcases o.state hK) ?_
    rw [hheld]
    refine .cons (fun o' ho' => ?_) hrest
    obtain rfl := Option.some.inj (ho.symm.trans ho')
    rfl
  | set hsets hstate hnext =>
    obtain ⟨id, rest, o, hheld, ho, htop, hK, hrest⟩ := hfits.top hc
    obtain ⟨hne, hset⟩ := hsets o.state hK
    rw [Store.exec, htop]
    exact .put hc (hc.setState ho hne hstate) hnext hheld ho hK hrest rfl .write (.inr (.inl hset))
  | free hfrees hnext =>
    obtain ⟨id, rest, o, hheld, ho, htop, hK, hrest⟩ := hfits.top hc
    obtain ⟨hne, hfree⟩ := hfrees o.state hK
    rw [Store.exec, htop]
    exact .put hc (hc.retire ho hne) hnext hheld ho hK hrest (Store.unlock_held _ _ _) .retire
      (.inr (.inr ⟨hfree, rfl⟩))
  | wait hnext =>
    exact .stay hc hnext hfits.after

/-! ## Runs -/

omit [DecidableEq σ] in
theorem Weaker.after_after (d : Discipline σ) (Ks : List (Set σ)) :
    Weaker (Ks.map d.after) ((Ks.map d.after).map d.after) := by
  refine List.forall₂_map_right_iff.2 (List.forall₂_same.2 fun K hK => ?_)
  rintro u ⟨t, ht, htu⟩
  obtain ⟨L, -, rfl⟩ := List.mem_map.1 hK
  obtain ⟨s, hs, hst⟩ := ht
  exact ⟨s, hs, d.rely_trans hst htu⟩

omit [DecidableEq ι] [Fintype ι] [DecidableEq σ] in
/-- A thread that has given way goes on as before, whatever the others have done. -/
theorem Safe.others {s' : Store ι σ} {ids : List Nat} (hsafe : Safe d dead Ks p)
    (hidle : p.idle = true) (hfits : Fits s ids Ks) (hlive : ∀ id ∈ ids, ∃ o, s.heap id = some o)
    (hrely : ∀ id o o', s.heap id = some o → s'.heap id = some o' → d.rely o.state o'.state) :
    ∃ Ks', Safe d dead Ks' p ∧ Fits s' ids Ks' := by
  have hafter : Fits s' ids (Ks.map d.after) := by
    clear hsafe
    induction hfits with
    | nil => exact .nil
    | @cons id K _ _ hK _ ih =>
      obtain ⟨⟨o, ho⟩, hlive⟩ := List.forall_mem_cons.1 hlive
      exact .cons (fun o' ho' => ⟨o.state, hK o ho, hrely id o o' ho ho'⟩) (ih hlive)
  cases hsafe with
  | done => exact ⟨_, .done, hafter⟩
  | wait hnext => exact ⟨_, .wait (hnext.mono (.after_after d Ks)), hafter⟩
  | _ => simp [Prog.idle] at hidle

omit [DecidableEq ι] [DecidableEq σ] [Fintype ι] in
theorem Compatible.rely {d : ι → Discipline σ} (h : Compatible d dead) (hij : i ≠ j) {t t' : σ}
    (hmoves : (d i).Moves dead t t') : (d j).rely t t' := by
  obtain rfl | hset | ⟨hfree, rfl⟩ := hmoves
  · exact (d j).rely_refl t'
  · exact h.set hij hset
  · exact h.free hij hfree

end

/-- The counts are right, and each thread is safe with the references that it holds. -/
structure World.Sound (d : ι → Discipline σ) (dead : σ) (w : World ι σ) : Prop where
  counted : Counted dead balanced w.store
  safe : ∀ i, ∃ Ks, Safe (d i) dead Ks (w.prog i) ∧ Fits w.store (w.store.held i) Ks
  idle : ∀ i, i ≠ w.current → (w.prog i).idle = true

namespace World.Sound

variable {d : ι → Discipline σ} {w : World ι σ}

omit [DecidableEq ι] [DecidableEq σ] in
theorem init {main : ι → Prog σ} (hmain : ∀ i, Safe (d i) dead [] (main i)) (i : ι) :
    Sound d dead (.init main i) where
  counted := .init
  safe j := ⟨[], .wait (hmain j), .nil⟩
  idle _ _ := rfl

omit [DecidableEq ι] [Fintype ι] in
theorem fair_ask {i : ι} {n : Nat} (hfair : w.fair dead (i, n) = true) {alive any : Prog σ}
    (hp : w.prog i = .ask alive any) (hn : n = 0) {id : Nat} {o : Object σ}
    (htop : w.store.top i = some (id, o)) : o.state ≠ dead := by
  rw [World.fair, hp] at hfair
  simpa [hn, htop] using hfair

theorem step (h : w.Sound d dead) (hd : Compatible d dead) {e : ι × Nat}
    (hfair : w.fair dead e = true) : (w.step dead e).Sound d dead := by
  obtain ⟨i, n⟩ := e
  rw [World.step]
  split
  case isFalse => exact h
  case isTrue hready =>
    obtain ⟨Ks, hsafe, hfits⟩ := h.safe i
    have hexec := Executed.exec h.counted hsafe hfits
      fun _ _ hp hn _ _ htop => fair_ask hfair hp hn htop
    have hidle : ∀ j, j ≠ i → (w.prog j).idle = true := by
      intro j hji
      by_cases hj : j = w.current
      · subst hj
        simpa [World.ready, Ne.symm hji] using hready
      · exact h.idle j hj
    refine ⟨hexec.counted, fun j => ?_, fun j hji => ?_⟩
    · by_cases hji : j = i
      · subst hji
        simpa using hexec.safe
      · obtain ⟨Ks', hsafe', hfits'⟩ := h.safe j
        show ∃ Ks, Safe (d j) dead Ks (Function.update w.prog i _ j) ∧ Fits _ _ Ks
        rw [Function.update_of_ne hji, hexec.others j hji]
        exact hsafe'.others (hidle j hji) hfits' (fun id => h.counted.live)
          fun id o o' ho ho' => hd.rely (Ne.symm hji) (hexec.moves id o o' ho ho')
    · show (Function.update w.prog i _ j).idle = true
      rw [Function.update_of_ne hji]
      exact hidle j hji

theorem run (h : w.Sound d dead) (hd : Compatible d dead) {es : List (ι × Nat)}
    (hfair : w.fairRun dead es = true) : (w.run dead es).Sound d dead := by
  induction es generalizing w with
  | nil => exact h
  | cons e es ih =>
    rw [World.fairRun, Bool.and_eq_true] at hfair
    exact ih (h.step hd hfair.1) hfair.2

end World.Sound

end

end References
