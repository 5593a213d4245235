-- SUMMARY: Circular doubly linked lists with a head node: insertion, deletion and the walk.
import Mathlib.Data.List.Chain
import Mathlib.Data.List.Nodup
import Mathlib.Logic.Function.Basic

/-!
# Circular doubly linked lists

Every node has two links, also when it is on no list. A head node and the nodes that
follow it form a ring.
-/

structure Links (α : Type*) where
  next : α → α
  prev : α → α

namespace Links

variable {α : Type*} [DecidableEq α]

def setNext (L : Links α) (a b : α) : Links α := { L with next := Function.update L.next a b }

def setPrev (L : Links α) (a b : α) : Links α := { L with prev := Function.update L.prev a b }

/-- A node on its own. -/
def init (L : Links α) (a : α) : Links α := (L.setNext a a).setPrev a a

/-- Insert `e` behind `p`. -/
def add (L : Links α) (e p : α) : Links α :=
  let n := L.next p
  (((L.setPrev n e).setNext e n).setPrev e p).setNext p e

def del (L : Links α) (e : α) : Links α :=
  let p := L.prev e
  let n := L.next e
  (L.setPrev n p).setNext p n

/-- Walk on from a node to the first one that `test` holds of, at the latest to the head;
the count bounds the turns. -/
def walk (L : Links α) (head : α) (test : α → Bool) : Nat → α → Option α
  | 0, _ => none
  | turns + 1, a =>
    if a = head then some a
    else if test a then some a
    else L.walk head test turns (L.next a)

theorem next_init_self (L : Links α) (a : α) : (L.init a).next a = a := Function.update_self ..

theorem next_init_of_ne {a e : α} (h : a ≠ e) (L : Links α) : (L.init e).next a = L.next a :=
  Function.update_of_ne h ..

def Adjacent (L : Links α) (a b : α) : Prop := L.next a = b ∧ L.prev b = a

/-- The nodes `xs` follow `head`, and `head` follows them. -/
structure Ring (L : Links α) (head : α) (xs : List α) : Prop where
  chain : (head :: xs ++ [head]).IsChain L.Adjacent
  nodup : (head :: xs).Nodup

variable {L L' : Links α} {head p e : α} {xs ys l m : List α}

omit [DecidableEq α] in
/-- Links that only differ elsewhere. -/
theorem chain_frame (h : l.IsChain L.Adjacent) (hnext : ∀ a ∈ l.dropLast, L'.next a = L.next a)
    (hprev : ∀ b ∈ l.tail, L'.prev b = L.prev b) : l.IsChain L'.Adjacent := by
  rw [List.isChain_iff_forall_rel_of_append_cons_cons] at h ⊢
  intro a b l₁ l₂ hl
  obtain ⟨hab, hba⟩ := h hl
  have ha : a ∈ l.dropLast := by simp [hl]
  have hb : b ∈ l.tail := by cases l₁ <;> simp [hl]
  exact ⟨(hnext a ha).trans hab, (hprev b hb).trans hba⟩

namespace Ring

variable {n : α} {r : List α}

/-! ## The two sides of a place in the ring -/

omit [DecidableEq α] in
theorem cycle_eq (hxs : head :: xs = l ++ p :: m) (hm : m ++ [head] = n :: r) :
    head :: xs ++ [head] = l ++ p :: n :: r := by
  rw [hxs, ← hm, List.append_assoc, List.cons_append]

omit [DecidableEq α] in
theorem sides (h : Ring L head xs) (hxs : head :: xs = l ++ p :: m) (hm : m ++ [head] = n :: r) :
    (l ++ [p]).IsChain L.Adjacent ∧ L.Adjacent p n ∧ (n :: r).IsChain L.Adjacent := by
  have hchain := h.chain
  rwa [cycle_eq hxs hm, List.isChain_append_cons_cons] at hchain

omit [DecidableEq α] in
/-- What comes next after the place comes nowhere else. -/
theorem next_notMem (hnodup : (head :: xs).Nodup) (hxs : head :: xs = l ++ p :: m)
    (hm : m ++ [head] = n :: r) : n ∉ (l ++ [p]).tail ∧ n ∉ r := by
  have hhead : head ∈ l ++ [p] := by
    cases l <;> simp_all
  have hparts : (l ++ [p] ++ m).Nodup := by
    rw [List.append_assoc, List.singleton_append, ← hxs]
    exact hnodup
  have hdisjoint := List.disjoint_of_nodup_append hparts
  cases m with
  | nil =>
    obtain ⟨rfl, rfl⟩ := List.cons.inj hm
    refine ⟨?_, List.not_mem_nil⟩
    rw [← hxs]
    exact (List.nodup_cons.1 hnodup).1
  | cons y m =>
    obtain ⟨rfl, rfl⟩ := List.cons.inj hm
    refine ⟨fun hy => hdisjoint (List.mem_of_mem_tail hy) List.mem_cons_self, ?_⟩
    have hy : y ∉ m := (List.nodup_cons.1 hparts.of_append_right).1
    have hne : y ≠ head := fun heq => hdisjoint hhead (heq ▸ List.mem_cons_self)
    simp [hy, hne]

omit [DecidableEq α] in
/-- Links that differ only at the place itself leave the two sides as they are. -/
theorem sides_frame (L' : Links α) (hnodup : (head :: xs).Nodup) (hxs : head :: xs = l ++ p :: m)
    (hm : m ++ [head] = n :: r) (hl : (l ++ [p]).IsChain L.Adjacent)
    (hr : (n :: r).IsChain L.Adjacent)
    (hnext : ∀ a ∈ head :: xs, a ≠ p → L'.next a = L.next a)
    (hprev : ∀ a ∈ head :: xs, a ≠ n → L'.prev a = L.prev a) :
    (l ++ [p]).IsChain L'.Adjacent ∧ (n :: r).IsChain L'.Adjacent := by
  obtain ⟨hnl, hnr⟩ := next_notMem hnodup hxs hm
  have hp : p ∉ l ∧ p ∉ m := by
    rw [hxs, List.nodup_middle, List.nodup_cons] at hnodup
    simpa using hnodup.1
  rw [hxs] at hnext hprev
  constructor
  · refine chain_frame hl (fun a ha => ?_) fun b hb => ?_
    · rw [List.dropLast_concat] at ha
      exact hnext a (by simp [ha]) fun heq => hp.1 (heq ▸ ha)
    · have hmem := List.mem_of_mem_tail hb
      exact hprev b (by simp at hmem ⊢; tauto) fun heq => hnl (heq ▸ hb)
  · refine chain_frame hr (fun a ha => ?_) fun b hb => ?_
    · rw [← hm, List.dropLast_concat] at ha
      exact hnext a (by simp [ha]) fun heq => hp.2 (heq ▸ ha)
    · have hmem : b ∈ m ++ [head] := hm ▸ List.mem_cons_of_mem _ hb
      have hhead : head ∈ l ++ p :: m := hxs ▸ List.mem_cons_self
      refine hprev b ?_ fun heq => hnr (heq ▸ hb)
      rcases List.mem_append.1 hmem with hbm | hbh
      · simp [hbm]
      · rw [List.mem_singleton.1 hbh]
        exact hhead

/-! ## The operations -/

/-- A node that is on no ring is set on its own. -/
theorem init (h : Ring L head xs) (he : e ∉ head :: xs) : Ring (L.init e) head xs := by
  refine ⟨?_, h.nodup⟩
  have hmem {a : α} (ha : a ∈ head :: xs ++ [head]) : a ≠ e := by
    rintro rfl
    simp at ha he
    tauto
  refine chain_frame h.chain (fun a ha => ?_) fun b hb => ?_
  · exact Function.update_of_ne (hmem (List.dropLast_subset _ ha)) ..
  · exact Function.update_of_ne (hmem (List.mem_of_mem_tail hb)) ..

theorem add (h : Ring L head xs) (hxs : head :: xs = l ++ p :: m) (he : e ∉ head :: xs)
    (hys : head :: ys = l ++ p :: e :: m) : Ring (L.add e p) head ys := by
  obtain ⟨n, r, hm⟩ := List.exists_cons_of_ne_nil (l := m ++ [head]) (by simp)
  obtain ⟨hl, ⟨hpn, hnp⟩, hr⟩ := h.sides hxs hm
  have hp : p ∈ head :: xs := by simp [hxs]
  have hn : n ∈ head :: xs := by
    have hmem : n ∈ m ++ [head] := hm ▸ List.mem_cons_self
    rcases List.mem_append.1 hmem with hnm | hnh
    · simp [hxs, hnm]
    · simp [List.mem_singleton.1 hnh]
  have hpe : p ≠ e := fun heq => he (heq ▸ hp)
  have hne : n ≠ e := fun heq => he (heq ▸ hn)
  obtain ⟨hl', hr'⟩ := sides_frame (L.add e p) h.nodup hxs hm hl hr
    (fun a ha hap => by
      have hae : a ≠ e := fun heq => he (heq ▸ ha)
      simp [Links.add, setNext, setPrev, hap, hae])
    (fun a ha han => by
      have hae : a ≠ e := fun heq => he (heq ▸ ha)
      simp [Links.add, setNext, setPrev, hpn, han, hae])
  have hpeL : (L.add e p).Adjacent p e := by
    simp [Adjacent, Links.add, setNext, setPrev]
  have henL : (L.add e p).Adjacent e n := by
    simp [Adjacent, Links.add, setNext, setPrev, hpn, hpe.symm, hne]
  constructor
  · have hcycle : head :: ys ++ [head] = l ++ p :: e :: n :: r := by
      rw [hys, ← hm]
      simp
    rw [hcycle, List.isChain_append_cons_cons, List.isChain_cons_cons]
    exact ⟨hl', hpeL, henL, hr'⟩
  · have hperm : (l ++ p :: e :: m).Perm (e :: (l ++ p :: m)) := by
      rw [List.append_cons, List.append_cons l p m]
      exact List.perm_middle
    rw [hys, hperm.nodup_iff, ← hxs]
    exact List.nodup_cons.2 ⟨he, h.nodup⟩

theorem add_head (h : Ring L head xs) (he : e ∉ head :: xs) :
    Ring (L.add e head) head (e :: xs) :=
  h.add (l := []) rfl he rfl

theorem add_after (h : Ring L head (l ++ p :: m)) (he : e ∉ head :: (l ++ p :: m)) :
    Ring (L.add e p) head (l ++ p :: e :: m) :=
  h.add (l := head :: l) rfl he rfl

theorem del (h : Ring L head (xs ++ e :: ys)) :
    Ring (L.del e) head (xs ++ ys) ∧ L.prev e ∈ head :: xs := by
  obtain ⟨l, p, hlp⟩ : ∃ l p, head :: xs = l ++ [p] :=
    ⟨_, _, (List.dropLast_append_getLast (List.cons_ne_nil head xs)).symm⟩
  obtain ⟨n, r, hm⟩ := List.exists_cons_of_ne_nil (l := ys ++ [head]) (by simp)
  have hxs : head :: (xs ++ ys) = l ++ p :: ys := by
    rw [← List.cons_append, hlp, List.append_assoc]
    rfl
  have hcycle : head :: (xs ++ e :: ys) ++ [head] = l ++ p :: e :: n :: r := by
    rw [← List.cons_append, hlp, ← hm]
    simp
  have hchain := h.chain
  rw [hcycle, List.isChain_append_cons_cons, List.isChain_cons_cons] at hchain
  obtain ⟨hl, ⟨hpe, hep⟩, ⟨hen, hne⟩, hr⟩ := hchain
  have hnodup : (head :: (xs ++ ys)).Nodup :=
    h.nodup.sublist (by simp)
  obtain ⟨hl', hr'⟩ := sides_frame (L.del e) hnodup hxs hm hl hr
    (fun a _ hap => by simp [Links.del, setNext, setPrev, hep, hap])
    (fun a _ han => by simp [Links.del, setNext, setPrev, hen, han])
  have hpn : (L.del e).Adjacent p n := by
    simp [Adjacent, Links.del, setNext, setPrev, hep, hen]
  refine ⟨⟨?_, hnodup⟩, ?_⟩
  · rw [cycle_eq hxs hm, List.isChain_append_cons_cons]
    exact ⟨hl', hpn, hr'⟩
  · rw [hep, hlp]
    simp

/-- A node that is off the ring keeps its link when another one is inserted. -/
theorem next_add {a : α} (hp : p ∈ head :: xs) (ha : a ∉ head :: xs) (hae : a ≠ e) :
    (L.add e p).next a = L.next a := by
  have hap : a ≠ p := fun heq => ha (heq ▸ hp)
  simp [Links.add, setNext, setPrev, hap, hae]

/-- Off the ring, also the deleted node keeps its link. -/
theorem next_del {a : α} (h : Ring L head (xs ++ e :: ys)) (ha : a ∉ head :: (xs ++ ys)) :
    (L.del e).next a = L.next a := by
  have hprev := h.del.2
  have hap : a ≠ L.prev e := by
    rintro rfl
    exact ha (List.mem_append_left ys hprev)
  simp [Links.del, setNext, setPrev, hap]

omit [DecidableEq α] in
theorem next_head (h : Ring L head xs) : L.next head = (xs.head?).getD head := by
  cases xs with
  | nil => exact (List.isChain_cons_cons.1 h.chain).1.1
  | cons x xs => exact (List.isChain_cons_cons.1 h.chain).1.1

omit [DecidableEq α] in
/-- A node of the ring is not linked to itself. -/
theorem next_ne_self (h : Ring L head (xs ++ e :: ys)) : L.next e ≠ e := by
  obtain ⟨n, r, hm⟩ := List.exists_cons_of_ne_nil (l := ys ++ [head]) (by simp)
  obtain ⟨-, ⟨hen, -⟩, -⟩ := h.sides (l := head :: xs) rfl hm
  obtain ⟨hn, -⟩ := next_notMem h.nodup (l := head :: xs) rfl hm
  rintro heq
  rw [hen] at heq
  exact hn (by simp [heq])

theorem walk_of_chain {a : α} (test : α → Bool) {turns : Nat}
    (h : (a :: xs ++ [head]).IsChain L.Adjacent) (hhead : head ∉ xs) (hturns : xs.length < turns) :
    L.walk head test turns (L.next a) = some ((xs.find? test).getD head) := by
  induction xs generalizing a turns with
  | nil =>
    obtain ⟨turns, rfl⟩ := Nat.exists_eq_add_of_lt hturns
    rw [(List.isChain_cons_cons.1 h).1.1]
    simp [walk]
  | cons x xs ih =>
    obtain ⟨⟨hax, -⟩, hrest⟩ := List.isChain_cons_cons.1 h
    rw [List.length_cons] at hturns
    obtain ⟨turns, rfl⟩ : ∃ t, turns = t + 1 := ⟨turns - 1, by omega⟩
    rw [List.mem_cons, not_or] at hhead
    rw [hax, walk, if_neg (Ne.symm hhead.1), List.find?_cons]
    cases htest : test x with
    | true => rfl
    | false => exact ih hrest hhead.2 (by omega)

/-- The walk stops at the first node that the test holds of, if there is one. -/
theorem walk_eq (h : Ring L head xs) (test : α → Bool) {turns : Nat} (hturns : xs.length < turns) :
    L.walk head test turns (L.next head) = some ((xs.find? test).getD head) :=
  walk_of_chain test h.chain (List.nodup_cons.1 h.nodup).1 hturns

end Ring

end Links
