-- SUMMARY: An ideal cooperative scheduler: numbered threads with their own contexts, run in rounds.
import Ampi.Machine
import Mathlib.Data.List.Basic
import Mathlib.Tactic.Common

/-!
# Round-robin scheduling

The main thread gives every other thread one turn a round. A thread runs until it yields,
and its next turn continues in the context in which it has yielded. Threads are numbered
from 1, as the main thread is number 0, and are never taken away.
-/

namespace RoundRobin

/-- What can be seen of a run: `β` says how a thread is entered, `κ` where it goes on. -/
inductive Obs (β κ : Type*) where
  /-- The number of the new thread, or 0 when there is none left. -/
  | created (id : Nat)
  /-- The listener is told whose turn it is. -/
  | told (id : Nat)
  | entered (id : Nat) (entry : β)
  | continued (id : Nat) (context : κ)
  /-- The main thread goes on. -/
  | returned (context : κ)
  | began
  | ended

/-- What the thread that runs does; a context is the one in which it gives way. -/
inductive Event (ε κ : Type*) where
  | create (job : ε)
  | yield (context : κ)
  /-- The main thread begins a round, as it does when it yields. -/
  | poke
  /-- The main thread in a round comes to the next thread. -/
  | turn (context : κ)
  | listen (on : Bool)

inductive Thread (ε κ : Type*) where
  | fresh (job : ε)
  | suspended (context : κ)

structure Ideal (ε κ β : Type*) where
  threads : List (Thread ε κ) := []
  /-- The thread that runs, or the main thread; the first of `threads` has place 0. -/
  running : Option Nat := none
  /-- Where the main thread waits. -/
  main : Option κ := none
  /-- In a round, how many turns have been given. -/
  turns : Option Nat := none
  listens : Bool := false
  log : List (Obs β κ) := []

/-- How many threads there may be, how a thread is entered, and which contexts a thread
can be in. -/
structure System (ε κ β : Type*) where
  limit : Nat
  enter : Nat → ε → β
  fits : Option Nat → κ → Bool

variable {ε κ β : Type*}

namespace Ideal

def say (t : Ideal ε κ β) (o : Obs β κ) : Ideal ε κ β := { t with log := t.log ++ [o] }

/-- The listener is told, and the thread goes on. -/
def switch (t : Ideal ε κ β) (id : Nat) (o : Obs β κ) : Ideal ε κ β :=
  if t.listens then (t.say (.told id)).say o else t.say o

theorem switch_eq (t : Ideal ε κ β) (id : Nat) (o : Obs β κ) :
    t.switch id o =
      { t with log := t.log ++ (if t.listens then [.told id] else []) ++ [o] } := by
  unfold switch
  split
  · rfl
  · rw [List.append_nil]
    rfl

theorem switch_fields (t : Ideal ε κ β) (id : Nat) (o : Obs β κ) :
    (t.switch id o).threads = t.threads ∧ (t.switch id o).turns = t.turns ∧
      (t.switch id o).running = t.running ∧ (t.switch id o).listens = t.listens := by
  rw [switch_eq]
  exact ⟨rfl, rfl, rfl, rfl⟩

/-- The main thread is in a round. -/
def inRound (t : Ideal ε κ β) : Bool := t.running.isNone && t.turns.isSome

end Ideal

namespace System

variable (S : System ε κ β)

def resumed (k : Nat) : Thread ε κ → Obs β κ
  | .fresh job => .entered (k + 1) (S.enter k job)
  | .suspended context => .continued (k + 1) context

def begin (t : Ideal ε κ β) : Ideal ε κ β := { t with turns := some 0 }.say .began

def turn (t : Ideal ε κ β) (k : Nat) (context : κ) : Ideal ε κ β :=
  if k < S.limit then
    match t.threads[k]? with
    | none => { t with turns := some (k + 1) }
    | some thread =>
      { t with
        running := some k
        main := some context
        turns := some (k + 1) }.switch (k + 1) (S.resumed k thread)
  else { t with turns := none }.say .ended

def yield (t : Ideal ε κ β) (context : κ) : Ideal ε κ β :=
  match t.running with
  | none => begin t
  | some k =>
    match t.main with
    | none => t
    | some main =>
      { t with
        threads := t.threads.set k (.suspended context)
        running := none }.switch 0 (.returned main)

theorem yield_eq {t : Ideal ε κ β} {k : Nat} {main : κ} (hrun : t.running = some k)
    (hmain : t.main = some main) (context : κ) :
    yield t context =
      { t with
        threads := t.threads.set k (.suspended context)
        running := none }.switch 0 (.returned main) := by
  simp only [yield, hrun, hmain]

def create (t : Ideal ε κ β) (job : ε) : Ideal ε κ β :=
  if t.threads.length < S.limit then
    { t with threads := t.threads ++ [Thread.fresh job] }.say (.created (t.threads.length + 1))
  else t.say (.created 0)

def step (t : Ideal ε κ β) : Event ε κ → Ideal ε κ β
  | .create job => if t.inRound then t else S.create t job
  | .yield context =>
    if t.inRound || !S.fits t.running context then t else yield t context
  | .poke => if t.running.isSome || t.inRound then t else begin t
  | .turn context =>
    if t.running.isSome || !S.fits none context then t
    else
      match t.turns with
      | none => t
      | some k => S.turn t k context
  | .listen on => if t.inRound then t else { t with listens := on }

abbrev run (es : List (Event ε κ)) : Ideal ε κ β := Machine.run S.step {} es

end System

/-! ## The listener -/

def Obs.told? : Obs β κ → Option Nat
  | .told id => some id
  | _ => none

/-- What the listener was last told. -/
def lastTold (log : List (Obs β κ)) : Option Nat := (log.filterMap Obs.told?).getLast?

/-- The number of the thread that runs. -/
def Ideal.number (t : Ideal ε κ β) : Nat := (t.running.map (· + 1)).getD 0

/-- A step tells nothing and leaves the thread running, or tells which thread runs next. -/
inductive Tells (t t' : Ideal ε κ β) : Prop where
  | nothing (new : List (Obs β κ)) : t'.log = t.log ++ new → lastTold new = none →
    t'.running = t.running → Tells t t'
  | number (new : List (Obs β κ)) : t'.log = t.log ++ new → lastTold new = some t'.number →
    Tells t t'

theorem tells_switch {t : Ideal ε κ β} (hlistens : t.listens) {o : Obs β κ}
    (ho : o.told? = none) (id : Nat) :
    (t.switch id o).log = t.log ++ [.told id, o] ∧ lastTold [.told id, o] = some id := by
  constructor
  · rw [Ideal.switch_eq, if_pos hlistens]
    simp
  · have hnew : [.told id, o].filterMap Obs.told? = [id] := by
      rw [List.filterMap_cons, List.filterMap_cons, ho]
      rfl
    rw [lastTold, hnew]
    rfl

namespace System

variable {S : System ε κ β} {t : Ideal ε κ β}

theorem tells_say {o : Obs β κ} {t' : Ideal ε κ β} (ho : o.told? = none)
    (hlog : t'.log = t.log ++ [o]) (hrunning : t'.running = t.running) : Tells t t' :=
  .nothing [o] hlog (by simp [lastTold, ho]) hrunning

theorem tells_refl (t : Ideal ε κ β) : Tells t t :=
  .nothing [] (List.append_nil _).symm rfl rfl

theorem tells_step (hlistens : t.listens) (e : Event ε κ) : Tells t (S.step t e) := by
  cases e with
  | create job =>
    dsimp only [System.step]
    split
    · exact tells_refl t
    · unfold System.create
      split
      · exact tells_say rfl rfl rfl
      · exact tells_say rfl rfl rfl
  | yield context =>
    dsimp only [System.step]
    split
    · exact tells_refl t
    · cases hrun : t.running with
      | none =>
        have hyield : System.yield t context = System.begin t := by
          simp only [System.yield, hrun]
        rw [hyield]
        exact tells_say rfl rfl rfl
      | some k =>
        cases hmain : t.main with
        | none =>
          have hstay : System.yield t context = t := by simp only [System.yield, hrun, hmain]
          rw [hstay]
          exact tells_refl t
        | some main =>
          rw [yield_eq hrun hmain]
          have htold := tells_switch (o := .returned main) (t := { t with
            threads := t.threads.set k (.suspended context), running := none }) hlistens rfl 0
          refine .number _ htold.1 (htold.2.trans ?_)
          rw [Ideal.switch_eq]
          rfl
  | poke =>
    dsimp only [System.step]
    split
    · exact tells_refl t
    · exact tells_say rfl rfl rfl
  | turn context =>
    dsimp only [System.step]
    split
    · exact tells_refl t
    · split
      · exact tells_refl t
      · next k _ =>
        unfold System.turn
        split
        · split
          · exact .nothing [] (List.append_nil _).symm rfl rfl
          · next thread _ =>
            have ho : (S.resumed k thread).told? = none := by cases thread <;> rfl
            have htold := tells_switch (t := { t with
              running := some k, main := some context, turns := some (k + 1) }) hlistens ho (k + 1)
            refine .number _ htold.1 (htold.2.trans ?_)
            rw [Ideal.switch_eq]
            rfl
        · exact tells_say rfl rfl rfl
  | listen on =>
    dsimp only [System.step]
    split
    · exact tells_refl t
    · exact .nothing [] (List.append_nil _).symm rfl rfl

theorem switch_keeps {t' : Ideal ε κ β} (hlength : t'.threads.length = t.threads.length)
    (hlistens : t'.listens = t.listens) (id : Nat) (o : Obs β κ) :
    (t'.switch id o).threads.length = t.threads.length ∧
      (t'.switch id o).listens = t.listens := by
  obtain ⟨hthreads, -, -, hlistens'⟩ := t'.switch_fields id o
  exact ⟨hthreads ▸ hlength, hlistens'.trans hlistens⟩

/-- Only `create` adds a thread, and only `listen` changes the listener. -/
theorem step_keeps {e : Event ε κ} (hcreate : ∀ job, e ≠ .create job)
    (hlisten : ∀ on, e ≠ .listen on) :
    (S.step t e).threads.length = t.threads.length ∧ (S.step t e).listens = t.listens := by
  cases e with
  | create job => exact absurd rfl (hcreate job)
  | yield context =>
    dsimp only [System.step]
    split
    · exact ⟨rfl, rfl⟩
    · unfold System.yield
      split
      · exact ⟨rfl, rfl⟩
      · split
        · exact ⟨rfl, rfl⟩
        · apply switch_keeps
          · exact List.length_set
          · rfl
  | poke =>
    dsimp only [System.step]
    split <;> exact ⟨rfl, rfl⟩
  | turn context =>
    dsimp only [System.step]
    split
    · exact ⟨rfl, rfl⟩
    · split
      · exact ⟨rfl, rfl⟩
      · unfold System.turn
        split
        · split
          · exact ⟨rfl, rfl⟩
          · exact switch_keeps rfl rfl ..
        · exact ⟨rfl, rfl⟩
  | listen on => exact absurd rfl (hlisten on)

end System

/-! ## Fairness -/

/-- Threads get the numbers 1, 2, ... up to the limit. A round gives one turn each to
thread 1, thread 2, ..., and ends when all `n` that there are by then have had theirs. -/
inductive Fair (limit : Nat) : List (Obs β κ) → Nat → Option Nat → Prop where
  | init : Fair limit [] 0 none
  | created {log : List (Obs β κ)} {n : Nat} {turns : Option Nat} : Fair limit log n turns →
    n < limit → Fair limit (log ++ [.created (n + 1)]) (n + 1) turns
  | full {log : List (Obs β κ)} {turns : Option Nat} : Fair limit log limit turns →
    Fair limit (log ++ [.created 0]) limit turns
  | told {log : List (Obs β κ)} {n : Nat} {turns : Option Nat} (id : Nat) :
    Fair limit log n turns → Fair limit (log ++ [.told id]) n turns
  | entered {log : List (Obs β κ)} {n k : Nat} (entry : β) : Fair limit log n (some k) → k < n →
    Fair limit (log ++ [.entered (k + 1) entry]) n (some (k + 1))
  | continued {log : List (Obs β κ)} {n k : Nat} (context : κ) : Fair limit log n (some k) →
    k < n → Fair limit (log ++ [.continued (k + 1) context]) n (some (k + 1))
  | returned {log : List (Obs β κ)} {n : Nat} {turns : Option Nat} (context : κ) :
    Fair limit log n turns → Fair limit (log ++ [.returned context]) n turns
  | began {log : List (Obs β κ)} {n : Nat} : Fair limit log n none →
    Fair limit (log ++ [.began]) n (some 0)
  | ended {log : List (Obs β κ)} {n : Nat} : Fair limit log n (some n) →
    Fair limit (log ++ [.ended]) n none

namespace System

variable {S : System ε κ β} {t : Ideal ε κ β}

/-- Turns past the last thread are not seen. -/
def turnsSeen (t : Ideal ε κ β) : Option Nat := t.turns.map (min · t.threads.length)

structure Sound (S : System ε κ β) (t : Ideal ε κ β) : Prop where
  fair : Fair S.limit t.log t.threads.length (turnsSeen t)
  few : t.threads.length ≤ S.limit
  /-- A thread runs in the turn that it has been given. -/
  running : ∀ k, t.running = some k → k < t.threads.length ∧ t.turns = some (k + 1)

theorem fair_switch {limit n id : Nat} {turns turns' : Option Nat} {o : Obs β κ}
    (h : Fair limit t.log n turns)
    (ho : ∀ {log : List (Obs β κ)}, Fair limit log n turns → Fair limit (log ++ [o]) n turns') :
    Fair limit (t.switch id o).log n turns' := by
  unfold Ideal.switch
  split
  · exact ho (h.told id)
  · exact ho h

namespace Sound

theorem begin (h : Sound S t) (hturns : t.turns = none) : Sound S (begin t) := by
  have hfair := h.fair
  rw [turnsSeen, hturns] at hfair
  refine ⟨?_, h.few, fun k hk => ?_⟩
  · have hzero : turnsSeen (System.begin t) = some 0 := congrArg some (Nat.zero_min _)
    rw [hzero]
    exact hfair.began
  · have hturn := (h.running k hk).2
    rw [hturns] at hturn
    cases hturn

theorem turn (h : Sound S t) (hidle : t.running = none) {k : Nat} (hturns : t.turns = some k)
    (context : κ) : Sound S (S.turn t k context) := by
  have hfair := h.fair
  have hseen : turnsSeen t = some (min k t.threads.length) := by rw [turnsSeen, hturns]; rfl
  rw [hseen] at hfair
  unfold System.turn
  split
  · split
    · next hnone =>
      -- nobody has the number yet, and nobody can be created before the round ends
      have hle : t.threads.length ≤ k := List.getElem?_eq_none_iff.1 hnone
      refine ⟨?_, h.few, fun j hj => ?_⟩
      · change Fair _ t.log _ (some (min (k + 1) t.threads.length))
        rw [Nat.min_eq_right (Nat.le_succ_of_le hle)]
        rwa [Nat.min_eq_right hle] at hfair
      · exact absurd hj (by simp [hidle])
    · next thread hthread =>
      obtain ⟨hlt, -⟩ := List.getElem?_eq_some_iff.1 hthread
      rw [Nat.min_eq_left (Nat.le_of_lt hlt)] at hfair
      obtain ⟨hthreads, hturns', hrunning, -⟩ := Ideal.switch_fields
        { t with running := some k, main := some context, turns := some (k + 1) } (k + 1)
        (S.resumed k thread)
      refine ⟨?_, ?_, fun j hj => ?_⟩
      · rw [turnsSeen, hthreads, hturns']
        change Fair _ _ _ (some (min (k + 1) t.threads.length))
        rw [Nat.min_eq_left hlt]
        refine fair_switch hfair fun hlog => ?_
        cases thread with
        | fresh job => exact hlog.entered _ hlt
        | suspended context => exact hlog.continued _ hlt
      · rw [hthreads]
        exact h.few
      · rw [hrunning] at hj
        obtain rfl := Option.some.inj hj
        rw [hthreads, hturns']
        exact ⟨hlt, rfl⟩
  · next hlimit =>
    have hle : t.threads.length ≤ k := Nat.le_trans h.few (Nat.not_lt.1 hlimit)
    rw [Nat.min_eq_right hle] at hfair
    exact ⟨hfair.ended, h.few, fun j hj => absurd hj (by simp [Ideal.say, hidle])⟩

theorem yield (h : Sound S t) (hround : t.inRound = false) (context : κ) :
    Sound S (System.yield t context) := by
  have hfair := h.fair
  cases hrun : t.running with
  | none =>
    have hturns : t.turns = none := by simpa [Ideal.inRound, hrun] using hround
    rw [System.yield, hrun]
    exact h.begin hturns
  | some k =>
    cases hmain : t.main with
    | none =>
      have hstay : System.yield t context = t := by simp only [System.yield, hrun, hmain]
      rw [hstay]
      exact h
    | some main =>
      rw [yield_eq hrun hmain]
      obtain ⟨hthreads, hturns, hrunning, -⟩ := Ideal.switch_fields
        { t with threads := t.threads.set k (.suspended context), running := none } 0
        (.returned main)
      refine ⟨?_, ?_, fun j hj => ?_⟩
      · rw [turnsSeen, hthreads, hturns, List.length_set]
        exact fair_switch hfair fun hlog => hlog.returned main
      · rw [hthreads, List.length_set]
        exact h.few
      · rw [hrunning] at hj
        cases hj

theorem create (h : Sound S t) (hround : t.inRound = false) (job : ε) :
    Sound S (S.create t job) := by
  have hfair := h.fair
  unfold System.create
  split
  · next hlt =>
    -- a thread that creates another has had its turn, so the round has not gone past the end
    have hseen : (t.turns.map (min · (t.threads.length + 1))) = turnsSeen t := by
      cases hrun : t.running with
      | none =>
        have hturns : t.turns = none := by simpa [Ideal.inRound, hrun] using hround
        simp [turnsSeen, hturns]
      | some k =>
        obtain ⟨hk, hturns⟩ := h.running k hrun
        simp only [turnsSeen, hturns, Option.map_some]
        rw [Nat.min_eq_left hk, Nat.min_eq_left (Nat.le_succ_of_le hk)]
    have hlength : (t.threads ++ [Thread.fresh job]).length = t.threads.length + 1 :=
      List.length_append
    refine ⟨?_, Nat.le_trans (Nat.le_of_eq hlength) hlt, fun k hk => ?_⟩
    · change Fair _ _ (t.threads ++ [Thread.fresh job]).length
        (t.turns.map (min · (t.threads ++ [Thread.fresh job]).length))
      rw [hlength, hseen]
      exact hfair.created hlt
    · obtain ⟨hlt', hturns⟩ := h.running k hk
      exact ⟨Nat.lt_of_lt_of_eq (Nat.lt_succ_of_lt hlt') hlength.symm, hturns⟩
  · next hfull =>
    have hlimit : t.threads.length = S.limit := Nat.le_antisymm h.few (Nat.not_lt.1 hfull)
    rw [hlimit] at hfair
    refine ⟨?_, h.few, h.running⟩
    change Fair _ _ t.threads.length (turnsSeen t)
    rw [hlimit]
    exact hfair.full

theorem step (h : Sound S t) (e : Event ε κ) : Sound S (S.step t e) := by
  cases e with
  | create job =>
    dsimp only [System.step]
    split
    · exact h
    · next hround => exact h.create (by simpa using hround) job
  | yield context =>
    dsimp only [System.step]
    split
    · exact h
    · next hgo =>
      rw [Bool.or_eq_true, not_or] at hgo
      exact h.yield (by simpa using hgo.1) context
  | poke =>
    dsimp only [System.step]
    split
    · exact h
    · next hgo =>
      rw [Bool.or_eq_true, not_or] at hgo
      have hrun : t.running = none := by simpa using hgo.1
      exact h.begin (by simpa [Ideal.inRound, hrun] using hgo.2)
  | turn context =>
    dsimp only [System.step]
    split
    · exact h
    · next hgo =>
      rw [Bool.or_eq_true, not_or] at hgo
      split
      · exact h
      · next k hturns => exact h.turn (by simpa using hgo.1) hturns context
  | listen on =>
    dsimp only [System.step]
    split
    · exact h
    · exact ⟨h.fair, h.few, h.running⟩

end Sound

theorem sound_init (S : System ε κ β) : Sound S {} where
  fair := .init
  few := Nat.zero_le _
  running k hk := by cases hk

/-- Every run of the ideal scheduler is fair. -/
theorem fair_run (S : System ε κ β) (es : List (Event ε κ)) :
    Fair S.limit (S.run es).log (S.run es).threads.length (turnsSeen (S.run es)) :=
  (Machine.run_invariant (I := Sound S) (fun _ e h => h.step e) es
    (sound_init S)).fair

end System

end RoundRobin
