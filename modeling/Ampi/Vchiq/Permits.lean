-- SUMMARY: The permits of a VCHIU queue whose users never wait for a message.
import Ampi.Vchiq.Queue

/-!
# Permits

`shim_callback` pushes messages; `vchi_msg_dequeue`, and `vchi_msg_peek` followed by
`vchi_msg_remove`, take them with `VCHI_FLAGS_NONE`, that is, only when there is one. A
permit is then added for each push and peek and none is ever taken, until an `int` does
not hold their number any more.
-/

namespace VchiuQueue

/-- What the users of the queue of a service do. -/
inductive Use (ι α : Type*) where
  /-- `shim_callback` for a message. -/
  | callback (i : ι) (header : α)
  /-- `ampi_co_yield` returns inside of `vchiu_queue_push`. -/
  | resume (i : ι)
  /-- `vchi_msg_dequeue`. -/
  | dequeue (i : ι)
  /-- `vchi_msg_peek`. -/
  | peek (i : ι)
  /-- `vchi_msg_remove`, for a message that has been peeked at. -/
  | remove (i : ι)

namespace State

variable {ι α : Type*} [DecidableEq ι]

/-- Without `VCHI_FLAGS_BLOCK_UNTIL_OP_COMPLETE` an empty queue is left alone. -/
def use (s : State ι α) : Use ι α → State ι α
  | .callback i header => s.step (.push i header)
  | .resume i => s.step (.resume i)
  | .dequeue i | .remove i => if s.queue.isEmpty then s else s.step (.pop i)
  | .peek i => if s.queue.isEmpty then s else s.step (.peek i)

/-- An `int` holds what both semaphores have had in ups more than downs. -/
def Representable (s : State ι α) : Prop := s.queue.pop < 2147483648 ∧ s.queue.push < 2147483648

/-- The headers that peeks have returned. -/
def peeked? : Fifo.Op α → Option α
  | .peeked x => some x
  | _ => none

def peeks (log : List (Fifo.Op α)) : List α := log.filterMap peeked?

/-- How many messages have been pushed, and peeks found one. -/
def added (log : List (Fifo.Op α)) : Nat := (Fifo.pushes log).length + (peeks log).length

theorem added_append (log log' : List (Fifo.Op α)) :
    added (log ++ log') = added log + added log' := by
  simp only [added, Fifo.pushes, peeks, List.filterMap_append, List.length_append]
  omega

theorem pops_append (log log' : List (Fifo.Op α)) :
    Fifo.pops (log ++ log') = Fifo.pops log ++ Fifo.pops log' := List.filterMap_append

/-! ## The permits -/

/-- Nobody waits for a message, so permits are only added to `push`. -/
structure Unconsumed (s : State ι α) : Prop where
  pc : ∀ i, s.pc i ≠ .peek ∧ s.pc i ≠ .pop
  push : s.queue.push = added s.log
  pop : s.queue.pop ≤ (Fifo.pops s.log).length

variable {s : State ι α} {k : Nat}

omit [DecidableEq ι] in
theorem looksEmpty_of_not_isEmpty {q : Queue α} (h : ¬ q.isEmpty) : q.looksEmpty = false := by
  rw [Queue.isEmpty, beq_iff_eq] at h
  exact beq_false_of_ne (Ne.symm h)

theorem downWhile_le (test : Bool) (n : Nat) : (downWhile test n).1 ≤ n := by
  induction n with
  | zero => rfl
  | succ n ih =>
    unfold downWhile
    split
    · split
      · rfl
      · exact ih.trans (Nat.le_succ n)
    · rfl

/-- A coroutine goes on, to anything but a wait for a message. -/
theorem goto_pc_ne {i : ι} {pc : Pc α} (h : ∀ j, s.pc j ≠ .peek ∧ s.pc j ≠ .pop)
    (hpc : pc ≠ .peek ∧ pc ≠ .pop) (j : ι) :
    (s.goto i pc).pc j ≠ .peek ∧ (s.goto i pc).pc j ≠ .pop := by
  by_cases hj : j = i
  · rw [hj, goto_self]
    exact hpc
  · rw [goto_of_ne hj]
    exact h j

namespace Unconsumed

/-- A push that finds the queue full takes permits of `pop` only. -/
theorem pushLoop (h : s.Unconsumed) (i : ι) (header : α) : (s.pushLoop i header).Unconsumed := by
  cases hfull : s.queue.isFull with
  | true =>
    rw [pushLoop_of_isFull hfull]
    exact ⟨goto_pc_ne h.pc ⟨nofun, nofun⟩, h.push, (downWhile_le ..).trans h.pop⟩
  | false =>
    rw [pushLoop_of_not_isFull hfull]
    refine ⟨goto_pc_ne h.pc ⟨nofun, nofun⟩, ?_, ?_⟩
    · change s.queue.push + 1 = added (s.log ++ [.pushed header])
      rw [added_append, h.push]
      rfl
    · change s.queue.pop ≤ (Fifo.pops (s.log ++ [.pushed header])).length
      rw [pops_append, List.length_append]
      exact Nat.le_add_right_of_le h.pop

theorem peekLoop (h : s.Unconsumed) (hne : ¬ s.queue.isEmpty) (i : ι) :
    (s.peekLoop i).Unconsumed := by
  rw [peekLoop_of_not_looksEmpty (looksEmpty_of_not_isEmpty hne)]
  refine ⟨goto_pc_ne h.pc ⟨nofun, nofun⟩, ?_, ?_⟩
  · change s.queue.push + 1 = added (s.log ++ [.peeked s.queue.head])
    rw [added_append, h.push]
    rfl
  · change s.queue.pop ≤ (Fifo.pops (s.log ++ [.peeked s.queue.head])).length
    rw [pops_append, List.length_append]
    exact Nat.le_add_right_of_le h.pop

theorem popLoop (h : s.Unconsumed) (hne : ¬ s.queue.isEmpty) (i : ι) :
    (s.popLoop i).Unconsumed := by
  rw [popLoop_of_not_looksEmpty (looksEmpty_of_not_isEmpty hne)]
  refine ⟨goto_pc_ne h.pc ⟨nofun, nofun⟩, ?_, ?_⟩
  · change s.queue.push = added (s.log ++ [.popped s.queue.head])
    rw [added_append, h.push]
    rfl
  · change s.queue.pop + 1 ≤ (Fifo.pops (s.log ++ [.popped s.queue.head])).length
    rw [pops_append, List.length_append]
    exact Nat.succ_le_succ h.pop

theorem use (h : s.Unconsumed) (u : Use ι α) : (s.use u).Unconsumed := by
  cases u with
  | callback i header =>
    dsimp only [State.use, State.step]
    split
    · split
      · exact h.pushLoop i header
      · exact h
    · exact h
  | resume i =>
    dsimp only [State.use, State.step]
    split
    · exact h
    · split
      · exact h
      · have hready : Unconsumed { s with queue := { s.queue with pop := s.queue.pop - 1 } } :=
          ⟨h.pc, h.push, (Nat.sub_le ..).trans h.pop⟩
        exact hready.pushLoop ..
    next hpc => exact absurd hpc (h.pc i).1
    next hpc => exact absurd hpc (h.pc i).2
  | dequeue i | remove i =>
    dsimp only [State.use, State.step]
    split
    · exact h
    next hne =>
      split
      · exact h.popLoop hne i
      · exact h
  | peek i =>
    dsimp only [State.use, State.step]
    split
    · exact h
    next hne =>
      split
      · exact h.peekLoop hne i
      · exact h

end Unconsumed

/-- What is proved of the calls of the queue holds for its users. -/
theorem Sound.use (h : s.Sound k) (u : Use ι α) : (s.use u).Sound k := by
  cases u with
  | callback i header => exact h.step (.push i header)
  | resume i => exact h.step (.resume i)
  | dequeue i | remove i | peek i =>
    dsimp only [State.use]
    split
    · exact h
    · exact h.step _

/-- A service's queue after `vchiu_queue_init`. -/
def service (ι : Type*) (k : Fin 31) (storage : UInt32 → α) : State ι α :=
  { queue := .init (UInt32.ofNat (2 ^ k.val)) storage }

/-- The log only grows. -/
theorem log_step (s : State ι α) (e : Event ι α) : ∃ ops, (s.step e).log = s.log ++ ops := by
  have hpush : ∀ (s : State ι α) i header, ∃ ops, (s.pushLoop i header).log = s.log ++ ops := by
    intro s i header
    cases hfull : s.queue.isFull with
    | true => exact ⟨[], by rw [pushLoop_of_isFull hfull, List.append_nil]; rfl⟩
    | false => exact ⟨_, by rw [pushLoop_of_not_isFull hfull]; rfl⟩
  have hpeek : ∀ (s : State ι α) i, ∃ ops, (s.peekLoop i).log = s.log ++ ops := by
    intro s i
    cases hempty : s.queue.looksEmpty with
    | true => exact ⟨[], by rw [peekLoop_of_looksEmpty hempty, List.append_nil]; rfl⟩
    | false => exact ⟨_, by rw [peekLoop_of_not_looksEmpty hempty]; rfl⟩
  have hpop : ∀ (s : State ι α) i, ∃ ops, (s.popLoop i).log = s.log ++ ops := by
    intro s i
    cases hempty : s.queue.looksEmpty with
    | true => exact ⟨[], by rw [popLoop_of_looksEmpty hempty, List.append_nil]; rfl⟩
    | false => exact ⟨_, by rw [popLoop_of_not_looksEmpty hempty]; rfl⟩
  have hsame : ∃ ops, s.log = s.log ++ ops := ⟨[], (List.append_nil _).symm⟩
  unfold step
  split <;> split
  all_goals first
    | exact hsame
    | exact hpeek ..
    | exact hpop ..
    | exact ⟨_, rfl⟩
    | (split; exacts [hpush .., hsame])
    | (split; exacts [hsame, hpush ..])
    | (split; exacts [hsame, hpeek ..])
    | (split; exacts [hsame, hpop ..])

theorem added_use_le (s : State ι α) (u : Use ι α) : added s.log ≤ added (s.use u).log := by
  have hstep : ∀ e, added s.log ≤ added (s.step e).log := by
    intro e
    obtain ⟨ops, hops⟩ := log_step s e
    rw [hops, added_append]
    exact Nat.le_add_right ..
  cases u with
  | callback i header => exact hstep (.push i header)
  | resume i => exact hstep (.resume i)
  | dequeue i | remove i | peek i =>
    dsimp only [State.use]
    split
    · exact Nat.le_refl _
    · exact hstep _

/-! ## Runs -/

omit [DecidableEq ι] in
theorem unconsumed_service (k : Fin 31) (storage : UInt32 → α) :
    (service ι k storage).Unconsumed where
  pc _ := ⟨nofun, nofun⟩
  push := rfl
  pop := Nat.zero_le _

theorem added_run_le (s : State ι α) (us : List (Use ι α)) :
    added s.log ≤ added (Machine.run use s us).log := by
  induction us generalizing s with
  | nil => exact Nat.le_refl _
  | cons u us ih => exact Nat.le_trans (added_use_le s u) (ih _)

omit [DecidableEq ι] in
/-- Every message taken has been pushed, so `push` is the count that overflows first. -/
theorem representable_iff (hsound : s.Sound k) (h : s.Unconsumed) :
    s.Representable ↔ added s.log < 2147483648 := by
  have hbalance := congrArg List.length hsound.takes.balance
  simp only [List.nil_append, List.length_append] at hbalance
  have hpush := h.push
  have hpop := h.pop
  unfold Representable
  unfold added at hpush ⊢
  omega

theorem run_sound (k : Fin 31) (storage : UInt32 → α) (us : List (Use ι α)) :
    (Machine.run use (service ι k storage) us).Sound k.val :=
  Machine.run_invariant (I := Sound k.val) (fun _ u h => h.use u) us
    (sound_init k.val (by omega) storage)

theorem run_unconsumed (k : Fin 31) (storage : UInt32 → α) (us : List (Use ι α)) :
    (Machine.run use (service ι k storage) us).Unconsumed :=
  Machine.run_invariant (I := Unconsumed) (fun _ u h => h.use u) us
    (unconsumed_service k storage)

/-- A service's queue of any size and any number of coroutines: the counts stay
representable exactly if fewer than `2 ^ 31` messages are pushed or peeked at. -/
theorem run_representable_iff (k : Fin 31) (storage : UInt32 → α) (us : List (Use ι α)) :
    (∀ n, (Machine.run use (service ι k storage) (us.take n)).Representable) ↔
      added (Machine.run use (service ι k storage) us).log < 2147483648 := by
  constructor
  · intro hall
    have hend := hall us.length
    rw [List.take_length] at hend
    exact (representable_iff (run_sound k storage us) (run_unconsumed k storage us)).1 hend
  · intro hlt n
    refine (representable_iff (run_sound k storage _) (run_unconsumed k storage _)).2
      (Nat.lt_of_le_of_lt ?_ hlt)
    calc added (Machine.run use (service ι k storage) (us.take n)).log
      _ ≤ added (Machine.run use (Machine.run use (service ι k storage) (us.take n))
            (us.drop n)).log := added_run_le ..
      _ = added (Machine.run use (service ι k storage) us).log := by
        rw [← Machine.run_append, List.take_append_drop]

/-! ## Too many messages -/

/-- One message comes and goes. -/
def turn : List (Use Unit Unit) := [.callback () (), .dequeue ()]

/-- An empty queue with room and nobody in its functions. -/
structure Idle (s : State Unit Unit) : Prop where
  pc : s.pc () = .outside
  initialized : s.queue.initialized = true
  size : s.queue.size = 1
  empty : s.queue.write = s.queue.read

theorem Idle.run_turn {s : State Unit Unit} (h : s.Idle) :
    (Machine.run use s turn).Idle ∧ added (Machine.run use s turn).log = added s.log + 1 := by
  have hone : ∀ x : UInt32, x ≠ x + 1 := fun x hx => absurd (left_eq_add.1 hx) (by decide)
  have hroom : s.queue.isFull = false := by
    rw [Queue.isFull, h.size, h.empty]
    exact beq_false_of_ne (hone _)
  let t := { s with
    queue := s.queue.finishPush (), log := s.log ++ [Fifo.Op.pushed ()] }.goto () .outside
  have hcallback : s.use (.callback () ()) = t := by
    dsimp only [use, step]
    rw [h.pc, if_pos h.initialized, pushLoop_of_not_isFull hroom]
  have hmessage : ¬ t.queue.isEmpty := by
    change ¬ (s.queue.read == s.queue.write + 1) = true
    rw [h.empty, beq_false_of_ne (hone _)]
    decide
  have hdequeue : t.use (.dequeue ()) =
      { t with queue := t.queue.finishPop, log := t.log ++ [Fifo.Op.popped t.queue.head] }.goto
        () .outside := by
    dsimp only [use, step]
    rw [if_neg hmessage, goto_self, popLoop_of_not_looksEmpty (looksEmpty_of_not_isEmpty hmessage)]
  have hrun : Machine.run use s turn = (s.use (.callback () ())).use (.dequeue ()) := rfl
  rw [hrun, hcallback, hdequeue]
  refine ⟨⟨goto_self .., h.initialized, h.size, ?_⟩, ?_⟩
  · change s.queue.write + 1 = s.queue.read + 1
    rw [h.empty]
  · change added (s.log ++ [.pushed ()] ++ [.popped _]) = _
    rw [added_append, added_append]
    rfl

theorem Idle.turns {s : State Unit Unit} (h : s.Idle) (n : Nat) :
    added (Machine.run use s (List.replicate n turn).flatten).log = added s.log + n := by
  induction n generalizing s with
  | zero => rfl
  | succ n ih =>
    obtain ⟨hidle, hadded⟩ := h.run_turn
    rw [List.replicate_succ, List.flatten_cons, Machine.run_append, ih hidle, hadded]
    omega

theorem lt_of_representable_turns {n : Nat}
    (h : (Machine.run use (service Unit 0 fun _ => ())
      (List.replicate n turn).flatten).Representable) : n < 2147483648 := by
  have hfew := (representable_iff (run_sound 0 _ _) (run_unconsumed 0 _ _)).1 h
  have hidle : (service Unit 0 fun _ => ()).Idle := ⟨rfl, rfl, rfl, rfl⟩
  rw [hidle.turns] at hfew
  exact Nat.lt_of_le_of_lt (Nat.le_add_left ..) hfew

/-- `2 ^ 31` messages, each taken before the next one comes. -/
theorem not_run_representable :
    ¬ ∀ (us : List (Use Unit Unit)) (n : Nat),
      (Machine.run use (service Unit 0 fun _ => ()) (us.take n)).Representable := by
  intro h
  have hall : ∀ n, n < 2147483648 := fun n => by
    refine lt_of_representable_turns ?_
    rw [← List.take_length (l := (List.replicate n turn).flatten)]
    exact h _ _
  exact Nat.lt_irrefl _ (hall 2147483648)

end State
end VchiuQueue
