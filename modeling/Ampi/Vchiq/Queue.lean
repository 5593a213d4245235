-- SUMMARY: The VCHIU queue under any number of pushers, peekers and poppers: order, bounds and wake-ups.
import Ampi.Fifo
import Ampi.Machine

/-!
# The VCHIU queue

Coroutines switch only inside `down`, which yields until the count of the semaphore is
not zero. A semaphore is downed only when the queue looks full or empty, so its count is
no count of entries. It is an `int`, whose increments come round to zero after `2^32`.
-/

namespace VchiuQueue

/-- `sem->count` of a semaphore that was initialized to 0 and has had `n` more ups than downs. -/
def semCount (n : Nat) : BitVec 32 := .ofNat 32 n

/-- `VCHIU_QUEUE_T`. Of its two semaphores `pop` and `push` are the ups less the downs. -/
structure Queue (α : Type*) where
  size : UInt32
  read : UInt32
  write : UInt32
  initialized : Bool
  pop : Nat
  push : Nat
  storage : UInt32 → α

/-- Where a coroutine stands: outside, or in the loop of `down` that the function called. -/
inductive Pc (α : Type*) where
  | outside
  | push (header : α)
  | peek
  | pop

structure State (ι α : Type*) where
  queue : Queue α
  pc : ι → Pc α := fun _ => .outside
  /-- What the calls were given and returned, in the order of their effects. -/
  log : List (Fifo.Op α) := []

inductive Event (ι α : Type*) where
  | push (i : ι) (header : α)
  | peek (i : ι)
  | pop (i : ι)
  | isEmpty (i : ι)
  /-- `ampi_co_yield` returns inside `down`. -/
  | resume (i : ι)

variable {ι α : Type*} [DecidableEq ι]

namespace Queue

/-- `vchiu_queue_init`. -/
def init (size : UInt32) (storage : UInt32 → α) : Queue α where
  size
  read := 0
  write := 0
  initialized := true
  pop := 0
  push := 0
  storage

/-- `vchiu_queue_is_empty`. -/
def isEmpty (q : Queue α) : Bool := q.read == q.write

/-- `vchiu_queue_is_full`, and the test of the loop in `vchiu_queue_push`. -/
def isFull (q : Queue α) : Bool := q.write == q.read + q.size

/-- The test of the loops in `vchiu_queue_peek` and `vchiu_queue_pop`. -/
def looksEmpty (q : Queue α) : Bool := q.write == q.read

/-- `queue->storage[queue->read & (queue->size - 1)]`. -/
def head (q : Queue α) : α := q.storage (q.read &&& (q.size - 1))

/-- `vchiu_queue_push` after its loop. -/
def finishPush (q : Queue α) (header : α) : Queue α :=
  { q with
    storage := Function.update q.storage (q.write &&& (q.size - 1)) header
    write := q.write + 1
    push := q.push + 1 }

/-- `vchiu_queue_peek` after its loop. -/
def finishPeek (q : Queue α) : Queue α := { q with push := q.push + 1 }

/-- `vchiu_queue_pop` after its loop. -/
def finishPop (q : Queue α) : Queue α := { q with read := q.read + 1, pop := q.pop + 1 }

/-- The headers in the queue. -/
def entries (q : Queue α) : List α := Fifo.ring q.size q.storage q.read q.write

end Queue

/-- `while (test) down(sem)`, up to where it is left or `down` yields: what remains of the
semaphore, and whether the loop is left. -/
def downWhile (test : Bool) : Nat → Nat × Bool
  | 0 => (0, !test)
  | n + 1 =>
    if test then if semCount (n + 1) = 0#32 then (n + 1, false) else downWhile test n
    else (n + 1, true)

namespace State

def goto (s : State ι α) (i : ι) (pc : Pc α) : State ι α :=
  { s with pc := Function.update s.pc i pc }

/-- `vchiu_queue_push` from the test of its loop on. -/
def pushLoop (s : State ι α) (i : ι) (header : α) : State ι α :=
  let (pop, left) := downWhile s.queue.isFull s.queue.pop
  let queue := { s.queue with pop }
  if left then
    { s with queue := queue.finishPush header, log := s.log ++ [Fifo.Op.pushed header] }.goto
      i .outside
  else { s with queue }.goto i (.push header)

/-- `vchiu_queue_peek` from the test of its loop on. -/
def peekLoop (s : State ι α) (i : ι) : State ι α :=
  let (push, left) := downWhile s.queue.looksEmpty s.queue.push
  let queue := { s.queue with push }
  if left then
    { s with queue := queue.finishPeek, log := s.log ++ [Fifo.Op.peeked queue.head] }.goto
      i .outside
  else { s with queue }.goto i .peek

/-- `vchiu_queue_pop` from the test of its loop on. -/
def popLoop (s : State ι α) (i : ι) : State ι α :=
  let (push, left) := downWhile s.queue.looksEmpty s.queue.push
  let queue := { s.queue with push }
  if left then
    { s with queue := queue.finishPop, log := s.log ++ [Fifo.Op.popped queue.head] }.goto
      i .outside
  else { s with queue }.goto i .pop

/-- `down` goes on only when the count is not zero, takes a permit and goes back to the
test of the loop that called it. -/
def step (s : State ι α) : Event ι α → State ι α
  | .push i header =>
    match s.pc i with
    | .outside => if s.queue.initialized then s.pushLoop i header else s
    | _ => s
  | .peek i =>
    match s.pc i with
    | .outside => s.peekLoop i
    | _ => s
  | .pop i =>
    match s.pc i with
    | .outside => s.popLoop i
    | _ => s
  | .isEmpty i =>
    match s.pc i with
    | .outside => { s with log := s.log ++ [Fifo.Op.tested s.queue.isEmpty] }
    | _ => s
  | .resume i =>
    match s.pc i with
    | .outside => s
    | .push header =>
      if semCount s.queue.pop = 0#32 then s
      else { s with queue := { s.queue with pop := s.queue.pop - 1 } }.pushLoop i header
    | .peek =>
      if semCount s.queue.push = 0#32 then s
      else { s with queue := { s.queue with push := s.queue.push - 1 } }.peekLoop i
    | .pop =>
      if semCount s.queue.push = 0#32 then s
      else { s with queue := { s.queue with push := s.queue.push - 1 } }.popLoop i

abbrev run (s : State ι α) (es : List (Event ι α)) : State ι α := Machine.run step s es

end State

theorem semCount_eq_zero {n : Nat} : semCount n = 0#32 ↔ n % 2 ^ 32 = 0 := by
  rw [← BitVec.toNat_inj, semCount, BitVec.toNat_ofNat]
  rfl

theorem pos_of_semCount {n : Nat} (h : ¬ semCount n = 0#32) : 0 < n := by
  rw [semCount_eq_zero] at h
  omega

theorem eq_zero_of_semCount {n : Nat} (h : semCount n = 0#32) (hlt : n < 2 ^ 32) : n = 0 := by
  rw [semCount_eq_zero] at h
  omega

/-- The loop does not end while the test holds. -/
@[simp] theorem downWhile_true (n : Nat) : (downWhile true n).2 = false := by
  induction n with
  | zero => rfl
  | succ n ih =>
    unfold downWhile
    split
    · split
      · rfl
      · exact ih
    next h => exact absurd rfl h

@[simp] theorem downWhile_false (n : Nat) : downWhile false n = (n, true) := by
  cases n <;> rfl

/-! ## The indices and the entries -/

namespace Queue

variable {k : Nat} {q : Queue α}

theorem length_entries : q.entries.length = (q.write - q.read).toNat := Fifo.length_ring

theorem isEmpty_eq : q.isEmpty = q.entries.isEmpty := Fifo.isEmpty_ring.symm

theorem entries_of_looksEmpty (h : q.looksEmpty = true) : q.entries = [] := by
  rw [entries, beq_iff_eq.1 h, Fifo.ring_self]

theorem entries_of_not_looksEmpty (h : q.looksEmpty = false) :
    q.entries = q.head :: (q.finishPop).entries :=
  Fifo.ring_pop (Ne.symm (beq_eq_false_iff_ne.1 h))

theorem isFull_iff (hsize : q.size.toNat = 2 ^ k) :
    q.isFull = true ↔ q.entries.length = 2 ^ k := by
  rw [isFull, beq_iff_eq, length_entries, ← hsize, UInt32.toNat_inj]
  constructor
  · rintro h
    rw [h, add_sub_cancel_left]
  · intro h
    rw [← h, add_sub_cancel]

theorem entries_finishPush (hsize : q.size.toNat = 2 ^ k) (hroom : q.entries.length < 2 ^ k)
    (header : α) : (q.finishPush header).entries = q.entries ++ [header] :=
  Fifo.ring_push hsize (length_entries ▸ hroom) header

end Queue

namespace State

/-! ## The invariant -/

/-- A pusher is blocked in `down`. -/
def PusherWaits (s : State ι α) : Prop := ∃ i header, s.pc i = .push header

/-- The log belongs to a queue of `2 ^ k` entries that now holds what the ring holds. -/
structure Holds (k : Nat) (s : State ι α) : Prop where
  size : s.queue.size.toNat = 2 ^ k
  initialized : s.queue.initialized = true
  takes : Fifo.Takes (2 ^ k) [] s.log s.queue.entries

/-- The permits that have gone astray are only ever too many. -/
structure Sound (k : Nat) (s : State ι α) : Prop extends Holds k s where
  push : s.queue.entries.length ≤ s.queue.push
  pop : s.PusherWaits → 2 ^ k ≤ s.queue.entries.length + s.queue.pop

variable {k : Nat} {s : State ι α}

omit [DecidableEq ι] in
theorem Holds.length_le (h : s.Holds k) : s.queue.entries.length ≤ 2 ^ k :=
  h.takes.length_le (Nat.zero_le _)

omit [DecidableEq ι] in
theorem Holds.room (h : s.Holds k) (hfull : s.queue.isFull = false) :
    s.queue.entries.length < 2 ^ k := by
  apply lt_of_le_of_ne h.length_le
  intro heq
  rw [(Queue.isFull_iff h.size).2 heq] at hfull
  cases hfull

theorem goto_self (i : ι) (pc : Pc α) : (s.goto i pc).pc i = pc := Function.update_self ..

theorem goto_of_ne {i j : ι} (h : j ≠ i) (pc : Pc α) : (s.goto i pc).pc j = s.pc j :=
  Function.update_of_ne h ..

/-- A coroutine goes on, and does not go to wait for room. -/
theorem pusherWaits_of_goto {i : ι} {pc : Pc α} (h : (s.goto i pc).PusherWaits)
    (hpc : ∀ header, pc ≠ .push header) : s.PusherWaits := by
  obtain ⟨j, header, hj⟩ := h
  by_cases hji : j = i
  · rw [hji, goto_self] at hj
    exact absurd hj (hpc header)
  · rw [goto_of_ne hji] at hj
    exact ⟨j, header, hj⟩

/-! ## The loops -/

theorem pushLoop_of_isFull (h : s.queue.isFull = true) (i : ι) (header : α) :
    s.pushLoop i header =
      { s with queue := { s.queue with pop := (downWhile true s.queue.pop).1 } }.goto
        i (.push header) := by
  simp [pushLoop, h]

theorem pushLoop_of_not_isFull (h : s.queue.isFull = false) (i : ι) (header : α) :
    s.pushLoop i header =
      { s with queue := s.queue.finishPush header, log := s.log ++ [Fifo.Op.pushed header] }.goto
        i .outside := by
  simp [pushLoop, h]

theorem peekLoop_of_looksEmpty (h : s.queue.looksEmpty = true) (i : ι) :
    s.peekLoop i =
      { s with queue := { s.queue with push := (downWhile true s.queue.push).1 } }.goto
        i .peek := by
  simp [peekLoop, h]

theorem peekLoop_of_not_looksEmpty (h : s.queue.looksEmpty = false) (i : ι) :
    s.peekLoop i =
      { s with queue := s.queue.finishPeek, log := s.log ++ [Fifo.Op.peeked s.queue.head] }.goto
        i .outside := by
  simp [peekLoop, h]

theorem popLoop_of_looksEmpty (h : s.queue.looksEmpty = true) (i : ι) :
    s.popLoop i =
      { s with queue := { s.queue with push := (downWhile true s.queue.push).1 } }.goto
        i .pop := by
  simp [popLoop, h]

theorem popLoop_of_not_looksEmpty (h : s.queue.looksEmpty = false) (i : ι) :
    s.popLoop i =
      { s with queue := s.queue.finishPop, log := s.log ++ [Fifo.Op.popped s.queue.head] }.goto
        i .outside := by
  simp [popLoop, h]

namespace Holds

/-- A pusher that waits may hold back one permit. -/
theorem pushLoop (h : s.Holds k) (hpush : s.queue.entries.length ≤ s.queue.push)
    (hpop : s.PusherWaits → 2 ^ k ≤ s.queue.entries.length + s.queue.pop + 1) (i : ι)
    (header : α) : (s.pushLoop i header).Sound k := by
  cases hfull : s.queue.isFull with
  | true =>
    rw [pushLoop_of_isFull hfull]
    exact ⟨⟨h.size, h.initialized, h.takes⟩, hpush,
      fun _ => ((Queue.isFull_iff h.size).1 hfull).ge.trans (Nat.le_add_right ..)⟩
  | false =>
    rw [pushLoop_of_not_isFull hfull]
    have hroom := h.room hfull
    have hentries := Queue.entries_finishPush h.size hroom header
    have hlength : (s.queue.finishPush header).entries.length = s.queue.entries.length + 1 := by
      rw [hentries, List.length_append, List.length_singleton]
    refine ⟨⟨h.size, h.initialized, ?_⟩, ?_, fun hw => ?_⟩
    · change Fifo.Takes _ _ _ (s.queue.finishPush header).entries
      rw [hentries]
      exact h.takes.snoc (.pushed header hroom)
    · change (s.queue.finishPush header).entries.length ≤ s.queue.push + 1
      omega
    · have := hpop (pusherWaits_of_goto hw fun _ => nofun)
      change _ ≤ (s.queue.finishPush header).entries.length + s.queue.pop
      omega

/-- A peeker or popper that waits may hold back one permit. -/
theorem peekLoop (h : s.Holds k) (hpush : s.queue.entries.length ≤ s.queue.push + 1)
    (hpop : s.PusherWaits → 2 ^ k ≤ s.queue.entries.length + s.queue.pop) (i : ι) :
    (s.peekLoop i).Sound k := by
  cases hempty : s.queue.looksEmpty with
  | true =>
    rw [peekLoop_of_looksEmpty hempty]
    have hentries := Queue.entries_of_looksEmpty hempty
    exact ⟨⟨h.size, h.initialized, h.takes⟩,
      (congrArg List.length hentries).le.trans (Nat.zero_le _),
      fun hw => hpop (pusherWaits_of_goto hw fun _ => nofun)⟩
  | false =>
    rw [peekLoop_of_not_looksEmpty hempty]
    have hentries := Queue.entries_of_not_looksEmpty hempty
    have htakes := h.takes
    rw [hentries] at htakes
    refine ⟨⟨h.size, h.initialized, ?_⟩, hpush,
      fun hw => hpop (pusherWaits_of_goto hw fun _ => nofun)⟩
    change Fifo.Takes _ _ _ s.queue.entries
    rw [hentries]
    exact htakes.snoc (.peeked ..)

theorem popLoop (h : s.Holds k) (hpush : s.queue.entries.length ≤ s.queue.push + 1)
    (hpop : s.PusherWaits → 2 ^ k ≤ s.queue.entries.length + s.queue.pop) (i : ι) :
    (s.popLoop i).Sound k := by
  cases hempty : s.queue.looksEmpty with
  | true =>
    rw [popLoop_of_looksEmpty hempty]
    have hentries := Queue.entries_of_looksEmpty hempty
    exact ⟨⟨h.size, h.initialized, h.takes⟩,
      (congrArg List.length hentries).le.trans (Nat.zero_le _),
      fun hw => hpop (pusherWaits_of_goto hw fun _ => nofun)⟩
  | false =>
    rw [popLoop_of_not_looksEmpty hempty]
    have hentries := Queue.entries_of_not_looksEmpty hempty
    have hlength : s.queue.entries.length = s.queue.finishPop.entries.length + 1 :=
      congrArg List.length hentries
    have htakes := h.takes
    rw [hentries] at htakes
    refine ⟨⟨h.size, h.initialized, htakes.snoc (.popped ..)⟩, ?_, fun hw => ?_⟩
    · change s.queue.finishPop.entries.length ≤ s.queue.push
      omega
    · have := hpop (pusherWaits_of_goto hw fun _ => nofun)
      change _ ≤ s.queue.finishPop.entries.length + (s.queue.pop + 1)
      omega

end Holds

/-! ## Runs -/

omit [DecidableEq ι] in
theorem sound_init (k : Nat) (hk : k < 32) (storage : UInt32 → α) :
    ({ queue := .init (UInt32.ofNat (2 ^ k)) storage } : State ι α).Sound k where
  size := UInt32.toNat_ofNat_of_lt' (Nat.pow_lt_pow_right (by decide) hk)
  initialized := rfl
  takes := Fifo.ring_self.symm
  push := (congrArg List.length Fifo.ring_self).le
  pop := nofun

theorem Sound.step (h : s.Sound k) (e : Event ι α) : (s.step e).Sound k := by
  have hholds := h.toHolds
  cases e with
  | push i header =>
    dsimp only [State.step]
    split
    · rw [if_pos h.initialized]
      exact hholds.pushLoop h.push (fun hw => Nat.le_succ_of_le (h.pop hw)) i header
    · exact h
  | peek i =>
    dsimp only [State.step]
    split
    · exact hholds.peekLoop (Nat.le_succ_of_le h.push) h.pop i
    · exact h
  | pop i =>
    dsimp only [State.step]
    split
    · exact hholds.popLoop (Nat.le_succ_of_le h.push) h.pop i
    · exact h
  | isEmpty i =>
    dsimp only [State.step]
    split
    · refine ⟨⟨h.size, h.initialized, ?_⟩, h.push, h.pop⟩
      rw [Queue.isEmpty_eq]
      exact h.takes.snoc (.tested _)
    · exact h
  | resume i =>
    dsimp only [State.step]
    split
    · exact h
    · split
      · exact h
      next hpop =>
        have hpos := pos_of_semCount hpop
        have hready : Holds k { s with queue := { s.queue with pop := s.queue.pop - 1 } } :=
          ⟨h.size, h.initialized, h.takes⟩
        refine hready.pushLoop h.push (fun hw => ?_) ..
        have := h.pop hw
        change _ ≤ s.queue.entries.length + (s.queue.pop - 1) + 1
        omega
    · split
      · exact h
      next hpush =>
        have hpos := pos_of_semCount hpush
        have hready : Holds k { s with queue := { s.queue with push := s.queue.push - 1 } } :=
          ⟨h.size, h.initialized, h.takes⟩
        exact hready.peekLoop (h.push.trans (Nat.sub_add_cancel hpos).ge) h.pop _
    · split
      · exact h
      next hpush =>
        have hpos := pos_of_semCount hpush
        have hready : Holds k { s with queue := { s.queue with push := s.queue.push - 1 } } :=
          ⟨h.size, h.initialized, h.takes⟩
        exact hready.popLoop (h.push.trans (Nat.sub_add_cancel hpos).ge) h.pop _

theorem Sound.run {s : State ι α} (h : s.Sound k) (es : List (Event ι α)) : (s.run es).Sound k :=
  Machine.run_invariant (fun _ e h => h.step e) es h

/-- Every run of any number of coroutines on a queue of a power of two is a run of a
bounded queue, and no coroutine is left blocked by a permit that went astray, unless
`2^32` of them have. -/
theorem queue_faithful (k : Fin 31) (storage : UInt32 → α) (es : List (Event ι α)) :
    let s := State.run { queue := .init (UInt32.ofNat (2 ^ k.val)) storage } es
    let q := s.queue
    (q.write - q.read).toNat ≤ 2 ^ k.val ∧
    Fifo.Takes (2 ^ k.val) [] s.log q.entries ∧
    Fifo.pushes s.log = Fifo.pops s.log ++ q.entries ∧
    (∀ before after header, s.log = before ++ .peeked header :: after →
      (Fifo.pops after ++ q.entries).head? = some header) ∧
    (q.push < 2 ^ 32 → ∀ i, s.pc i = .pop ∨ s.pc i = .peek → semCount q.push = 0#32 →
      q.read = q.write) ∧
    (q.pop < 2 ^ 32 → ∀ i header, s.pc i = .push header → semCount q.pop = 0#32 →
      q.write = q.read + q.size) := by
  intro s q
  have h : s.Sound k.val := (sound_init k.val (by omega) storage).run es
  have hlength : q.entries.length ≤ 2 ^ k.val := h.toHolds.length_le
  refine ⟨Queue.length_entries ▸ hlength, h.takes, h.takes.balance, ?_, ?_, ?_⟩
  · intro before after header hlog
    exact (hlog ▸ h.takes).head_of_peeked
  · intro hfew i _ hcount
    have hzero : q.push = 0 := eq_zero_of_semCount hcount hfew
    have hnone : q.entries.length ≤ 0 := h.push.trans hzero.le
    by_contra hne
    rw [Queue.length_entries] at hnone
    exact (Fifo.toNat_sub_pos hne).not_ge hnone
  · intro hfew i header hi hcount
    have hzero : q.pop = 0 := eq_zero_of_semCount hcount hfew
    have hmany : 2 ^ k.val ≤ q.entries.length + q.pop := h.pop ⟨i, header, hi⟩
    rw [hzero] at hmany
    exact beq_iff_eq.1 ((Queue.isFull_iff h.size).2 (hlength.antisymm hmany))

/-! ## A count that comes round -/

/-- A message comes and is taken by one coroutine, while the other one is not scheduled. -/
def passed : List (Event Bool Unit) := [.push true (), .pop true]

/-- One coroutine waits in `vchiu_queue_pop` on an empty queue of one entry. -/
structure Overtaken (s : State Bool Unit) (n : Nat) : Prop where
  waits : s.pc false = .pop
  outside : s.pc true = .outside
  initialized : s.queue.initialized = true
  size : s.queue.size = 1
  empty : s.queue.write = s.queue.read
  push : s.queue.push = n

theorem ne_add_one (x : UInt32) : x ≠ x + 1 := fun h => absurd (left_eq_add.1 h) (by decide)

theorem Overtaken.push_eq {s : State Bool Unit} {n : Nat} (h : s.Overtaken n) :
    s.step (.push true ()) =
      { s with queue := s.queue.finishPush (), log := s.log ++ [Fifo.Op.pushed ()] }.goto
        true .outside := by
  have hroom : s.queue.isFull = false := by
    rw [Queue.isFull, h.size, h.empty]
    exact beq_false_of_ne (ne_add_one _)
  dsimp only [step]
  rw [h.outside, if_pos h.initialized, pushLoop_of_not_isFull hroom]

theorem Overtaken.run_passed {s : State Bool Unit} {n : Nat} (h : s.Overtaken n) :
    (s.run passed).Overtaken (n + 1) := by
  let t := { s with
    queue := s.queue.finishPush (), log := s.log ++ [Fifo.Op.pushed ()] }.goto true .outside
  have hmessage : t.queue.looksEmpty = false := by
    change (s.queue.write + 1 == s.queue.read) = false
    rw [h.empty]
    exact beq_false_of_ne (ne_add_one _).symm
  have hpop : t.step (.pop true) =
      { t with queue := t.queue.finishPop, log := t.log ++ [Fifo.Op.popped t.queue.head] }.goto
        true .outside := by
    dsimp only [step]
    rw [goto_self, popLoop_of_not_looksEmpty hmessage]
  have hrun : s.run passed = (s.step (.push true ())).step (.pop true) := rfl
  rw [hrun, h.push_eq, hpop]
  refine ⟨?_, goto_self .., h.initialized, h.size, ?_, ?_⟩
  · rw [goto_of_ne (by decide), goto_of_ne (by decide)]
    exact h.waits
  · exact congrArg (· + 1) h.empty
  · exact congrArg (· + 1) h.push

theorem Overtaken.run_replicate {s : State Bool Unit} {m : Nat} (h : s.Overtaken m) (n : Nat) :
    (s.run (List.replicate n passed).flatten).Overtaken (m + n) := by
  induction n generalizing s m with
  | zero => exact h
  | succ n ih =>
    have hnext := ih h.run_passed
    rw [Nat.add_right_comm] at hnext
    rw [List.replicate_succ, List.flatten_cons, State.run, Machine.run_append]
    exact hnext

/-- One message more, and the coroutine is not scheduled. -/
theorem exists_overtaken (n : Nat) :
    ∃ es : List (Event Bool Unit),
      let s := State.run { queue := .init (UInt32.ofNat (2 ^ 0)) fun _ => () } es
      s.pc false = .pop ∧ s.queue.push = n + 1 ∧ s.queue.write = s.queue.read + 1 := by
  let start : State Bool Unit := { queue := .init (UInt32.ofNat (2 ^ 0)) fun _ => () }
  have hwait : (start.run [.pop false]).Overtaken 0 := ⟨rfl, rfl, rfl, rfl, rfl, rfl⟩
  have hlast := hwait.run_replicate n
  rw [Nat.zero_add, State.run, State.run, ← Machine.run_append] at hlast
  refine ⟨[.pop false] ++ (List.replicate n passed).flatten ++ [.push true ()], ?_⟩
  have hrun : start.run ([.pop false] ++ (List.replicate n passed).flatten ++ [.push true ()]) =
      (start.run ([.pop false] ++ (List.replicate n passed).flatten)).step (.push true ()) :=
    Machine.run_append ..
  dsimp only
  rw [hrun, hlast.push_eq]
  refine ⟨?_, congrArg (· + 1) hlast.push, congrArg (· + 1) hlast.empty⟩
  rw [goto_of_ne (by decide)]
  exact hlast.waits

/-- After `2^32` messages that others have been sent the count is zero again, and the queue
is not empty. -/
theorem not_queue_faithful :
    ¬ ∀ (es : List (Event Bool Unit)) (i : Bool),
      let s := State.run { queue := .init (UInt32.ofNat (2 ^ 0)) fun _ => () } es
      s.pc i = .pop → semCount s.queue.push = 0#32 → s.queue.read = s.queue.write := by
  intro h
  obtain ⟨es, hwaits, hpush, hwrite⟩ := exists_overtaken (2 ^ 32 - 1)
  have hempty := h es false hwaits (by rw [hpush]; rfl)
  rw [hwrite] at hempty
  exact ne_add_one _ hempty

end State

end VchiuQueue
