-- SUMMARY: The emulated reader-writer lock: when sections exclude each other and when waiters wedge.
import Ampi.Machine
import Ampi.Parties
import Mathlib.Data.Nat.Bitwise
import Mathlib.Tactic.Common

/-!
# Reader-writer locks

`rwlock_t` is one word: a count of the readers, waiting ones included, and a bit for the
writer. A lock function announces its request in the word and then yields until the word
allows it, so coroutines switch inside the two loops and inside the sections.
-/

namespace RwLock

/-- `WRITE_LOCK`. -/
def writeLockBit : UInt32 := (1 : UInt32) <<< 31

/-- Where a coroutine stands. -/
inductive Pc where
  | outside
  /-- In the loop of `read_lock_bh`. -/
  | readWait
  | reading
  /-- In the loop of `write_lock_bh`. -/
  | writeWait
  | writing
  deriving DecidableEq, Repr

namespace Pc

/-- Counted in the word. -/
def isReader : Pc → Bool
  | .readWait | .reading => true
  | _ => false

def isWriter : Pc → Bool
  | .writeWait | .writing => true
  | _ => false

def waits : Pc → Bool
  | .readWait | .writeWait => true
  | _ => false

def inside : Pc → Bool
  | .reading | .writing => true
  | _ => false

end Pc

/-- `rwlock_init`, with all coroutines outside. -/
structure State (ι : Type*) where
  lock : UInt32 := 0
  pc : ι → Pc := fun _ => .outside

inductive Event (ι : Type*) where
  | readLock (i : ι)
  | readUnlock (i : ι)
  | writeLock (i : ι)
  | writeUnlock (i : ι)
  /-- `ampi_co_yield` returns in one of the loops. -/
  | resume (i : ι)

variable {ι : Type*} [DecidableEq ι]

namespace State

/-- The test of the loop in `read_lock_bh`. -/
def readBlocked (s : State ι) : Bool := writeLockBit ≤ s.lock

/-- The test of the loop in `write_lock_bh`. -/
def writeBlocked (s : State ι) : Bool := s.lock &&& ~~~writeLockBit ≠ 0

def goto (s : State ι) (i : ι) (pc : Pc) : State ι := { s with pc := Function.update s.pc i pc }

/-- One turn of the loop in `read_lock_bh`. -/
def readLoop (s : State ι) (i : ι) : State ι :=
  s.goto i (if s.readBlocked then .readWait else .reading)

/-- One turn of the loop in `write_lock_bh`. -/
def writeLoop (s : State ι) (i : ι) : State ι :=
  s.goto i (if s.writeBlocked then .writeWait else .writing)

def step (s : State ι) : Event ι → State ι
  | .readLock i =>
    match s.pc i with
    | .outside => { s with lock := s.lock + 1 }.readLoop i
    | _ => s
  | .readUnlock i =>
    match s.pc i with
    | .reading => { s with lock := s.lock - 1 }.goto i .outside
    | _ => s
  | .writeLock i =>
    match s.pc i with
    | .outside => { s with lock := s.lock ||| writeLockBit }.writeLoop i
    | _ => s
  | .writeUnlock i =>
    match s.pc i with
    | .writing => { s with lock := s.lock &&& ~~~writeLockBit }.goto i .outside
    | _ => s
  | .resume i =>
    match s.pc i with
    | .readWait => s.readLoop i
    | .writeWait => s.writeLoop i
    | _ => s

abbrev run (s : State ι) (es : List (Event ι)) : State ι := Machine.run step s es

/-! ## Exclusion and wedges -/

/-- A writer is alone in its section. -/
def Exclusive (s : State ι) : Prop :=
  ∀ i j, s.pc i = .writing → (s.pc j).inside → i = j

def AlwaysExclusive (ι : Type*) [DecidableEq ι] : Prop :=
  ∀ es : List (Event ι), Exclusive (run {} es)

/-- Nobody is inside, somebody waits, and in whatever order the coroutines are resumed
nobody stops waiting. -/
def Wedged (s : State ι) : Prop :=
  (∀ i, (s.pc i).inside = false) ∧ (∃ i, (s.pc i).waits) ∧
    ∀ (schedule : List ι) (i : ι), (s.pc i).waits → ((s.run (schedule.map .resume)).pc i).waits

def NeverWedges (ι : Type*) [DecidableEq ι] : Prop :=
  ∀ es : List (Event ι), ¬ Wedged (run {} es)

/-! ## The word -/

/-- The readers that the word counts. -/
def readers [Fintype ι] (s : State ι) : Nat := Parties.count Pc.isReader s.pc

end State

theorem toNat_writeLockBit : writeLockBit.toNat = 2 ^ 31 := rfl

theorem toNat_or_writeLockBit (w : UInt32) :
    (w ||| writeLockBit).toNat = w.toNat % 2 ^ 31 + 2 ^ 31 := by
  have hw := w.toNat_lt
  have hlow : w.toNat % 2 ^ 31 < 2 ^ 31 := Nat.mod_lt _ (by decide)
  have hsplit := Nat.two_pow_add_eq_or_of_lt hlow 1
  rw [Nat.mul_one] at hsplit
  rw [UInt32.toNat_or, toNat_writeLockBit, Nat.or_comm]
  by_cases hbit : w.toNat < 2 ^ 31
  · rw [Nat.mod_eq_of_lt hbit] at hsplit ⊢
    omega
  · have heq : w.toNat = 2 ^ 31 ||| w.toNat % 2 ^ 31 := by omega
    conv_lhs => rw [heq, ← Nat.or_assoc, Nat.or_self, ← hsplit]
    omega

theorem toNat_and_not_writeLockBit (w : UInt32) :
    (w &&& ~~~writeLockBit).toNat = w.toNat % 2 ^ 31 := by
  have hmask : (~~~writeLockBit).toNat = 2 ^ 31 - 1 := rfl
  rw [UInt32.toNat_and, hmask, Nat.and_two_pow_sub_one_eq_mod]

namespace State

variable {s : State ι} {i : ι}

@[simp] theorem goto_lock (pc : Pc) : (s.goto i pc).lock = s.lock := rfl

@[simp] theorem goto_self (pc : Pc) : (s.goto i pc).pc i = pc := Function.update_self ..

theorem goto_of_ne {j : ι} (h : j ≠ i) (pc : Pc) : (s.goto i pc).pc j = s.pc j :=
  Function.update_of_ne h ..

theorem readers_goto [Fintype ι] (s : State ι) (i : ι) (pc : Pc) :
    (s.goto i pc).readers + (s.pc i).isReader.toNat = s.readers + pc.isReader.toNat :=
  Parties.count_update ..

omit [DecidableEq ι] in
theorem readBlocked_iff : s.readBlocked = true ↔ 2 ^ 31 ≤ s.lock.toNat := by
  rw [readBlocked, decide_eq_true_eq, UInt32.le_iff_toNat_le, toNat_writeLockBit]

omit [DecidableEq ι] in
theorem writeBlocked_iff : s.writeBlocked = true ↔ s.lock.toNat % 2 ^ 31 ≠ 0 := by
  rw [writeBlocked, decide_eq_true_eq, Ne, ← UInt32.toNat_inj, toNat_and_not_writeLockBit]
  rfl

/-! ## What one step does -/

/-- A reader goes in when the writer's bit is clear. -/
inductive ReadTurn (s : State ι) : Pc → Prop where
  | blocked : 2 ^ 31 ≤ s.lock.toNat → ReadTurn s .readWait
  | enters : s.lock.toNat < 2 ^ 31 → ReadTurn s .reading

/-- A writer goes in when the count of readers is zero. -/
inductive WriteTurn (s : State ι) : Pc → Prop where
  | blocked : s.lock.toNat % 2 ^ 31 ≠ 0 → WriteTurn s .writeWait
  | enters : s.lock.toNat % 2 ^ 31 = 0 → WriteTurn s .writing

inductive Step (s : State ι) : Event ι → State ι → Prop where
  | stay (e : Event ι) : Step s e s
  | readLock {i : ι} {pc : Pc} : s.pc i = .outside → ReadTurn { s with lock := s.lock + 1 } pc →
    Step s (.readLock i) ({ s with lock := s.lock + 1 }.goto i pc)
  | readAgain {i : ι} {pc : Pc} : s.pc i = .readWait → ReadTurn s pc →
    Step s (.resume i) (s.goto i pc)
  | readUnlock {i : ι} : s.pc i = .reading →
    Step s (.readUnlock i) ({ s with lock := s.lock - 1 }.goto i .outside)
  | writeLock {i : ι} {pc : Pc} : s.pc i = .outside →
    WriteTurn { s with lock := s.lock ||| writeLockBit } pc →
    Step s (.writeLock i) ({ s with lock := s.lock ||| writeLockBit }.goto i pc)
  | writeAgain {i : ι} {pc : Pc} : s.pc i = .writeWait → WriteTurn s pc →
    Step s (.resume i) (s.goto i pc)
  | writeUnlock {i : ι} : s.pc i = .writing →
    Step s (.writeUnlock i) ({ s with lock := s.lock &&& ~~~writeLockBit }.goto i .outside)

omit [DecidableEq ι] in
theorem readTurn (s : State ι) : ReadTurn s (if s.readBlocked then .readWait else .reading) := by
  split
  · next h => exact .blocked (readBlocked_iff.1 h)
  · next h => exact .enters (Nat.lt_of_not_le (readBlocked_iff.not.1 h))

omit [DecidableEq ι] in
theorem writeTurn (s : State ι) :
    WriteTurn s (if s.writeBlocked then .writeWait else .writing) := by
  split
  · next h => exact .blocked (writeBlocked_iff.1 h)
  · next h => exact .enters (not_ne_iff.1 (writeBlocked_iff.not.1 h))

theorem step_rule (s : State ι) (e : Event ι) : Step s e (s.step e) := by
  cases e with
  | readLock i =>
    dsimp only [step]
    split
    · next h => exact .readLock h (readTurn _)
    · exact .stay _
  | readUnlock i =>
    dsimp only [step]
    split
    · next h => exact .readUnlock h
    · exact .stay _
  | writeLock i =>
    dsimp only [step]
    split
    · next h => exact .writeLock h (writeTurn _)
    · exact .stay _
  | writeUnlock i =>
    dsimp only [step]
    split
    · next h => exact .writeUnlock h
    · exact .stay _
  | resume i =>
    dsimp only [step]
    split
    · next h => exact .readAgain h (readTurn s)
    · next h => exact .writeAgain h (writeTurn s)
    · exact .stay _

omit [DecidableEq ι] in
theorem ReadTurn.isReader {pc : Pc} (h : ReadTurn s pc) : pc.isReader ∧ pc.isWriter = false := by
  cases h <;> exact ⟨rfl, rfl⟩

omit [DecidableEq ι] in
theorem WriteTurn.isWriter {pc : Pc} (h : WriteTurn s pc) : pc.isWriter ∧ pc.isReader = false := by
  cases h <;> exact ⟨rfl, rfl⟩

/-- A coroutine that is a writer before and after it moves, or at neither time, leaves
the writers alone. -/
theorem isWriter_goto {pc : Pc} (h : pc.isWriter = (s.pc i).isWriter) (j : ι) :
    ((s.goto i pc).pc j).isWriter = (s.pc j).isWriter := by
  by_cases hj : j = i
  · rw [hj, goto_self, h]
  · rw [goto_of_ne hj]

/-! ## The word and the coroutines -/

section Counted

variable [Fintype ι]

/-- The word counts the readers, and its upper bit has been set by a writer. -/
structure Counted (s : State ι) : Prop where
  readers : s.lock.toNat % 2 ^ 31 = s.readers
  bit : 2 ^ 31 ≤ s.lock.toNat → ∃ i, (s.pc i).isWriter

/-- The count of readers stays below the writer's bit. -/
def readersFit (s : State ι) : Event ι → Bool
  | .readLock _ => s.readers + 1 < 2 ^ 31
  | _ => true

namespace Counted

omit [DecidableEq ι] in
theorem toNat_lock_add_one (h : s.Counted) (hfit : s.readers + 1 < 2 ^ 31) :
    (s.lock + 1).toNat = s.lock.toNat + 1 := by
  have hlow := h.readers
  have hone : (1 : UInt32).toNat = 1 := rfl
  have hlock := s.lock.toNat_lt
  rw [UInt32.toNat_add, hone]
  omega

omit [DecidableEq ι] in
theorem toNat_lock_sub_one (h : s.Counted) (hi : s.pc i = .reading) :
    (s.lock - 1).toNat + 1 = s.lock.toNat ∧ s.lock.toNat % 2 ^ 31 ≠ 0 := by
  have hpos : 0 < s.readers := Parties.count_pos (i := i) (by rw [hi]; rfl)
  have hlow := h.readers
  have hone : (1 : UInt32).toNat = 1 := rfl
  rw [UInt32.toNat_sub_of_le _ _ (UInt32.le_iff_toNat_le.2 (by omega)), hone]
  omega

/-- A coroutine moves, and the word moves with it. -/
theorem goto (h : s.Counted) {lock : UInt32} {pc : Pc}
    (hlow : lock.toNat % 2 ^ 31 + (s.pc i).isReader.toNat =
      s.lock.toNat % 2 ^ 31 + pc.isReader.toNat)
    (hbit : 2 ^ 31 ≤ lock.toNat → ∃ j, ((s.goto i pc).pc j).isWriter) :
    ({ s with lock }.goto i pc).Counted := by
  have hcount : ({ s with lock }.goto i pc).readers + (s.pc i).isReader.toNat =
      s.readers + pc.isReader.toNat := readers_goto { s with lock } i pc
  have hold := h.readers
  refine ⟨?_, hbit⟩
  change lock.toNat % 2 ^ 31 = _
  omega

theorem step {s' : State ι} {e : Event ι} (h : s.Counted) (hfit : s.readersFit e)
    (hs : Step s e s') : s'.Counted := by
  have keep {i : ι} {pc : Pc} (hw : pc.isWriter = (s.pc i).isWriter)
      (hb : 2 ^ 31 ≤ s.lock.toNat) : ∃ j, ((s.goto i pc).pc j).isWriter := by
    obtain ⟨j, hj⟩ := h.bit hb
    exact ⟨j, (isWriter_goto hw j).trans hj⟩
  cases hs with
  | stay => exact h
  | readLock hi hturn =>
    obtain ⟨hr, hw⟩ := hturn.isReader
    have hroom : s.readers + 1 < 2 ^ 31 := by simpa [readersFit] using hfit
    have hlock := h.toNat_lock_add_one hroom
    have hlow := h.readers
    apply h.goto
    · rw [hi, hr, hlock]
      change _ + 0 = _ + 1
      omega
    · exact fun hb => keep (by rw [hi, hw]; rfl) (by omega)
  | readAgain hi hturn =>
    obtain ⟨hr, hw⟩ := hturn.isReader
    apply h.goto
    · rw [hi, hr]
      rfl
    · exact keep (by rw [hi, hw]; rfl)
  | readUnlock hi =>
    obtain ⟨hlock, hpos⟩ := h.toNat_lock_sub_one hi
    apply h.goto
    · rw [hi]
      change _ + 1 = _ + 0
      omega
    · exact fun hb => keep (by rw [hi]; rfl) (by omega)
  | @writeLock i pc hi hturn =>
    obtain ⟨hw, hr⟩ := hturn.isWriter
    apply h.goto
    · rw [hi, hr, toNat_or_writeLockBit, Nat.add_mod_right, Nat.mod_mod]
      rfl
    · exact fun _ => ⟨i, by rw [goto_self, hw]⟩
  | @writeAgain i pc hi hturn =>
    obtain ⟨hw, hr⟩ := hturn.isWriter
    apply h.goto
    · rw [hi, hr]
      rfl
    · exact fun _ => ⟨i, by rw [goto_self, hw]⟩
  | writeUnlock hi =>
    apply h.goto
    · rw [hi, toNat_and_not_writeLockBit, Nat.mod_mod]
      rfl
    · intro hb
      rw [toNat_and_not_writeLockBit] at hb
      have := Nat.mod_lt s.lock.toNat (y := 2 ^ 31) (by decide)
      omega

end Counted

/-! ## Exclusion -/

/-- `write_lock_bh` is called only when no writer holds the lock or waits for it. -/
def writerAlone (s : State ι) : Event ι → Bool
  | .writeLock _ => ∀ j, (s.pc j).isWriter = false
  | e => s.readersFit e

structure OneWriter (s : State ι) : Prop where
  counted : s.Counted
  bit : ∀ i, (s.pc i).isWriter → 2 ^ 31 ≤ s.lock.toNat
  one : ∀ i j, (s.pc i).isWriter → (s.pc j).isWriter → i = j
  alone : ∀ i j, s.pc i = .writing → s.pc j ≠ .reading

namespace OneWriter

omit [DecidableEq ι] in
theorem exclusive (h : s.OneWriter) : s.Exclusive := by
  intro i j hi hj
  cases hpc : s.pc j with
  | writing => exact h.one i j (by rw [hi]; rfl) (by rw [hpc]; rfl)
  | reading => exact absurd hpc (h.alone i j hi)
  | _ => simp [hpc, Pc.inside] at hj

/-- A coroutine moves that is no writer. -/
theorem reader (h : s.OneWriter) {lock : UInt32} {pc : Pc}
    (hcounted : ({ s with lock }.goto i pc).Counted) (hold : (s.pc i).isWriter = false)
    (hpc : pc.isWriter = false) (hbit : 2 ^ 31 ≤ s.lock.toNat → 2 ^ 31 ≤ lock.toNat)
    (hreading : pc = .reading → lock.toNat < 2 ^ 31) : ({ s with lock }.goto i pc).OneWriter := by
  have hw (j : ι) : (({ s with lock }.goto i pc).pc j).isWriter = (s.pc j).isWriter :=
    isWriter_goto (s := { s with lock }) (hpc.trans hold.symm) j
  refine ⟨hcounted, fun j hj => hbit (h.bit j ((hw j).symm.trans hj)), ?_, ?_⟩
  · intro a b ha hb
    exact h.one a b ((hw a).symm.trans ha) ((hw b).symm.trans hb)
  · intro a b ha hb
    have hwriter : (s.pc a).isWriter := by rw [← hw a, ha]; rfl
    by_cases hbi : b = i
    · rw [hbi, goto_self] at hb
      have := hbit (h.bit a hwriter)
      have := hreading hb
      omega
    · rw [goto_of_ne hbi] at hb
      have hai : a ≠ i := by
        rintro rfl
        rw [hold] at hwriter
        cases hwriter
      rw [goto_of_ne hai] at ha
      exact h.alone a b ha hb

/-- A coroutine moves when the others are no writers. -/
theorem writer {lock : UInt32} {pc : Pc} (hcounted : ({ s with lock }.goto i pc).Counted)
    (hone : ∀ j ≠ i, (s.pc j).isWriter = false) (hbit : pc.isWriter → 2 ^ 31 ≤ lock.toNat)
    (hwriting : pc = .writing → lock.toNat % 2 ^ 31 = 0) :
    ({ s with lock }.goto i pc).OneWriter := by
  have honly (j : ι) (hj : (({ s with lock }.goto i pc).pc j).isWriter) : j = i := by
    by_contra hji
    rw [goto_of_ne hji, hone j hji] at hj
    cases hj
  refine ⟨hcounted, ?_, fun a b ha hb => (honly a ha).trans (honly b hb).symm, ?_⟩
  · intro j hj
    obtain rfl := honly j hj
    rw [goto_self] at hj
    exact hbit hj
  · intro a b ha hb
    obtain rfl := honly a (by rw [ha]; rfl)
    rw [goto_self] at ha
    -- the word counts no reader when the writer goes in
    have hzero : ({ s with lock }.goto a pc).readers = 0 :=
      hcounted.readers.symm.trans (hwriting ha)
    have hb' := Parties.count_eq_zero.1 hzero b
    rw [hb] at hb'
    cases hb'

theorem step {s' : State ι} {e : Event ι} (h : s.OneWriter) (hok : s.writerAlone e)
    (hs : Step s e s') : s'.OneWriter := by
  have hfit : s.readersFit e := by
    cases e with
    | writeLock => rfl
    | _ => exact hok
  have hcounted := h.counted.step hfit hs
  have honly {i : ι} (hi : (s.pc i).isWriter) (j : ι) (hji : j ≠ i) :
      (s.pc j).isWriter = false := by
    by_contra hj
    exact hji (h.one j i (by simpa using hj) hi)
  cases hs with
  | stay => exact h
  | readLock hi hturn =>
    have hlock := h.counted.toNat_lock_add_one (by simpa [readersFit] using hfit)
    refine h.reader hcounted (by rw [hi]; rfl) hturn.isReader.2 (by omega) ?_
    rintro rfl
    cases hturn with
    | enters hlt => exact hlt
  | readAgain hi hturn =>
    refine h.reader hcounted (by rw [hi]; rfl) hturn.isReader.2 id ?_
    rintro rfl
    cases hturn with
    | enters hlt => exact hlt
  | readUnlock hi =>
    obtain ⟨hlock, hpos⟩ := h.counted.toNat_lock_sub_one hi
    exact h.reader hcounted (by rw [hi]; rfl) rfl (by omega) nofun
  | @writeLock i pc hi hturn =>
    have hnone : ∀ j, (s.pc j).isWriter = false := by simpa [writerAlone] using hok
    refine writer hcounted (fun j _ => hnone j) (fun _ => ?_) ?_
    · rw [toNat_or_writeLockBit]
      exact Nat.le_add_left _ _
    · rintro rfl
      cases hturn with
      | enters hzero => exact hzero
  | writeAgain hi hturn =>
    refine writer hcounted (honly (by rw [hi]; rfl)) (fun _ => h.bit _ (by rw [hi]; rfl)) ?_
    rintro rfl
    cases hturn with
    | enters hzero => exact hzero
  | writeUnlock hi => exact writer hcounted (honly (by rw [hi]; rfl)) nofun nofun

end OneWriter

omit [DecidableEq ι] in
theorem counted_init : ({} : State ι).Counted where
  readers := (Parties.count_eq_zero.2 fun _ => rfl).symm
  bit := nofun

/-- Sections exclude each other in every run in which one writer at a time uses the lock. -/
theorem writers_exclude {es : List (Event ι)}
    (hok : Machine.Along step (writerAlone · ·) {} es) : Exclusive (run {} es) :=
  (hok.invariant (I := OneWriter) (fun s e h he => h.step he (step_rule s e))
    ⟨counted_init, nofun, nofun, nofun⟩).exclusive

end Counted

/-- A reader waits for the writer to leave. -/
theorem writers_exclude_reader :
    Exclusive (run {} [.writeLock 0, .readLock 1, .writeUnlock 0, .resume (1 : Fin 2)]) :=
  writers_exclude (by decide +kernel)

/-- The second writer finds no readers and goes in as well. -/
theorem not_alwaysExclusive : ¬ AlwaysExclusive (Fin 2) := by
  intro h
  have := h [.writeLock 0, .writeLock 1] 0 1 (by decide +kernel) (by decide +kernel)
  cases this

/-! ## Wedges -/

/-- Every waiter's loop condition is true. -/
def Stuck (s : State ι) : Prop :=
  ∀ i, (s.pc i = .readWait → s.readBlocked) ∧ (s.pc i = .writeWait → s.writeBlocked)

/-- Resuming waiters does not change the word, so nobody stops waiting. -/
theorem Stuck.run_resume (h : s.Stuck) (schedule : List ι) :
    s.run (schedule.map .resume) = s := by
  induction schedule with
  | nil => rfl
  | cons i schedule ih =>
    have hstep : s.step (.resume i) = s := by
      dsimp only [step]
      split
      · next hi => simp [readLoop, goto, (h i).1 hi, ← hi]
      · next hi => simp [writeLoop, goto, (h i).2 hi, ← hi]
      · rfl
    change (s.step (.resume i)).run (schedule.map .resume) = s
    rw [hstep, ih]

section Waiting

variable [Fintype ι]

/-- Nobody asks to read while a writer waits, or to write while a reader waits. -/
def kindsApart (s : State ι) : Event ι → Bool
  | .readLock _ => s.readers + 1 < 2 ^ 31 ∧ ∀ j, s.pc j ≠ .writeWait
  | .writeLock _ => ∀ j, s.pc j ≠ .readWait
  | _ => true

structure OneKind (s : State ι) : Prop where
  counted : s.Counted
  apart : ∀ i j, s.pc i = .readWait → s.pc j ≠ .writeWait

namespace OneKind

theorem goto (h : s.OneKind) {lock : UInt32} {pc : Pc}
    (hcounted : ({ s with lock }.goto i pc).Counted)
    (hread : pc = .readWait → ∀ j, s.pc j ≠ .writeWait)
    (hwrite : pc = .writeWait → ∀ j, s.pc j ≠ .readWait) :
    ({ s with lock }.goto i pc).OneKind := by
  refine ⟨hcounted, fun a b ha hb => ?_⟩
  by_cases hai : a = i
  · rw [hai, goto_self] at ha
    by_cases hbi : b = i
    · rw [hbi, goto_self, ha] at hb
      cases hb
    · rw [goto_of_ne hbi] at hb
      exact hread ha b hb
  · rw [goto_of_ne hai] at ha
    by_cases hbi : b = i
    · rw [hbi, goto_self] at hb
      exact hwrite hb a ha
    · rw [goto_of_ne hbi] at hb
      exact h.apart a b ha hb

theorem step {s' : State ι} {e : Event ι} (h : s.OneKind) (hok : s.kindsApart e)
    (hs : Step s e s') : s'.OneKind := by
  have hfit : s.readersFit e := by
    cases e with
    | readLock => exact decide_eq_true (of_decide_eq_true hok).1
    | _ => rfl
  have hcounted := h.counted.step hfit hs
  cases hs with
  | stay => exact h
  | readLock hi hturn =>
    refine h.goto hcounted (fun _ => (of_decide_eq_true hok).2) ?_
    rintro rfl
    cases hturn
  | @readAgain i pc hi hturn =>
    refine h.goto hcounted (fun _ j => h.apart i j hi) ?_
    rintro rfl
    cases hturn
  | readUnlock hi => exact h.goto hcounted nofun nofun
  | writeLock hi hturn =>
    refine h.goto hcounted ?_ fun _ => of_decide_eq_true hok
    rintro rfl
    cases hturn
  | @writeAgain i pc hi hturn =>
    refine h.goto hcounted ?_ fun _ j hj => h.apart j i hj hi
    rintro rfl
    cases hturn
  | writeUnlock hi => exact h.goto hcounted nofun nofun

/-- With nobody inside, the waiters of the one kind go in as soon as they are resumed. -/
theorem not_wedged (h : s.OneKind) : ¬ s.Wedged := by
  rintro ⟨hout, ⟨i, hi⟩, hstuck⟩
  have hturn := hstuck [i] i hi
  change ((s.step (.resume i)).pc i).waits at hturn
  cases hpc : s.pc i with
  | readWait =>
    have hfree : s.lock.toNat < 2 ^ 31 := by
      by_contra hbit
      obtain ⟨j, hj⟩ := h.counted.bit (Nat.le_of_not_lt hbit)
      have houtj := hout j
      cases hpcj : s.pc j with
      | writeWait => exact h.apart i j hpc hpcj
      | writing => simp [hpcj, Pc.inside] at houtj
      | _ => simp [hpcj, Pc.isWriter] at hj
    have hunblocked : ¬ s.readBlocked := fun hb => (readBlocked_iff.1 hb).not_gt hfree
    simp [State.step, hpc, readLoop, hunblocked, Pc.waits] at hturn
  | writeWait =>
    have hnone : s.readers = 0 := by
      apply Parties.count_eq_zero.2
      intro j
      have houtj := hout j
      cases hpcj : s.pc j with
      | readWait => exact absurd hpc (h.apart j i hpcj)
      | reading => simp [hpcj, Pc.inside] at houtj
      | _ => rfl
    have hunblocked : ¬ s.writeBlocked :=
      fun hb => writeBlocked_iff.1 hb (h.counted.readers.trans hnone)
    simp [State.step, hpc, writeLoop, hunblocked, Pc.waits] at hturn
  | _ => simp [hpc, Pc.waits] at hi

end OneKind

/-- The lock does not wedge in any run in which readers and writers never wait at the
same time. -/
theorem never_wedges {es : List (Event ι)}
    (hok : Machine.Along step (kindsApart · ·) {} es) : ¬ Wedged (run {} es) :=
  (hok.invariant (I := OneKind) (fun s e h he => h.step he (step_rule s e))
    ⟨counted_init, nofun⟩).not_wedged

end Waiting

/-- A reader waits for the writer to leave, and nobody is inside any more. -/
theorem never_wedges_reader :
    ¬ Wedged (run {} [.writeLock 0, .readLock 1, .writeUnlock (0 : Fin 2)]) :=
  never_wedges (by decide +kernel)

/-- The writer asks again before the reader that it has let in is resumed. -/
theorem not_neverWedges : ¬ NeverWedges (Fin 2) := by
  intro h
  apply h [.writeLock 0, .readLock 1, .writeUnlock 0, .writeLock 0]
  have hstuck :
      Stuck (run {} [.writeLock 0, .readLock 1, .writeUnlock 0, .writeLock (0 : Fin 2)]) := by
    unfold Stuck
    decide +kernel
  refine ⟨by decide +kernel, ⟨0, by decide +kernel⟩, fun schedule i hi => ?_⟩
  rwa [hstuck.run_resume schedule]

end State

end RwLock
