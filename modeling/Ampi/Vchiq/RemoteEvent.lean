-- SUMMARY: Remote events at the level of memory accesses; the slot handler's trigger, and the absence of lost wake-ups.
import Ampi.Machine
import Mathlib.Data.Fintype.Defs
import Mathlib.Logic.Function.Basic
import Mathlib.Tactic.Common
import Mathlib.Tactic.Tauto

/-!
# Remote events

The trigger of the slot handler: two flags and a counting semaphore, written by the
slot handler (`remote_event_wait`), the doorbell interrupt (`remote_event_pollall`),
callers of `request_poll` and the peer (`remote_event_signal`). One step is one
memory access of one party. `count++` and `count--` are a read and a write.

There may be any number of peers and callers. What the slot handler does between
its waits is followed up to the snapshot of `tx_pos` in `parse_rx_slots` and the
update of `rx_pos` that accepting every message up to the snapshot amounts to.

The events of a side share its doorbell, and `remote_event_pollall` polls them all. The
interrupt gives no second permit before the event is armed again, and a caller of
`request_poll` waits for the slot handler before the next one, so the count of permits stays
far from what an `int` holds.
-/

/-- `REMOTE_EVENT_T` with the count of its semaphore. -/
structure RemoteEvent where
  fired : Bool := false
  armed : Bool := false
  count : Nat := 0
  deriving DecidableEq, Repr

namespace RemoteEvent

/-- The next access of `remote_event_wait`. -/
inductive Wait where
  | testFired | arm | retestFired
  /-- `while (sem->count == 0) ampi_co_yield ()`. -/
  | down
  | readCount
  | writeCount (count : Nat)
  | disarm | clearFired
  deriving DecidableEq, Repr

/-- One access of `remote_event_wait`; it returns when there is no next one. -/
def wait (e : RemoteEvent) : Wait → RemoteEvent × Option Wait
  | .testFired => (e, some (if e.fired then .clearFired else .arm))
  | .arm => ({ e with armed := true }, some .retestFired)
  | .retestFired => (e, some (if e.fired then .disarm else .down))
  | .down => (e, some (if e.count = 0 then .down else .readCount))
  | .readCount => (e, some (.writeCount e.count))
  | .writeCount count => ({ e with count := count - 1 }, some .disarm)
  | .disarm => ({ e with armed := false }, some .clearFired)
  | .clearFired => ({ e with fired := false }, none)

/-- `remote_event_signal_local`. -/
def signalLocal (e : RemoteEvent) : RemoteEvent := { e with armed := false, count := e.count + 1 }

/-- `remote_event_poll`, when nothing comes between its accesses. -/
def poll (e : RemoteEvent) : RemoteEvent := if e.fired && e.armed then e.signalLocal else e

/-- `remote_event_signal`; the doorbell follows if the event is armed. -/
def signal (e : RemoteEvent) : RemoteEvent := { e with fired := true }

/-- The next access of the slot handler. -/
inductive HandlerPc where
  | wait (pc : Wait)
  | testPollNeeded | clearPollNeeded
  | snapshot
  | parse (txPos : UInt32)
  deriving DecidableEq, Repr

/-- The next access of `remote_event_poll` in the doorbell interrupt. -/
inductive IsrPc where
  | idle | testFired | testArmed | disarm | readCount
  | writeCount (count : Nat)
  deriving DecidableEq, Repr

/-- The next access of the peer. -/
inductive PeerPc where
  | idle | fire | testArmed | ring
  deriving DecidableEq, Repr

/-- The peer has set `fired` and may still ring. -/
def PeerPc.rings : PeerPc → Bool
  | .testArmed | .ring => true
  | .idle | .fire => false

/-- The next access of `request_poll`. -/
inductive CallerPc where
  | idle | disarm | readCount
  | writeCount (count : Nat)
  deriving DecidableEq, Repr

/-- The caller has cleared `armed` and not yet given its permit. -/
def CallerPc.permits : CallerPc → Bool
  | .readCount | .writeCount _ => true
  | .idle | .disarm => false

/-- `local->trigger`, the positions and the program counters of all parties. -/
structure State (ι κ : Type*) extends RemoteEvent where
  bell : Bool := false
  pollNeeded : Bool := false
  txPos : UInt32
  rxPos : UInt32
  handler : HandlerPc := .wait .testFired
  isr : IsrPc := .idle
  peer : ι → PeerPc := fun _ => .idle
  caller : κ → CallerPc := fun _ => .idle

inductive Event (ι κ : Type*) where
  | handler
  | isr
  /-- An idle peer publishes `txPos`; otherwise it goes on signalling. -/
  | peer (i : ι) (txPos : UInt32)
  | caller (k : κ)
  /-- The doorbell is rung for another event of the side. -/
  | bell

variable {ι κ : Type*}

namespace State

section Steps

variable [DecidableEq ι] [DecidableEq κ]

/-- `remote_event_wait`, the polling of services and `parse_rx_slots`. -/
def handlerStep (s : State ι κ) : State ι κ :=
  match s.handler with
  | .wait pc =>
    let (event, pc) := s.toRemoteEvent.wait pc
    { s with toRemoteEvent := event, handler := pc.elim .testPollNeeded .wait }
  | .testPollNeeded =>
    { s with handler := if s.pollNeeded then .clearPollNeeded else .snapshot }
  | .clearPollNeeded => { s with pollNeeded := false, handler := .snapshot }
  | .snapshot => { s with handler := .parse s.txPos }
  | .parse txPos => { s with rxPos := txPos, handler := .wait .testFired }

/-- `vchiq_doorbell_irq`: reading the doorbell clears it. -/
def isrStep (s : State ι κ) : State ι κ :=
  match s.isr with
  | .idle => if s.bell then { s with bell := false, isr := .testFired } else s
  | .testFired => { s with isr := if s.fired then .testArmed else .idle }
  | .testArmed => { s with isr := if s.armed then .disarm else .idle }
  | .disarm => { s with armed := false, isr := .readCount }
  | .readCount => { s with isr := .writeCount s.count }
  | .writeCount count => { s with count := count + 1, isr := .idle }

/-- The peer queues messages and signals (`remote_event_signal`). -/
def peerStep (s : State ι κ) (i : ι) (txPos : UInt32) : State ι κ :=
  match s.peer i with
  | .idle => { s with txPos, peer := Function.update s.peer i .fire }
  | .fire =>
    { s with toRemoteEvent := s.signal, peer := Function.update s.peer i .testArmed }
  | .testArmed =>
    { s with peer := Function.update s.peer i (if s.armed then .ring else .idle) }
  | .ring => { s with bell := true, peer := Function.update s.peer i .idle }

/-- `request_poll`. -/
def callerStep (s : State ι κ) (k : κ) : State ι κ :=
  match s.caller k with
  | .idle => { s with pollNeeded := true, caller := Function.update s.caller k .disarm }
  | .disarm => { s with armed := false, caller := Function.update s.caller k .readCount }
  | .readCount => { s with caller := Function.update s.caller k (.writeCount s.count) }
  | .writeCount count =>
    { s with count := count + 1, caller := Function.update s.caller k .idle }

def step (s : State ι κ) : Event ι κ → State ι κ
  | .handler => s.handlerStep
  | .isr => s.isrStep
  | .peer i txPos => s.peerStep i txPos
  | .caller k => s.callerStep k
  | .bell => { s with bell := true }

abbrev run (s : State ι κ) (es : List (Event ι κ)) : State ι κ := Machine.run step s es

/-- An interrupt that nothing else comes between polls the event. -/
theorem run_isr (s : State ι κ) (h : s.isr = .testFired) :
    ∃ n, s.run (.replicate n .isr) = { s with toRemoteEvent := s.poll, isr := .idle } := by
  obtain ⟨⟨fired, armed, count⟩, bell, pollNeeded, txPos, rxPos, handler, isr, peer, caller⟩ := s
  cases h
  cases fired with
  | false => exact ⟨1, rfl⟩
  | true =>
    cases armed with
    | false => exact ⟨2, rfl⟩
    | true => exact ⟨5, rfl⟩

end Steps

/-- After `remote_event_create`: `fired` is left as the peer has set it. -/
def create (fired : Bool) (txPos rxPos : UInt32) : State ι κ :=
  { fired, armed := false, count := 0, txPos, rxPos }

/-! ## Lost wake-ups -/

/-- The slot handler waits in `down` on a semaphore without permits. -/
def Blocked (s : State ι κ) : Prop := s.handler = .wait .down ∧ s.count = 0

instance (s : State ι κ) : Decidable s.Blocked := inferInstanceAs (Decidable (_ ∧ _))

/-- No doorbell is pending or being handled, and nobody is in the middle of signalling. -/
def Quiet (s : State ι κ) : Prop :=
  s.bell = false ∧ s.isr = .idle ∧ (∀ i, s.peer i = .idle) ∧ ∀ k, s.caller k = .idle

instance [Fintype ι] [Fintype κ] (s : State ι κ) : Decidable s.Quiet :=
  inferInstanceAs (Decidable (_ ∧ _ ∧ _ ∧ _))

/-- The slot handler sleeps on messages and nothing will wake it. -/
def LostWakeup (s : State ι κ) : Prop := s.Blocked ∧ s.Quiet ∧ s.txPos ≠ s.rxPos

/-! ## The invariant -/

/-- A peer has published `tx_pos` and not yet set `fired`. -/
def Firing (s : State ι κ) : Prop := ∃ i, s.peer i = .fire

/-- The doorbell is on its way to a test of `armed`, or past it with `armed` still set. -/
def Ringing (s : State ι κ) : Prop :=
  s.bell ∨ (s.isr = .testFired ∨ s.isr = .testArmed ∨ s.isr = .disarm) ∨
    ∃ i, (s.peer i).rings

/-- The permit that goes with a cleared `armed` is there, or on its way. -/
def Permitted (s : State ι κ) : Prop :=
  0 < s.count ∨ (s.isr = .readCount ∨ ∃ c, s.isr = .writeCount c) ∨
    ∃ k, (s.caller k).permits

/-- The position up to which the slot handler will have parsed before it next tests
`fired`; none while it is yet to take its snapshot. -/
def target (s : State ι κ) : Option UInt32 :=
  match s.handler with
  | .testPollNeeded | .clearPollNeeded | .snapshot => none
  | .parse txPos => some txPos
  | _ => some s.rxPos

structure Invariant (s : State ι κ) : Prop where
  /-- Messages past the target have been announced, or are about to be. -/
  announced : ∀ p, s.target = some p → s.txPos ≠ p → s.fired ∨ s.Firing
  /-- Once armed for a wait, the event stays armed until a permit is given. -/
  armed : s.handler = .wait .retestFired ∨ s.handler = .wait .down → s.armed ∨ s.Permitted
  /-- A wait that finds the event fired and armed will be interrupted. -/
  ringing : s.handler = .wait .down → s.fired → s.armed → s.Ringing

theorem Invariant.not_lostWakeup {s : State ι κ} (h : Invariant s) : ¬ s.LostWakeup := by
  rintro ⟨⟨hdown, hcount⟩, ⟨hbell, hisr, hpeer, hcaller⟩, hpos⟩
  have hfired : s.fired = true := by
    have htarget : s.target = some s.rxPos := by simp [target, hdown]
    rcases h.announced _ htarget hpos with hf | ⟨i, hi⟩
    · exact hf
    · simp [hpeer] at hi
  have harmed : s.armed = true := by
    rcases h.armed (.inr hdown) with ha | hp
    · exact ha
    · simp [Permitted, hcount, hisr, hcaller, CallerPc.permits] at hp
  have hring := h.ringing hdown hfired harmed
  simp [Ringing, hbell, hisr, hpeer, PeerPc.rings] at hring

theorem invariant_create {fired : Bool} {txPos rxPos : UInt32} (h : txPos = rxPos ∨ fired) :
    Invariant (create fired txPos rxPos : State ι κ) where
  announced p hp hpos := by
    obtain rfl : rxPos = p := by simpa [create, target] using hp
    exact .inl (h.resolve_left hpos)
  armed hd := by simp [create] at hd
  ringing hd := by simp [create] at hd

/-- The accesses of `remote_event_wait`. Only `down` is a place to wait at, and it is reached
with `armed` set and `fired` found unset. -/
theorem waitStep_invariant {s : State ι κ} (h : Invariant s) {pc : Wait}
    (hpc : s.handler = .wait pc) : Invariant s.handlerStep := by
  obtain ⟨hann, harm, hring⟩ := h
  have htarget {p : UInt32} (hp : s.rxPos = p) : s.target = some p := by simp [target, hpc, hp]
  cases pc with
  | testFired =>
    simp only [handlerStep, hpc, RemoteEvent.wait, Option.elim]
    refine ⟨fun p hp => hann p (htarget (Option.some.inj hp)), fun hd => ?_, fun hd => ?_⟩
    all_goals cases hf : s.fired <;> simp [hf] at hd
  | arm =>
    simp only [handlerStep, hpc, RemoteEvent.wait, Option.elim]
    exact ⟨fun p hp => hann p (htarget (Option.some.inj hp)), fun _ => .inl rfl, nofun⟩
  | retestFired =>
    simp only [handlerStep, hpc, RemoteEvent.wait, Option.elim]
    refine ⟨fun p hp => hann p (htarget (Option.some.inj hp)), fun _ => harm (.inl hpc),
      fun hd hf => ?_⟩
    have hf : s.fired = true := hf
    simp [hf] at hd
  | down =>
    simp only [handlerStep, hpc, RemoteEvent.wait, Option.elim]
    refine ⟨fun p hp => hann p (htarget (Option.some.inj hp)), fun _ => harm (.inr hpc),
      fun _ => hring hpc⟩
  | readCount | writeCount | disarm =>
    simp only [handlerStep, hpc, RemoteEvent.wait, Option.elim]
    exact ⟨fun p hp => hann p (htarget (Option.some.inj hp)), nofun, nofun⟩
  | clearFired =>
    simp only [handlerStep, hpc, RemoteEvent.wait, Option.elim]
    exact ⟨nofun, nofun, nofun⟩

theorem handlerStep_invariant {s : State ι κ} (h : Invariant s) : Invariant s.handlerStep := by
  cases hpc : s.handler with
  | wait pc => exact waitStep_invariant h hpc
  | clearPollNeeded =>
    simp only [handlerStep, hpc]
    exact ⟨nofun, nofun, nofun⟩
  | testPollNeeded =>
    simp only [handlerStep, hpc]
    refine ⟨fun p hp => ?_, fun hd => ?_, fun hd => ?_⟩
    all_goals cases hn : s.pollNeeded <;> simp [target, hn] at *
  | snapshot =>
    simp only [handlerStep, hpc]
    exact ⟨fun p hp hpos => absurd (Option.some.inj hp) hpos, nofun, nofun⟩
  | parse txPos =>
    simp only [handlerStep, hpc]
    exact ⟨fun p hp => h.announced p (by simpa [target, hpc] using hp), nofun, nofun⟩

/-- The doorbell interrupt's accesses. -/
theorem isrStep_invariant {s : State ι κ} (h : Invariant s) : Invariant s.isrStep := by
  obtain ⟨hann, harm, hring⟩ := h
  cases hpc : s.isr with
  | idle =>
    simp only [isrStep, hpc]
    split
    · refine ⟨hann, fun hd => (harm hd).imp_right fun hp => ?_, fun _ _ _ => .inr (.inl (.inl rfl))⟩
      simpa [Permitted, hpc] using hp
    · exact ⟨hann, harm, hring⟩
  | testFired =>
    simp only [isrStep, hpc]
    refine ⟨hann, fun hd => (harm hd).imp_right fun hp => ?_, fun hd hf _ => ?_⟩
    · cases hf : s.fired <;> simpa [Permitted, hpc, hf] using hp
    · have hf : s.fired = true := hf
      exact .inr (.inl (.inr (.inl (by simp [hf]))))
  | testArmed =>
    simp only [isrStep, hpc]
    refine ⟨hann, fun hd => (harm hd).imp_right fun hp => ?_, fun hd _ ha => ?_⟩
    · cases ha : s.armed <;> simpa [Permitted, hpc, ha] using hp
    · have ha : s.armed = true := ha
      exact .inr (.inl (.inr (.inr (by simp [ha]))))
  | disarm =>
    simp only [isrStep, hpc]
    exact ⟨hann, fun _ => .inr (.inr (.inl (.inl rfl))), nofun⟩
  | readCount =>
    simp only [isrStep, hpc]
    refine ⟨hann, fun _ => .inr (.inr (.inl (.inr ⟨_, rfl⟩))), fun hd hf ha => ?_⟩
    simpa [Ringing, hpc] using hring hd hf ha
  | writeCount count =>
    simp only [isrStep, hpc]
    refine ⟨hann, fun _ => .inr (.inl (Nat.succ_pos _)), fun hd hf ha => ?_⟩
    simpa [Ringing, hpc] using hring hd hf ha

section

variable [DecidableEq ι] [DecidableEq κ]

/-- One party's step does not affect what another party is doing. -/
theorem exists_update {α β : Type*} [DecidableEq α] {f : α → β} {P : β → Bool} {i : α} (x : β)
    (h : ∃ j, P (f j)) (hi : P (f i) = false) : ∃ j, P (Function.update f i x j) := by
  obtain ⟨j, hj⟩ := h
  have hji : j ≠ i := by
    rintro rfl
    simp [hi] at hj
  exact ⟨j, by simpa [hji] using hj⟩

omit [DecidableEq κ] in
theorem Firing.update {s : State ι κ} (h : s.Firing) {i : ι} (hi : s.peer i ≠ .fire) (pc : PeerPc) :
    ∃ j, Function.update s.peer i pc j = .fire := by
  simpa using
    exists_update (P := fun pc => pc = .fire) pc (by simpa [Firing] using h) (by simpa using hi)

omit [DecidableEq κ] in
/-- The peer's accesses: `tx_pos`, then `fired`, then `armed`. -/
theorem peerStep_invariant {s : State ι κ} (h : Invariant s) (i : ι) (txPos : UInt32) :
    Invariant (s.peerStep i txPos) := by
  obtain ⟨hann, harm, hring⟩ := h
  cases hpc : s.peer i with
  | idle =>
    simp only [peerStep, hpc]
    refine ⟨fun _ _ _ => .inr ⟨i, by simp⟩, harm, fun hd hf ha => ?_⟩
    rcases hring hd hf ha with h | h | h
    · exact .inl h
    · exact .inr (.inl h)
    · exact .inr (.inr (exists_update _ h (by rw [hpc]; rfl)))
  | fire =>
    simp only [peerStep, hpc]
    exact ⟨fun _ _ _ => .inl rfl, harm, fun _ _ _ => .inr (.inr ⟨i, by simp [PeerPc.rings]⟩)⟩
  | testArmed =>
    simp only [peerStep, hpc]
    refine ⟨fun p hp hpos => ?_, harm, fun _ _ ha => ?_⟩
    · exact (hann p hp hpos).imp_right fun h => h.update (by simp [hpc]) _
    · have ha : s.armed = true := ha
      exact .inr (.inr ⟨i, by simp [ha, PeerPc.rings]⟩)
  | ring =>
    simp only [peerStep, hpc]
    refine ⟨fun p hp hpos => ?_, harm, fun _ _ _ => .inl rfl⟩
    exact (hann p hp hpos).imp_right fun h => h.update (by simp [hpc]) _

omit [DecidableEq ι] in
/-- `request_poll` clears `armed` before it gives its permit. -/
theorem callerStep_invariant {s : State ι κ} (h : Invariant s) (k : κ) :
    Invariant (s.callerStep k) := by
  obtain ⟨hann, harm, hring⟩ := h
  cases hpc : s.caller k with
  | idle =>
    simp only [callerStep, hpc]
    refine ⟨hann, fun hd => (harm hd).imp_right fun hp => ?_, hring⟩
    rcases hp with h | h | h
    · exact .inl h
    · exact .inr (.inl h)
    · exact .inr (.inr (exists_update _ h (by rw [hpc]; rfl)))
  | disarm =>
    simp only [callerStep, hpc]
    exact ⟨hann, fun _ => .inr (.inr (.inr ⟨k, by simp [CallerPc.permits]⟩)), nofun⟩
  | readCount =>
    simp only [callerStep, hpc]
    exact ⟨hann, fun _ => .inr (.inr (.inr ⟨k, by simp [CallerPc.permits]⟩)), hring⟩
  | writeCount count =>
    simp only [callerStep, hpc]
    exact ⟨hann, fun _ => .inr (.inl (Nat.succ_pos _)), hring⟩

theorem step_invariant {s : State ι κ} (h : Invariant s) (e : Event ι κ) :
    Invariant (s.step e) := by
  cases e with
  | handler => exact handlerStep_invariant h
  | isr => exact isrStep_invariant h
  | peer i txPos => exact peerStep_invariant h i txPos
  | caller k => exact callerStep_invariant h k
  | bell => exact ⟨h.announced, h.armed, fun _ _ _ => .inl rfl⟩

/-- In no interleaving is a wake-up of the slot handler lost. -/
theorem no_lost_wakeup {fired : Bool} {txPos rxPos : UInt32} (h : txPos = rxPos ∨ fired)
    (es : List (Event ι κ)) : ¬ ((create fired txPos rxPos : State ι κ).run es).LostWakeup :=
  (Machine.run_invariant (I := Invariant) (fun _ e h => step_invariant h e) es
    (invariant_create h)).not_lostWakeup

/-- The slot handler goes to sleep, and a message arrives. -/
theorem no_lost_wakeup_sleeping :
    ¬ ((create false 0 0 : State (Fin 1) (Fin 1)).run
      [.handler, .handler, .handler, .peer 0 8, .peer 0 0, .peer 0 0, .peer 0 0]).LostWakeup :=
  no_lost_wakeup (.inl rfl) _

end
end State
end RemoteEvent
