-- SUMMARY: The threads of a slot transport with the events that wake them: what a sender may be left waiting for.
import Ampi.Vchiq.Draining
import Ampi.Vchiq.RemoteEvent

/-!
# Wake-ups

A sender signals the trigger of the other side when it has moved `tx_pos`, and whoever gives
back the last reference to a slot signals the recycle event of the sender's side when
`slot_queue_recycle` has been moved. Between the two the slot handler and the recycle thread
sleep. The doorbell of a side may be rung for another event of it at any time.
-/

namespace Transport

open Slots (Message Reception SlotRange)

inductive Event (ι κ : Type*) where
  | send (i : ι) (m : Message) (isBlocking : Bool)
  | sender (i : ι)
  /-- The thread goes on in `remote_event_signal`, or calls it though `tx_pos` has not moved. -/
  | signalTrigger (i : ι)
  | triggerDoorbell
  | requestPoll (k : κ)
  | handler (r : Reception)
  | release (i : ι) (slot off : Nat) (closing : Bool)
  /-- A thread, or the slot handler, goes on in `remote_event_signal`. -/
  | signalRecycle (j : Option ι)
  | recycleDoorbell
  | recycle
  /-- The doorbells are rung for other events of their sides. -/
  | triggerBell
  | recycleBell

variable {ι κ : Type*}

/-- The slot handler may put off a message that is not a DATA message. -/
def Event.mayPutOff : Event ι κ → Bool
  | .handler .retry => true
  | _ => false

structure State (ι κ : Type*) where
  slots : Slots.State
  /-- The trigger of the slot handler, for `tx_pos` and `rx_pos`. -/
  trigger : RemoteEvent.State ι κ
  /-- The event of the recycle thread, for `slot_queue_recycle` and `slot_queue_available`. -/
  recycle : RemoteEvent.State (Option ι) Empty

namespace State

def init (r : SlotRange) (slotData : Nat → Block) (triggerFired recycleFired : Bool) :
    State ι κ where
  slots := .init r slotData
  trigger := .create triggerFired 0 0
  recycle := .create recycleFired (.ofNat r.count) (.ofNat r.count)

section Steps

variable [DecidableEq ι] [DecidableEq κ]

/-- The thread signals if it has moved `tx_pos`. -/
def sent (t : State ι κ) (i : ι) (s : Slots.State) : State ι κ :=
  if s.txPos = t.slots.txPos then { t with slots := s }
  else { t with slots := s, trigger := t.trigger.peerStep i s.txPos }

/-- A slot that has been given back is signalled. -/
def released (t : State ι κ) (j : Option ι) (s : Slots.State) : State ι κ :=
  if s.slotQueueRecycle = t.slots.slotQueueRecycle then { t with slots := s }
  else { t with slots := s, recycle := t.recycle.peerStep j s.slotQueueRecycle }

/-- `slot_handler_func`. -/
def handler (t : State ι κ) (r : Reception) : State ι κ :=
  if t.recycle.peer none = .idle then
    match t.trigger.handler with
    | .snapshot => { t with slots := t.slots.handlerStep r, trigger := t.trigger.handlerStep }
    | .parse _ =>
      let t := t.released none (t.slots.handlerStep r)
      match t.slots.handler with
      | .idle =>
        { t with trigger := { t.trigger with rxPos := t.slots.rxPos, handler := .wait .testFired } }
      | .parsing _ | .skipping _ _ => t
    | _ => { t with trigger := t.trigger.handlerStep }
  else t

/-- `recycle_func`. The loop of `process_free_queue` is where the slot handler has its
snapshot. -/
def recycleThread (t : State ι κ) : State ι κ :=
  match t.recycle.handler with
  | .snapshot | .parse _ =>
    if t.slots.slotQueueAvailable = t.slots.slotQueueRecycle then
      { t with
        recycle :=
          { t.recycle with rxPos := t.slots.slotQueueAvailable, handler := .wait .testFired } }
    else { t with slots := t.slots.processFreeQueue }
  | _ => { t with recycle := t.recycle.handlerStep }

/-- A thread sends or releases once it has signalled. -/
def step (t : State ι κ) : Event ι κ → State ι κ
  | .send i m isBlocking =>
    if t.trigger.peer i = .idle then t.sent i (t.slots.step (.send m isBlocking)) else t
  | .sender i => if t.trigger.peer i = .idle then t.sent i (t.slots.step .sender) else t
  | .signalTrigger i => { t with trigger := t.trigger.peerStep i t.slots.txPos }
  | .triggerDoorbell => { t with trigger := t.trigger.isrStep }
  | .requestPoll k => { t with trigger := t.trigger.callerStep k }
  | .handler r => t.handler r
  | .release i slot off closing =>
    if t.recycle.peer (some i) = .idle then
      t.released (some i) (t.slots.step (.release slot off closing))
    else t
  | .signalRecycle j =>
    if t.recycle.peer j = .idle then t
    else { t with recycle := t.recycle.peerStep j t.slots.slotQueueRecycle }
  | .recycleDoorbell => { t with recycle := t.recycle.isrStep }
  | .recycle => t.recycleThread
  | .triggerBell => { t with trigger := { t.trigger with bell := true } }
  | .recycleBell => { t with recycle := { t.recycle with bell := true } }

abbrev run (t : State ι κ) (es : List (Event ι κ)) : State ι κ := Machine.run step t es

end Steps

end State

end Transport

namespace RemoteEvent.State

variable {ι κ : Type*}

/-- The thread that waits for the event goes on only within `remote_event_wait`. -/
theorem handlerStep_waiting {s : State ι κ} (hsnapshot : s.handler ≠ .snapshot)
    (hparse : ∀ p, s.handler ≠ .parse p) :
    s.handlerStep.txPos = s.txPos ∧ s.handlerStep.rxPos = s.rxPos ∧
      ∀ p, s.handlerStep.handler ≠ .parse p := by
  unfold handlerStep
  cases hpc : s.handler with
  | snapshot => exact absurd hpc hsnapshot
  | parse p => exact absurd hpc (hparse p)
  | testPollNeeded =>
    refine ⟨rfl, rfl, fun p => ?_⟩
    dsimp only
    split
    · nofun
    · nofun
  | clearPollNeeded => exact ⟨rfl, rfl, nofun⟩
  | wait pc =>
    refine ⟨rfl, rfl, fun p => ?_⟩
    dsimp only
    cases (s.toRemoteEvent.wait pc).2 with
    | none => nofun
    | some pc => nofun

theorem isrStep_fields (s : State ι κ) : s.isrStep.txPos = s.txPos ∧
    s.isrStep.rxPos = s.rxPos ∧ s.isrStep.handler = s.handler := by
  unfold isrStep
  split
  · split
    · exact ⟨rfl, rfl, rfl⟩
    · exact ⟨rfl, rfl, rfl⟩
  · exact ⟨rfl, rfl, rfl⟩
  · exact ⟨rfl, rfl, rfl⟩
  · exact ⟨rfl, rfl, rfl⟩
  · exact ⟨rfl, rfl, rfl⟩
  · exact ⟨rfl, rfl, rfl⟩

theorem callerStep_fields [DecidableEq κ] (s : State ι κ) (k : κ) :
    (s.callerStep k).txPos = s.txPos ∧ (s.callerStep k).rxPos = s.rxPos ∧
      (s.callerStep k).handler = s.handler := by
  unfold callerStep
  split
  · exact ⟨rfl, rfl, rfl⟩
  · exact ⟨rfl, rfl, rfl⟩
  · exact ⟨rfl, rfl, rfl⟩
  · exact ⟨rfl, rfl, rfl⟩

theorem peerStep_fields [DecidableEq ι] (s : State ι κ) (i : ι) (txPos : UInt32) :
    (s.peerStep i txPos).txPos = (if s.peer i = .idle then txPos else s.txPos) ∧
      (s.peerStep i txPos).rxPos = s.rxPos ∧ (s.peerStep i txPos).handler = s.handler := by
  unfold peerStep
  split
  · next hpc => exact ⟨(if_pos hpc).symm, rfl, rfl⟩
  · next hpc => exact ⟨(if_neg (by rw [hpc]; nofun)).symm, rfl, rfl⟩
  · next hpc => exact ⟨(if_neg (by rw [hpc]; nofun)).symm, rfl, rfl⟩
  · next hpc => exact ⟨(if_neg (by rw [hpc]; nofun)).symm, rfl, rfl⟩

/-- Whoever sleeps with nobody about to wake it has done all that there is. -/
theorem Invariant.txPos_eq {s : State ι κ} (h : Invariant s) (hblocked : s.Blocked)
    (hquiet : s.Quiet) : s.txPos = s.rxPos := by
  by_contra hne
  exact h.not_lostWakeup ⟨hblocked, hquiet, hne⟩

/-- Going to wait with all done that has been announced. -/
theorem invariant_testFired {s : State ι κ} {rxPos : UInt32}
    (hann : s.txPos ≠ rxPos → s.fired ∨ s.Firing) :
    Invariant { s with rxPos, handler := .wait .testFired } := by
  refine ⟨fun p hp hpos => ?_, nofun, nofun⟩
  obtain rfl : rxPos = p := Option.some.inj hp
  exact hann hpos

end RemoteEvent.State

namespace Slots.State

variable {s : Slots.State}

theorem sender_events (s : Slots.State) {e : Slots.Event}
    (he : e = .sender ∨ ∃ m isBlocking, e = .send m isBlocking) :
    (s.step e).rxPos = s.rxPos ∧ (s.step e).handler = s.handler ∧
      (s.step e).slotQueueRecycle = s.slotQueueRecycle ∧
      (s.step e).slotQueueAvailable = s.slotQueueAvailable := by
  have hreceived := s.received_sender he
  unfold received at hreceived
  rw [Prod.mk.injEq, Prod.mk.injEq, Prod.mk.injEq, Prod.mk.injEq, Prod.mk.injEq] at hreceived
  exact hreceived.2.2

theorem slotQueueAvailable_dropReference (s : Slots.State) (slot : Nat) :
    (s.dropReference slot).slotQueueAvailable = s.slotQueueAvailable := by
  unfold dropReference
  dsimp only
  split
  · rfl
  · rfl

theorem slotQueueAvailable_handlerStep (s : Slots.State) (result : Reception) :
    (s.handlerStep result).slotQueueAvailable = s.slotQueueAvailable := by
  have henter : s.enterSlot.1.slotQueueAvailable = s.slotQueueAvailable := by
    unfold enterSlot
    split
    · rfl
    · rfl
  unfold handlerStep
  split
  · rfl
  · split
    · rfl
    · unfold parseMessage
      generalize s.enterSlot = entered at henter ⊢
      obtain ⟨s₁, slot⟩ := entered
      dsimp only
      split
      · exact henter
      · exact henter
      · exact henter
  · unfold skipMessage
    dsimp only
    split
    · split
      · rfl
      · exact slotQueueAvailable_dropReference ..
    · rfl

/-- Unless a message is put off, the slot handler stops at the position it has read. -/
theorem handlerStep_parsing {result : Reception} (hresult : result ≠ .retry) {txPos : UInt32}
    (hpc : s.handler = .parsing txPos ∨ ∃ size, s.handler = .skipping txPos size) :
    ((s.handlerStep result).handler = .parsing txPos ∨
      ∃ size, (s.handlerStep result).handler = .skipping txPos size) ∨
      (s.handlerStep result).handler = .idle ∧ (s.handlerStep result).rxPos = txPos := by
  unfold handlerStep
  rcases hpc with hpc | ⟨size, hpc⟩
  · rw [hpc]
    dsimp only
    split
    · next heq => exact .inr ⟨rfl, heq⟩
    · left
      right
      exact s.parseMessage_skipping hresult txPos
  · rw [hpc]
    exact .inl (.inl (s.skipMessage_fields txPos size).2.2.2.2)

theorem processFreeQueue_fields (s : Slots.State) :
    s.processFreeQueue.txPos = s.txPos ∧ s.processFreeQueue.rxPos = s.rxPos ∧
      s.processFreeQueue.handler = s.handler ∧
      s.processFreeQueue.slotQueueRecycle = s.slotQueueRecycle := by
  unfold processFreeQueue
  split
  · exact ⟨rfl, rfl, rfl, rfl⟩
  · dsimp only
    split
    · exact ⟨rfl, rfl, rfl, rfl⟩
    · exact ⟨rfl, rfl, rfl, rfl⟩

end Slots.State

namespace Transport

open Slots (Reception SlotRange)

variable {ι κ : Type*} {r : SlotRange} {t : State ι κ}

/-- The positions that the events are about are those of the slots. -/
structure Linked (r : SlotRange) (t : State ι κ) : Prop where
  keeps : t.slots.Keeps r
  trigger : t.trigger.Invariant
  recycle : t.recycle.Invariant
  txPos : t.trigger.txPos = t.slots.txPos
  recycled : t.recycle.txPos = t.slots.slotQueueRecycle
  parsing : ∀ p, t.trigger.handler = .parse p →
    t.slots.handler = .parsing p ∨ ∃ size, t.slots.handler = .skipping p size
  waiting : (∀ p, t.trigger.handler ≠ .parse p) →
    t.slots.handler = .idle ∧ t.trigger.rxPos = t.slots.rxPos
  available : t.recycle.handler ≠ .snapshot → (∀ p, t.recycle.handler ≠ .parse p) →
    t.recycle.rxPos = t.slots.slotQueueAvailable

namespace Linked

theorem init (r : SlotRange) (slotData : Nat → Block) (triggerFired recycleFired : Bool) :
    Linked r (.init r slotData triggerFired recycleFired : State ι κ) where
  keeps := .init r slotData
  trigger := RemoteEvent.State.invariant_create (.inl rfl)
  recycle := RemoteEvent.State.invariant_create (.inl rfl)
  txPos := rfl
  recycled := rfl
  parsing p hp := by cases hp
  waiting _ := ⟨rfl, rfl⟩
  available _ _ := rfl

/-- Only the flags of the trigger change. -/
theorem setTrigger (h : Linked r t) {e : RemoteEvent.State ι κ} (he : e.Invariant)
    (hfields : e.txPos = t.slots.txPos ∧ e.rxPos = t.trigger.rxPos ∧
      e.handler = t.trigger.handler) : Linked r { t with trigger := e } := by
  obtain ⟨htx, hrx, hpc⟩ := hfields
  refine { h with trigger := he, txPos := htx, parsing := ?_, waiting := ?_ }
  · intro p hp
    exact h.parsing p (hpc ▸ hp)
  · intro hp
    obtain ⟨hidle, hpos⟩ := h.waiting (hpc ▸ hp)
    exact ⟨hidle, hrx.trans hpos⟩

/-- Only the flags of the recycle event change. -/
theorem setRecycle (h : Linked r t) {e : RemoteEvent.State (Option ι) Empty} (he : e.Invariant)
    (hfields : e.txPos = t.slots.slotQueueRecycle ∧ e.rxPos = t.recycle.rxPos ∧
      e.handler = t.recycle.handler) : Linked r { t with recycle := e } := by
  obtain ⟨htx, hrx, hpc⟩ := hfields
  refine { h with recycle := he, recycled := htx, available := ?_ }
  intro hsnapshot hparse
  exact hrx.trans (h.available (hpc ▸ hsnapshot) (hpc ▸ hparse))

variable [DecidableEq ι] [DecidableEq κ]

omit [DecidableEq κ] in
/-- The trigger goes with `tx_pos`. -/
theorem sent_fields (h : Linked r t) {i : ι} (hidle : t.trigger.peer i = .idle)
    (s : Slots.State) :
    (t.sent i s).slots = s ∧ (t.sent i s).recycle = t.recycle ∧
      (t.sent i s).trigger.Invariant ∧ (t.sent i s).trigger.txPos = s.txPos ∧
      (t.sent i s).trigger.rxPos = t.trigger.rxPos ∧
      (t.sent i s).trigger.handler = t.trigger.handler := by
  unfold State.sent
  split
  · next htx => exact ⟨rfl, rfl, h.trigger, h.txPos.trans htx.symm, rfl, rfl⟩
  · obtain ⟨htx, hrx, hpc⟩ := t.trigger.peerStep_fields i s.txPos
    rw [if_pos hidle] at htx
    exact ⟨rfl, rfl, RemoteEvent.State.peerStep_invariant h.trigger i _, htx, hrx, hpc⟩

omit [DecidableEq κ] in
theorem sent (h : Linked r t) {i : ι} (hidle : t.trigger.peer i = .idle) {e : Slots.Event}
    (he : e = .sender ∨ ∃ m isBlocking, e = .send m isBlocking) :
    Linked r (t.sent i (t.slots.step e)) := by
  have hkeeps := (h.keeps.step e).2
  obtain ⟨hrx, hpc, hrecycled, havail⟩ := t.slots.sender_events he
  obtain ⟨hslots, hrecycle, htrigger, htx, hrx', hpc'⟩ := h.sent_fields hidle (t.slots.step e)
  generalize t.sent i (t.slots.step e) = t' at *
  rw [← hslots] at hkeeps hrx hpc hrecycled havail htx
  exact
    { keeps := hkeeps
      trigger := htrigger
      recycle := hrecycle ▸ h.recycle
      txPos := htx
      recycled := by rw [hrecycle, h.recycled, hrecycled]
      parsing := by
        rw [hpc', hpc]
        exact h.parsing
      waiting := by
        rw [hpc', hpc, hrx', hrx]
        exact h.waiting
      available := by
        rw [hrecycle, havail]
        exact h.available }

omit [DecidableEq κ] in
/-- The recycle event goes with `slot_queue_recycle`. -/
theorem released_fields (h : Linked r t) {j : Option ι} (hidle : t.recycle.peer j = .idle)
    {s : Slots.State} (havail : s.slotQueueAvailable = t.slots.slotQueueAvailable) :
    (t.released j s).slots = s ∧ (t.released j s).trigger = t.trigger ∧
      (t.released j s).recycle.Invariant ∧
      (t.released j s).recycle.txPos = s.slotQueueRecycle ∧
      ((t.released j s).recycle.handler ≠ .snapshot →
        (∀ p, (t.released j s).recycle.handler ≠ .parse p) →
        (t.released j s).recycle.rxPos = s.slotQueueAvailable) := by
  unfold State.released
  split
  · next heq =>
    exact ⟨rfl, rfl, h.recycle, h.recycled.trans heq.symm,
      fun hs hp => (h.available hs hp).trans havail.symm⟩
  · obtain ⟨htx, hrx, hpc⟩ := t.recycle.peerStep_fields j s.slotQueueRecycle
    rw [if_pos hidle] at htx
    exact ⟨rfl, rfl, RemoteEvent.State.peerStep_invariant h.recycle j _, htx,
      fun hs hp => hrx.trans ((h.available (hpc ▸ hs) (hpc ▸ hp)).trans havail.symm)⟩

omit [DecidableEq κ] in
theorem release (h : Linked r t) {i : ι} (hidle : t.recycle.peer (some i) = .idle)
    (slot off : Nat) (closing : Bool) :
    Linked r (t.released (some i) (t.slots.step (.release slot off closing))) := by
  have hkeeps := (h.keeps.step (.release slot off closing)).2
  obtain ⟨htx, hrx, hpc, -, havail⟩ := t.slots.release_fields slot off closing
  obtain ⟨hslots, htrigger, hrecycle, hrecycled, havailable⟩ := h.released_fields hidle havail
  generalize t.released (some i) (t.slots.step (.release slot off closing)) = t' at *
  rw [← hslots] at hkeeps htx hrx hpc hrecycled havailable
  exact
    { keeps := hkeeps
      trigger := htrigger ▸ h.trigger
      recycle := hrecycle
      txPos := by rw [htrigger, h.txPos, htx]
      recycled := hrecycled
      parsing := by
        rw [htrigger, hpc]
        exact h.parsing
      waiting := by
        rw [htrigger, hpc, hrx]
        exact h.waiting
      available := havailable }

omit [DecidableEq ι] [DecidableEq κ] in
/-- The slot handler takes its snapshot of `tx_pos`. -/
theorem snapshot (h : Linked r t) (hpc : t.trigger.handler = .snapshot) (result : Reception) :
    Linked r
      { t with slots := t.slots.handlerStep result, trigger := t.trigger.handlerStep } := by
  have hkeeps := (h.keeps.step (.handler result)).2
  obtain ⟨hidle, -⟩ := h.waiting (by rw [hpc]; nofun)
  have hslots : t.slots.handlerStep result =
      { t.slots with handler := .parsing t.slots.txPos } := by
    unfold Slots.State.handlerStep
    rw [hidle]
  have htrigger : t.trigger.handlerStep =
      { t.trigger with handler := .parse t.trigger.txPos } := by
    unfold RemoteEvent.State.handlerStep
    rw [hpc]
  have hinvariant := RemoteEvent.State.handlerStep_invariant h.trigger
  change (t.slots.handlerStep result).Keeps r at hkeeps
  rw [hslots] at hkeeps ⊢
  rw [htrigger] at hinvariant ⊢
  exact
    { keeps := hkeeps
      trigger := hinvariant
      recycle := h.recycle
      txPos := h.txPos
      recycled := h.recycled
      parsing := fun p hp => by
        obtain rfl : t.trigger.txPos = p := by simpa using hp
        exact .inl (congrArg _ h.txPos.symm)
      waiting := fun hp => absurd rfl (hp _)
      available := h.available }

omit [DecidableEq κ] in
/-- The slot handler goes on in `parse_rx_slots`. -/
theorem parse (h : Linked r t) (hidle : t.recycle.peer none = .idle) {txPos : UInt32}
    (hpc : t.trigger.handler = .parse txPos) {result : Reception} (hresult : result ≠ .retry) :
    Linked r (t.handler result) := by
  have hkeeps := (h.keeps.step (.handler result)).2
  change (t.slots.handlerStep result).Keeps r at hkeeps
  obtain ⟨htx, -, -⟩ := t.slots.handlerStep_fields result
  have hgoes := Slots.State.handlerStep_parsing hresult (h.parsing txPos hpc)
  obtain ⟨hslots, htrigger, hrecycle, hrecycled, havailable⟩ :=
    h.released_fields hidle (t.slots.slotQueueAvailable_handlerStep result)
  unfold State.handler
  rw [if_pos hidle, hpc]
  dsimp only
  generalize t.released none (t.slots.handlerStep result) = t' at *
  rw [← hslots] at hkeeps htx hgoes hrecycled havailable
  have htx' : t'.trigger.txPos = t'.slots.txPos := by rw [htrigger, h.txPos, htx]
  have hstay (hstays : t'.slots.handler = .parsing txPos ∨
      ∃ size, t'.slots.handler = .skipping txPos size) : Linked r t' :=
    { keeps := hkeeps
      trigger := htrigger ▸ h.trigger
      recycle := hrecycle
      txPos := htx'
      recycled := hrecycled
      parsing := fun p hp => by
        rw [htrigger, hpc] at hp
        cases hp
        exact hstays
      waiting := fun hp => absurd (htrigger ▸ hpc) (hp txPos)
      available := havailable }
  cases hend : t'.slots.handler with
  | idle =>
    have hpos : t'.slots.rxPos = txPos := by
      rw [hend] at hgoes
      rcases hgoes with (hgoes | ⟨size, hgoes⟩) | ⟨-, hpos⟩
      · cases hgoes
      · cases hgoes
      · exact hpos
    have hann : t'.trigger.txPos ≠ t'.slots.rxPos → t'.trigger.fired ∨ t'.trigger.Firing := by
      rw [htrigger, hpos]
      exact h.trigger.announced txPos (by unfold RemoteEvent.State.target; rw [hpc])
    exact
      { keeps := hkeeps
        trigger := RemoteEvent.State.invariant_testFired hann
        recycle := hrecycle
        txPos := htx'
        recycled := hrecycled
        parsing := fun p hp => by cases hp
        waiting := fun _ => ⟨hend, rfl⟩
        available := havailable }
  | parsing | skipping =>
    apply hstay
    rcases hgoes with hstays | ⟨hidle, -⟩
    · exact hstays
    · rw [hidle] at hend
      cases hend

omit [DecidableEq ι] [DecidableEq κ] in
/-- The slot handler goes on in `remote_event_wait`. -/
theorem wait (h : Linked r t) (hsnapshot : t.trigger.handler ≠ .snapshot)
    (hparse : ∀ p, t.trigger.handler ≠ .parse p) :
    Linked r { t with trigger := t.trigger.handlerStep } := by
  obtain ⟨htx, hrx, hstays⟩ := RemoteEvent.State.handlerStep_waiting hsnapshot hparse
  obtain ⟨hidle, hpos⟩ := h.waiting hparse
  exact
    { h with
      trigger := RemoteEvent.State.handlerStep_invariant h.trigger
      txPos := htx.trans h.txPos
      parsing := fun p hp => absurd hp (hstays p)
      waiting := fun _ => ⟨hidle, hrx.trans hpos⟩ }

omit [DecidableEq κ] in
theorem handler (h : Linked r t) {result : Reception} (hresult : result ≠ .retry) :
    Linked r (t.handler result) := by
  by_cases hidle : t.recycle.peer none = .idle
  · by_cases hparse : ∃ txPos, t.trigger.handler = .parse txPos
    · obtain ⟨txPos, hpc⟩ := hparse
      exact h.parse hidle hpc hresult
    · have hparse (txPos : UInt32) : t.trigger.handler ≠ .parse txPos :=
        fun hpc => hparse ⟨txPos, hpc⟩
      unfold State.handler
      rw [if_pos hidle]
      split
      · next hpc => exact h.snapshot hpc result
      · next hpc => exact absurd hpc (hparse _)
      · next hsnapshot _ => exact h.wait hsnapshot hparse
  · unfold State.handler
    rw [if_neg hidle]
    exact h

omit [DecidableEq ι] [DecidableEq κ] in
/-- The recycle thread in the loop of `process_free_queue`. -/
theorem freeQueue (h : Linked r t)
    (hloop : t.recycle.handler = .snapshot ∨ ∃ p, t.recycle.handler = .parse p) :
    Linked r
      (if t.slots.slotQueueAvailable = t.slots.slotQueueRecycle then
        { t with
          recycle :=
            { t.recycle with rxPos := t.slots.slotQueueAvailable, handler := .wait .testFired } }
      else { t with slots := t.slots.processFreeQueue }) := by
  split
  · next heq =>
    have hann : t.recycle.txPos ≠ t.slots.slotQueueAvailable →
        t.recycle.fired ∨ t.recycle.Firing :=
      fun hne => absurd (h.recycled.trans heq.symm) hne
    exact
      { h with
        recycle := RemoteEvent.State.invariant_testFired hann
        available := fun _ _ => rfl }
  · have hkeeps := (h.keeps.step .recycle).2
    obtain ⟨htx, hrx, hpc, hrecycle⟩ := t.slots.processFreeQueue_fields
    exact
      { keeps := hkeeps
        trigger := h.trigger
        recycle := h.recycle
        txPos := h.txPos.trans htx.symm
        recycled := h.recycled.trans hrecycle.symm
        parsing := fun p hp => hpc.symm ▸ h.parsing p hp
        waiting := fun hp => ⟨hpc.trans (h.waiting hp).1, (h.waiting hp).2.trans hrx.symm⟩
        available := fun hs hp => by
          rcases hloop with hloop | ⟨p, hloop⟩
          · exact absurd hloop hs
          · exact absurd hloop (hp p) }

omit [DecidableEq ι] [DecidableEq κ] in
theorem recycleThread (h : Linked r t) : Linked r t.recycleThread := by
  unfold State.recycleThread
  split
  · next hpc => exact h.freeQueue (.inl hpc)
  · next hpc => exact h.freeQueue (.inr ⟨_, hpc⟩)
  · next hsnapshot hparse =>
    obtain ⟨htx, hrx, -⟩ := RemoteEvent.State.handlerStep_waiting hsnapshot hparse
    exact
      { h with
        recycle := RemoteEvent.State.handlerStep_invariant h.recycle
        recycled := htx.trans h.recycled
        available := fun _ _ => hrx.trans (h.available hsnapshot hparse) }

theorem step (h : Linked r t) {e : Event ι κ} (he : e.mayPutOff = false) :
    Linked r (t.step e) := by
  cases e with
  | send i m isBlocking =>
    dsimp only [State.step]
    split
    · next hidle => exact h.sent hidle (.inr ⟨m, isBlocking, rfl⟩)
    · exact h
  | sender i =>
    dsimp only [State.step]
    split
    · next hidle => exact h.sent hidle (.inl rfl)
    · exact h
  | signalTrigger i =>
    obtain ⟨htx, hrx, hpc⟩ := t.trigger.peerStep_fields i t.slots.txPos
    rw [h.txPos, ite_self] at htx
    exact h.setTrigger (RemoteEvent.State.peerStep_invariant h.trigger i _) ⟨htx, hrx, hpc⟩
  | triggerDoorbell =>
    obtain ⟨htx, hrx, hpc⟩ := t.trigger.isrStep_fields
    exact h.setTrigger (RemoteEvent.State.isrStep_invariant h.trigger)
      ⟨htx.trans h.txPos, hrx, hpc⟩
  | requestPoll k =>
    obtain ⟨htx, hrx, hpc⟩ := t.trigger.callerStep_fields k
    exact h.setTrigger (RemoteEvent.State.callerStep_invariant h.trigger k)
      ⟨htx.trans h.txPos, hrx, hpc⟩
  | handler result =>
    refine h.handler fun heq => ?_
    rw [heq] at he
    cases he
  | release i slot off closing =>
    dsimp only [State.step]
    split
    · next hidle => exact h.release hidle slot off closing
    · exact h
  | signalRecycle j =>
    dsimp only [State.step]
    split
    · exact h
    · next hbusy =>
      obtain ⟨htx, hrx, hpc⟩ := t.recycle.peerStep_fields j t.slots.slotQueueRecycle
      rw [if_neg hbusy] at htx
      exact h.setRecycle (RemoteEvent.State.peerStep_invariant h.recycle j _)
        ⟨htx.trans h.recycled, hrx, hpc⟩
  | recycleDoorbell =>
    obtain ⟨htx, hrx, hpc⟩ := t.recycle.isrStep_fields
    exact h.setRecycle (RemoteEvent.State.isrStep_invariant h.recycle)
      ⟨htx.trans h.recycled, hrx, hpc⟩
  | recycle => exact h.recycleThread
  | triggerBell =>
    exact h.setTrigger (RemoteEvent.State.step_invariant h.trigger .bell) ⟨h.txPos, rfl, rfl⟩
  | recycleBell =>
    exact h.setRecycle (RemoteEvent.State.step_invariant h.recycle .bell) ⟨h.recycled, rfl, rfl⟩

end Linked

/-! ## At rest -/

/-- The slot handler and the recycle thread sleep, and nobody is about to wake them. -/
structure AtRest (t : State ι κ) : Prop where
  handler : t.trigger.Blocked
  handlerQuiet : t.trigger.Quiet
  recycle : t.recycle.Blocked
  recycleQuiet : t.recycle.Quiet

instance [Fintype ι] [Fintype κ] (t : State ι κ) : Decidable (AtRest t) :=
  decidable_of_iff
    (t.trigger.Blocked ∧ t.trigger.Quiet ∧ t.recycle.Blocked ∧ t.recycle.Quiet)
    ⟨fun ⟨handler, handlerQuiet, recycle, recycleQuiet⟩ =>
      { handler, handlerQuiet, recycle, recycleQuiet },
      fun h => ⟨h.handler, h.handlerQuiet, h.recycle, h.recycleQuiet⟩⟩

/-- All that has been announced is done. -/
theorem Linked.positions (h : Linked r t) (hrest : AtRest t) :
    t.slots.rxPos = t.slots.txPos ∧ t.slots.slotQueueAvailable = t.slots.slotQueueRecycle := by
  constructor
  · obtain ⟨-, hpos⟩ := h.waiting fun p hp => by
      rw [hrest.handler.1] at hp
      cases hp
    rw [← hpos, ← h.txPos]
    exact (h.trigger.txPos_eq hrest.handler hrest.handlerQuiet).symm
  · have hpos := h.available (by rw [hrest.recycle.1]; decide) fun p hp => by
      rw [hrest.recycle.1] at hp
      cases hp
    rw [← hpos, ← h.recycled]
    exact (h.recycle.txPos_eq hrest.recycle hrest.recycleQuiet).symm

theorem ring_self (s : Slots.State) (pos : UInt32) : s.ring pos pos = [] := by
  unfold Slots.State.ring
  simp

/-- What is true at rest: all messages have been handled, and each slot is being filled, held
back by services or free for the sender. -/
structure Settled (r : SlotRange) (s : Slots.State) : Prop where
  seen : Slots.Interleaved s.seen (s.sent.map Slots.Message.packet)
  slots : (s.filling ++ s.heldBack r ++ s.available).Perm r.slots
  permits : s.slotAvailable = s.available.length

theorem Linked.settled (h : Linked r t) (hrest : AtRest t) : Settled r t.slots := by
  obtain ⟨hrx, havail⟩ := h.positions hrest
  have hconserved := h.keeps.conserved
  obtain ⟨g, -, hr, -⟩ := h.keeps
  obtain ⟨delivered, -, hseen, hall⟩ := hr.received
  refine ⟨hall hrx ▸ hseen, ?_, hconserved.permits⟩
  have hunread : t.slots.unread = [] := by
    rw [Slots.State.unread, hrx]
    exact ring_self ..
  have hrecycled : t.slots.recycled = [] := by
    rw [Slots.State.recycled, havail]
    exact ring_self ..
  have hslots := hconserved.partition
  rw [hunread, hrecycled] at hslots
  simpa using hslots

/-- The sender waits for a slot, and nothing else goes on. -/
structure Stuck (t : State ι κ) : Prop extends AtRest t where
  sender : ∃ m, t.slots.sender = .waiting m
  permit : t.slots.slotAvailable = 0

theorem Linked.allHeld (h : Linked r t) (hstuck : Stuck t) : t.slots.AllHeld r := by
  obtain ⟨m, hwait⟩ := hstuck.sender
  have hpermit := hstuck.permit
  obtain ⟨hrx, havail⟩ := h.positions hstuck.toAtRest
  obtain ⟨g, hnone, hr, hs, hg, -⟩ := h.keeps
  have hfin := hr.finished_eq hs hwait hrx
  have hring := hr.recycled_le_add
  have hpermits := hr.slotAvailable
  have htaken := hr.taken_le
  rw [hr.slotQueueAvailable, hr.slotQueueRecycle,
    Slots.ofNat_eq_ofNat hr.available_le (by omega)] at havail
  by_contra hnot
  unfold Slots.State.AllHeld at hnot
  push Not at hnot
  obtain ⟨slot, hslot, hfree⟩ := hnot
  have := hr.taken_lt_recycled hnone hg hfin hslot hfree
  omega

theorem Linked.run [DecidableEq ι] [DecidableEq κ] (h : Linked r t) {es : List (Event ι κ)}
    (hes : ∀ e ∈ es, e.mayPutOff = false) : Linked r (t.run es) :=
  (Machine.along_of_forall_mem State.step hes).invariant (fun _ _ h he => h.step he) h

/-- For every run in which no message is put off: at rest no message is left unread, and no
slot has got lost. -/
theorem settled_at_rest [DecidableEq ι] [DecidableEq κ] (r : SlotRange)
    (slotData : Nat → Block) (triggerFired recycleFired : Bool) (es : List (Event ι κ))
    (hes : ∀ e ∈ es, e.mayPutOff = false)
    (hrest : AtRest ((State.init r slotData triggerFired recycleFired).run es)) :
    Settled r ((State.init r slotData triggerFired recycleFired).run es).slots := by
  have hinit : Linked r (State.init r slotData triggerFired recycleFired : State ι κ) :=
    .init r slotData triggerFired recycleFired
  exact (hinit.run hes).settled hrest

/-- A sender that is left waiting for a slot waits for a service to give back a message, as
they hold one in every slot. -/
theorem sender_left_waiting [DecidableEq ι] [DecidableEq κ] (r : SlotRange)
    (slotData : Nat → Block) (triggerFired recycleFired : Bool) (es : List (Event ι κ))
    (hes : ∀ e ∈ es, e.mayPutOff = false)
    (hstuck : Stuck ((State.init r slotData triggerFired recycleFired).run es)) :
    ((State.init r slotData triggerFired recycleFired).run es).slots.AllHeld r := by
  have hinit : Linked r (State.init r slotData triggerFired recycleFired : State ι κ) :=
    .init r slotData triggerFired recycleFired
  exact (hinit.run hes).allHeld hstuck

/-! ## One slot -/

/-- The first message fills the slot, and a service keeps it. -/
def oneSlot : List (Event (Fin 1) (Fin 1)) :=
  [.send 0 Slots.fullMessage true, .sender 0, .sender 0, .signalTrigger 0, .signalTrigger 0,
    .send 0 Slots.fullMessage true] ++
  List.replicate 10 (.handler .claim) ++ List.replicate 3 .recycle

def oneSlotRange : SlotRange := ⟨1, 1, by decide⟩

abbrev oneStuck : State (Fin 1) (Fin 1) :=
  (State.init oneSlotRange (fun _ _ => 0) false false).run oneSlot

theorem atRest_oneStuck : AtRest oneStuck := by decide +kernel

theorem settled_at_rest_one : Settled oneSlotRange oneStuck.slots :=
  settled_at_rest oneSlotRange (fun _ _ => 0) false false oneSlot (by decide +kernel)
    atRest_oneStuck

theorem sender_left_waiting_one : oneStuck.slots.AllHeld oneSlotRange := by
  have hstuck : Stuck oneStuck :=
    { atRest_oneStuck with
      sender := Slots.SenderPc.exists_waiting (by decide +kernel)
      permit := by decide +kernel }
  exact sender_left_waiting oneSlotRange (fun _ _ => 0) false false oneSlot
    (by decide +kernel) hstuck

end Transport
