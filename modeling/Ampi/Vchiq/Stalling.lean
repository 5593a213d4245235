-- SUMMARY: When a sender that waits for a slot can go on: as long as services do not hold all of them.
import Ampi.Vchiq.Inbox

/-!
# Waiting for a slot

A sender without a slot waits for `slot_available_event`. It has flushed the last slot before
that, so the slot handler on the other side can come to the end of what has been sent, and
give back the slots in which no service holds a message.
-/

namespace Slots

open Layout (placed)

variable {r : SlotRange} {s : State} {g : Stream} {m : Message}

/-- A service gives back a message. -/
def Event.isRelease : Event → Bool
  | .release _ _ _ => true
  | .send _ _ | .sender | .handler _ | .recycle => false

/-- A service holds a message in each of the slots. -/
def State.AllHeld (s : State) (r : SlotRange) : Prop :=
  ∀ slot ∈ r.slots, ∃ off, (slot, off) ∈ s.held

namespace Represents

/-- All uses that the sender has been given are taken if services hold a message in each slot. -/
theorem recycled_le_taken (h : Represents s g) (hg : g.Conserved r) (hall : s.AllHeld r) :
    g.recycled ≤ g.taken := by
  by_contra hlt
  have hlt : g.taken < g.recycled := Nat.lt_of_not_le hlt
  have hfin := h.finished_le
  obtain ⟨off, hheld⟩ := hall _ (hg.range _ hlt)
  obtain ⟨x, hx, hlive, heq⟩ := h.held_at _ hheld
  have hxt := h.slot_lt_taken (mem_of_read hx)
  have hsame : g.taken = x.1 / 4096 :=
    h.distinct _ hlt _ (by omega) (h.not_released hfin) hlive (Prod.mk.inj heq).1
  omega

theorem no_permit (h : Represents s g) (hg : g.Conserved r) (hall : s.AllHeld r) :
    s.slotAvailable = 0 := by
  have := h.recycled_le_taken hg hall
  have := h.available_le
  have := h.slotAvailable
  omega

/-- A receiver that has reached `tx_pos` while the sender waits has finished all slots. -/
theorem finished_eq (h : Represents s g) (hs : SenderAt s g) (hwait : s.sender = .waiting m)
    (hpos : s.rxPos = s.txPos) : g.rx / 4096 = g.taken := by
  obtain ⟨-, hpc⟩ := hs
  rw [hwait] at hpc
  obtain ⟨hpublished, -, htx⟩ := hpc
  rw [h.rxPos, h.txPos, ofNat_eq_ofNat h.rx_le_published h.upTo_published_lt, hpublished,
    g.upTo_length, htx] at hpos
  omega

/-- The sender has been given a slot, or is going to be, if one of them is free. -/
theorem taken_lt_recycled (h : Represents s g) (hnone : g.dropping = none) (hg : g.Conserved r)
    (hfin : g.rx / 4096 = g.taken) {slot : Nat} (hslot : slot ∈ r.slots)
    (hfree : ∀ off, (slot, off) ∉ s.held) : g.taken < g.recycled := by
  obtain ⟨k, hk, hlive, rfl⟩ := h.exists_live hg hslot
  rcases Nat.lt_or_ge k (g.rx / 4096) with hlt | hge
  · obtain ⟨-, hheld⟩ := h.counts_of_finished hnone hlt hlive
    obtain ⟨a, ha, heq⟩ := List.countP_pos_iff.1 hheld
    have heq : a.1 = g.slotOf k := of_decide_eq_true heq
    rw [← heq] at hfree
    exact absurd ha (hfree a.2)
  · omega

end Represents

namespace State

/-- The slot handler gives no message back. -/
theorem held_handlerStep (s : State) (result : Reception) :
    ∃ new, (s.handlerStep result).held = new ++ s.held ∧ (result = .accept → new = []) := by
  unfold handlerStep
  split
  · exact ⟨[], rfl, fun _ => rfl⟩
  · next txPos _ =>
    split
    · exact ⟨[], rfl, fun _ => rfl⟩
    · obtain ⟨hreading, -⟩ | ⟨-, hheld⟩ := s.reading_parseMessage txPos result
      · exact ⟨[], (Prod.mk.inj hreading).2, fun _ => rfl⟩
      · exact ⟨_, hheld, fun haccept => by rw [haccept]; rfl⟩
  · exact ⟨[], (Prod.mk.inj (s.reading_skipMessage _ _)).2, fun _ => rfl⟩

theorem run_accept (s : State) (n : Nat) :
    (s.run (List.replicate n (.handler .accept))).held = s.held ∧
      (s.run (List.replicate n (.handler .accept))).sender = s.sender := by
  induction n generalizing s with
  | zero => exact ⟨rfl, rfl⟩
  | succ n ih =>
    obtain ⟨hheld, hsender⟩ := ih (s.handlerStep .accept)
    obtain ⟨new, hnew, hnil⟩ := s.held_handlerStep .accept
    rw [hnil rfl] at hnew
    exact ⟨hheld.trans hnew, hsender.trans (s.handlerStep_fields .accept).2.2⟩

theorem sender_processFreeQueue (s : State) : s.processFreeQueue.sender = s.sender := by
  unfold processFreeQueue
  split
  · rfl
  · dsimp only
    split
    · rfl
    · rfl

/-- The recycle thread gives the sender a permit if there is a slot for it. -/
theorem permit_processFreeQueue (h : Represents s g) (hlt : g.taken < g.recycled) :
    0 < s.processFreeQueue.slotAvailable := by
  have hpermits := h.slotAvailable
  unfold processFreeQueue
  split
  · next heq =>
    have hring := h.recycled_le_add
    have hfin := h.finished_le
    have htaken := h.taken_le
    rw [h.slotQueueAvailable, h.slotQueueRecycle,
      ofNat_eq_ofNat h.available_le (by omega)] at heq
    omega
  · next hne =>
    have hwalk := h.walked hne
    dsimp only
    rw [hwalk]
    exact Nat.succ_pos _

/-- A sender that gets its permit takes the slot. -/
theorem senderStep_waiting (hwait : s.sender = .waiting m) (hpermit : 0 < s.slotAvailable)
    (hfault : s.senderStep.sender ≠ .fault) :
    ∃ slot off, s.senderStep.sender = .filling m slot off := by
  unfold senderStep at hfault ⊢
  rw [hwait] at hfault ⊢
  dsimp only at hfault ⊢
  rw [if_neg hpermit.ne'] at hfault ⊢
  unfold takeSlot at hfault ⊢
  split at hfault
  · exact absurd rfl hfault
  · next hne =>
    rw [if_neg hne]
    exact ⟨_, _, rfl⟩

end State

namespace State.Keeps

theorem run (h : s.Keeps r) (es : List Event) : (s.run es).Keeps r :=
  Machine.run_invariant (fun _ e h => (h.step e).2) es h

/-- With a free slot the sender goes on when the slot handler has come to the end. -/
theorem served (h : s.Keeps r) (hwait : s.sender = .waiting m) {slot : Nat}
    (hslot : slot ∈ r.slots) (hfree : ∀ off, (slot, off) ∉ s.held) :
    ∃ n slot off,
      (s.run (List.replicate n (.handler .accept))).rxPos =
        (s.run (List.replicate n (.handler .accept))).txPos ∧
      (s.run (List.replicate n (.handler .accept) ++ [.recycle, .sender])).sender =
        .filling m slot off := by
  obtain ⟨g, hnone, hr, hs, -⟩ := id h
  obtain ⟨n, hpos⟩ := State.Sound.exists_caught_up ⟨g, hnone, hr, hs⟩
  obtain ⟨hheld, hsender⟩ := s.run_accept n
  have hkeeps := h.run (List.replicate n (.handler .accept))
  have hrun : s.run (List.replicate n (.handler .accept) ++ [.recycle, .sender]) =
      ((s.run (List.replicate n (.handler .accept))).step .recycle).step .sender :=
    Machine.run_append ..
  suffices hserved : ∃ slot off,
      (((s.run (List.replicate n (.handler .accept))).step .recycle).step .sender).sender =
        .filling m slot off by
    obtain ⟨slot, off, hserved⟩ := hserved
    exact ⟨n, slot, off, hpos, hrun ▸ hserved⟩
  generalize s.run (List.replicate n (.handler .accept)) = t at hpos hheld hsender hkeeps ⊢
  rw [← hheld] at hfree
  rw [hwait] at hsender
  obtain ⟨-, hrecycle⟩ := hkeeps.step .recycle
  obtain ⟨-, g₁, -, -, hs₁, -, -⟩ := hrecycle.step .sender
  obtain ⟨g, hnone, hr, hs, hg, -⟩ := hkeeps
  have hlt := hr.taken_lt_recycled hnone hg (hr.finished_eq hs hsender hpos) hslot hfree
  have hfault : t.processFreeQueue.senderStep.sender ≠ .fault := by
    intro hfault
    have hpc := hs₁.2
    rw [show ((t.step .recycle).step .sender).sender = .fault from hfault] at hpc
    exact hpc
  exact State.senderStep_waiting (t.sender_processFreeQueue.trans hsender)
    (State.permit_processFreeQueue hr hlt) hfault

/-- Without a free slot nothing but a message that is given back helps. -/
theorem stays (h : s.Keeps r) (hwait : s.sender = .waiting m) (hall : s.AllHeld r) {e : Event}
    (he : e.isRelease = false) : (s.step e).sender = .waiting m ∧ (s.step e).AllHeld r := by
  obtain ⟨g, -, hr, -, hg, -⟩ := h
  have hpermit := hr.no_permit hg hall
  cases e with
  | send m' isBlocking =>
    have hstep : s.step (.send m' isBlocking) = s := by
      dsimp only [State.step]
      rw [hwait]
    rw [hstep]
    exact ⟨hwait, hall⟩
  | sender =>
    have hstep : s.step .sender = s := by
      change s.senderStep = s
      unfold State.senderStep
      rw [hwait]
      exact if_pos hpermit
    rw [hstep]
    exact ⟨hwait, hall⟩
  | handler result =>
    obtain ⟨new, hheld, -⟩ := s.held_handlerStep result
    refine ⟨(s.handlerStep_fields result).2.2.trans hwait, fun slot hslot => ?_⟩
    obtain ⟨off, hoff⟩ := hall slot hslot
    refine ⟨off, ?_⟩
    change _ ∈ (s.handlerStep result).held
    rw [hheld]
    exact List.mem_append_right _ hoff
  | recycle =>
    obtain ⟨-, hheld⟩ := Prod.mk.inj s.reading_processFreeQueue
    refine ⟨s.sender_processFreeQueue.trans hwait, fun slot hslot => ?_⟩
    obtain ⟨off, hoff⟩ := hall slot hslot
    exact ⟨off, hheld ▸ hoff⟩
  | release => cases he

theorem run_stays (h : s.Keeps r) (hwait : s.sender = .waiting m) (hall : s.AllHeld r)
    {es : List Event} (hes : ∀ e ∈ es, e.isRelease = false) : (s.run es).sender = .waiting m := by
  induction es generalizing s with
  | nil => exact hwait
  | cons e es ih =>
    obtain ⟨hwait', hall'⟩ := h.stays hwait hall (hes e List.mem_cons_self)
    exact ih (h.step e).2 hwait' hall' fun e' he' => hes e' (List.mem_cons_of_mem _ he')

end State.Keeps

/-- In every state that is reached, a sender that waits for a slot can be served without any
service giving back a message if and only if there is a slot without one. Then the slot handler
comes to `tx_pos`, a slot is recycled and the sender takes it; otherwise it goes on waiting. -/
theorem State.waiting_served_iff (r : SlotRange) (slotData : Nat → Block) (es : List Event)
    (hwait : ((State.init r slotData).run es).sender = .waiting m) :
    let s := (State.init r slotData).run es
    ((∃ es', (∀ e ∈ es', e.isRelease = false) ∧
      ∃ slot off, (s.run es').sender = .filling m slot off) ↔
      ∃ slot ∈ r.slots, ∀ off, (slot, off) ∉ s.held) ∧
    ((∃ slot ∈ r.slots, ∀ off, (slot, off) ∉ s.held) → ∃ n slot off,
      (s.run (List.replicate n (.handler .accept))).rxPos =
        (s.run (List.replicate n (.handler .accept))).txPos ∧
      (s.run (List.replicate n (.handler .accept) ++ [.recycle, .sender])).sender =
        .filling m slot off) ∧
    (s.AllHeld r → ∀ es', (∀ e ∈ es', e.isRelease = false) →
      (s.run es').sender = .waiting m) := by
  intro s
  have hkeeps : s.Keeps r := (State.Keeps.init r slotData).run es
  refine ⟨?_, fun ⟨slot, hslot, hfree⟩ => hkeeps.served hwait hslot hfree,
    fun hall es' hes' => hkeeps.run_stays hwait hall hes'⟩
  constructor
  · rintro ⟨es', hes', slot, off, hserved⟩
    by_contra hnone
    push Not at hnone
    have hstays := hkeeps.run_stays hwait hnone hes'
    rw [hserved] at hstays
    cases hstays
  · rintro ⟨slot, hslot, hfree⟩
    obtain ⟨n, slot', off, -, hserved⟩ := hkeeps.served hwait hslot hfree
    refine ⟨_, fun e he => ?_, slot', off, hserved⟩
    rcases List.mem_append.1 he with he | he
    · rw [List.eq_of_mem_replicate he]
      rfl
    · rcases List.mem_pair.1 he with rfl | rfl
      · rfl
      · rfl

/-! ## Two slots -/

def SenderPc.isWaiting : SenderPc → Bool
  | .waiting _ => true
  | .idle | .filling _ _ _ | .publishing _ | .fault => false

theorem SenderPc.exists_waiting {pc : SenderPc} (h : pc.isWaiting = true) :
    ∃ m, pc = .waiting m := by
  cases pc with
  | waiting m => exact ⟨m, rfl⟩
  | idle | filling | publishing | fault => cases h

/-- A message that fills a slot. -/
def fullMessage : Message :=
  .ofPayload 0x05001002 (List.replicate 4088 0) (by
    rw [List.length_replicate]
    decide)

/-- A service holds the message in the first slot, and the sender waits for a third one. -/
def twoFull : List Event :=
  [.send fullMessage true, .sender, .sender, .handler .accept, .handler .claim,
    .send fullMessage true, .sender, .sender, .send fullMessage true]

abbrev twoTaken : State := (State.init ⟨1, 2, by decide⟩ fun _ _ => 0).run twoFull

theorem waiting_served_two :
    ∃ es, (∀ e ∈ es, e.isRelease = false) ∧
      ∃ m slot off, (twoTaken.run es).sender = .filling m slot off := by
  obtain ⟨m, hwait⟩ : ∃ m, twoTaken.sender = .waiting m :=
    SenderPc.exists_waiting (by decide +kernel)
  have hheld : twoTaken.held = [(1, 0)] := by decide +kernel
  obtain ⟨es, hes, hserved⟩ := (State.waiting_served_iff ⟨1, 2, by decide⟩ (fun _ _ => 0) twoFull
    hwait).1.2 ⟨2, by decide, fun off hoff => by
      change _ ∈ twoTaken.held at hoff
      rw [hheld] at hoff
      cases List.mem_singleton.1 hoff⟩
  exact ⟨es, hes, m, hserved⟩

end Slots
