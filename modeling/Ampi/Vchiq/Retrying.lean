-- SUMMARY: What parse_rx_slots does with a DATA message whose callback returns VCHIQ_RETRY.
import Ampi.Vchiq.Claiming
import Ampi.Vchiq.Turnover

/-!
# Deferred delivery

`parse_rx_slots` marks a DATA message as claimed, in its header, before it calls the service. A
callback that returns `VCHIQ_RETRY` leaves the message where it is, and the next run reads the
marked header. Here the callback may return anything; its service stays open.
-/

namespace Slots

open Turnover (msgSrcPort)

inductive CallbackResult where
  | success | error | retry
  deriving DecidableEq, Repr

/-- What `parse_rx_slots` has read from a header when it calls the service. -/
structure Offer where
  type : UInt32
  localport : UInt32
  remoteport : UInt32
  size : UInt32
  deriving DecidableEq, Repr

def Packet.offer (p : Packet) : Offer where
  type := msgType p.msgid
  localport := msgDstPort p.msgid
  remoteport := msgSrcPort p.msgid
  size := p.size

namespace State

/-- Where the next header is. -/
def nextHeader (s : State) : Nat × Nat := (s.enterSlot.2, (s.rxPos &&& slotMask).toNat)

/-- The next message to parse. -/
def nextPacket (s : State) : Packet :=
  loadPacket (s.enterSlot.1.slotData s.nextHeader.1) s.nextHeader.2

/-- The state in which the service is called for the next message. -/
def claimNext (s : State) : State :=
  let (slot, off) := s.nextHeader
  let packet := s.nextPacket
  let s := s.enterSlot.1
  let data := (s.slotData slot).storeWord off (packet.msgid ||| msgidClaimed)
  { s with
    slotData := Function.update s.slotData slot data
    useCount := Function.update s.useCount slot (s.useCount slot + 1) }

/-- A run of `parse_rx_slots` up to the end of its first message, with what the callback for it
returns, and what the callback was called for. `isOpen` says of a local and a remote port that
`find_service_by_port` finds an open service whose peer is there. The type of a message that is
not a DATA message is one that the switch has no case for. -/
def parseRun (s : State) (isOpen : UInt32 → UInt32 → Bool) (result : CallbackResult) :
    State × Option Offer :=
  if s.rxPos = s.txPos then (s, none)
  else
    let header := s.nextHeader
    let packet := s.nextPacket
    let offer := packet.offer
    if offer.type = msgData ∧ isOpen offer.localport offer.remoteport then
      let s := s.claimNext
      if result = .retry then (s, some offer)
      else
        let s := { s with held := header :: s.held, seen := s.seen ++ [packet] }
        (s.skipMessage s.txPos packet.size, some offer)
    else (s.enterSlot.1.skipMessage s.txPos packet.size, none)

/-- After `n` runs, in which the callbacks return what `results` says. -/
def afterRuns (s : State) (isOpen : UInt32 → UInt32 → Bool) (results : Nat → CallbackResult) :
    Nat → State
  | 0 => s
  | n + 1 => ((s.afterRuns isOpen results n).parseRun isOpen (results n)).1

/-- The next message is offered in each run until the callback does not put it off: the same
message at the same position. Then it is passed, and its slot has one more use. -/
structure Deferred (s : State) (isOpen : UInt32 → UInt32 → Bool)
    (results : Nat → CallbackResult) : Prop where
  offered : ∀ n, (∀ i < n, results i = .retry) →
    ((s.afterRuns isOpen results n).parseRun isOpen (results n)).2 = some s.nextPacket.offer
  stays : ∀ n, (∀ i < n, results i = .retry) → (s.afterRuns isOpen results n).rxPos = s.rxPos
  accepted : ∀ n, (∀ i < n, results i = .retry) → results n ≠ .retry →
    (s.afterRuns isOpen results (n + 1)).rxPos = s.rxPos + calcStride s.nextPacket.size ∧
      (s.afterRuns isOpen results (n + 1)).useCount s.nextHeader.1 =
        s.enterSlot.1.useCount s.nextHeader.1 + 1

/-! ## The marked header -/

theorem msgType_claimed (msgid : UInt32) : msgType (msgid ||| msgidClaimed) ≠ msgData := by
  intro h
  have hmark := or_and_msgidClaimed msgid
  rw [and_msgidClaimed_of_data h] at hmark
  exact absurd hmark (by decide)

theorem enterSlot_of_some {s : State} {slot : Nat} (h : s.rxData = some slot) :
    s.enterSlot = (s, slot) := by
  rw [enterSlot, h]

theorem enterSlot_rxData (s : State) : s.enterSlot.1.rxData = some s.enterSlot.2 := by
  unfold enterSlot
  split <;> trivial

/-- `parse_rx_slots` has put the message off: it is marked, and its slot has one more use. -/
structure PutOff (s t : State) : Prop where
  rxPos : t.rxPos = s.rxPos
  txPos : t.txPos = s.txPos
  marked : t.nextPacket.msgid = s.nextPacket.msgid ||| msgidClaimed

/-- A run in which the service is called for the next message. -/
theorem parseRun_open {s : State} {isOpen : UInt32 → UInt32 → Bool} (hne : s.rxPos ≠ s.txPos)
    (hdata : s.nextPacket.offer.type = msgData)
    (hopen : isOpen s.nextPacket.offer.localport s.nextPacket.offer.remoteport)
    (result : CallbackResult) :
    s.parseRun isOpen result =
      if result = .retry then (s.claimNext, some s.nextPacket.offer)
      else
        ({ s.claimNext with
            held := s.nextHeader :: s.claimNext.held
            seen := s.claimNext.seen ++ [s.nextPacket] }.skipMessage s.claimNext.txPos
              s.nextPacket.size, some s.nextPacket.offer) := by
  rw [parseRun, if_neg hne]
  dsimp only
  rw [if_pos ⟨hdata, hopen⟩]

theorem putOff_claimNext (s : State) : PutOff s s.claimNext where
  rxPos := by
    rw [claimNext]
    exact (enterSlot_fields s).2.1
  txPos := by
    rw [claimNext]
    exact (enterSlot_fields s).1
  marked := by
    have hslot : s.claimNext.rxData = some s.enterSlot.2 := enterSlot_rxData s
    have hpos : s.claimNext.rxPos = s.rxPos := (enterSlot_fields s).2.1
    rw [nextPacket, nextHeader, enterSlot_of_some hslot, hpos]
    simp [claimNext, loadPacket, nextHeader]

/-- The marked message is of no type that there is a case for. -/
theorem PutOff.dropped {s t : State} (h : PutOff s t) (isOpen : UInt32 → UInt32 → Bool)
    (result : CallbackResult) : (t.parseRun isOpen result).2 = none := by
  unfold parseRun
  split
  · rfl
  · dsimp only
    rw [if_neg]
    rintro ⟨htype, -⟩
    rw [Packet.offer, h.marked] at htype
    exact msgType_claimed _ htype

theorem skipMessage_useCount (s : State) (txPos size : UInt32) :
    (s.skipMessage txPos size).useCount = s.useCount := by
  have hdrop (t : State) (slot : Nat) : (t.dropReference slot).useCount = t.useCount := by
    unfold dropReference
    dsimp only
    split <;> rfl
  unfold skipMessage
  dsimp only
  split
  · split
    · rfl
    · exact hdrop _ _
  · rfl

/-- Deferred delivery works exactly for the messages that are not put off. -/
theorem deferred_iff {s : State} {isOpen : UInt32 → UInt32 → Bool}
    (results : Nat → CallbackResult) (hne : s.rxPos ≠ s.txPos)
    (hdata : s.nextPacket.offer.type = msgData)
    (hopen : isOpen s.nextPacket.offer.localport s.nextPacket.offer.remoteport) :
    s.Deferred isOpen results ↔ results 0 ≠ .retry := by
  constructor
  · intro h hretry
    have hnone : ((s.afterRuns isOpen results 1).parseRun isOpen (results 1)).2 = none := by
      rw [afterRuns, afterRuns, parseRun_open hne hdata hopen, if_pos hretry]
      exact (putOff_claimNext s).dropped isOpen (results 1)
    have hsome := h.offered 1 fun i hi => by
      rw [Nat.lt_one_iff.1 hi]
      exact hretry
    cases hnone.symm.trans hsome
  · intro hfirst
    have hzero {n : Nat} (hn : ∀ i < n, results i = .retry) : n = 0 := by
      by_contra hpos
      exact hfirst (hn 0 (by omega))
    constructor
    · intro n hn
      obtain rfl := hzero hn
      rw [afterRuns, parseRun_open hne hdata hopen, if_neg hfirst]
    · intro n hn
      obtain rfl := hzero hn
      rfl
    · intro n hn hr
      obtain rfl := hzero hn
      rw [afterRuns, afterRuns, parseRun_open hne hdata hopen, if_neg hfirst]
      refine ⟨?_, ?_⟩
      · rw [(skipMessage_fields _ _ _).2.1]
        exact congrArg (· + _) (putOff_claimNext s).rxPos
      · rw [skipMessage_useCount]
        exact Function.update_self ..

/-! ## One message -/

/-- A DATA message of no bytes from port 2 to port 1, at the start of slot 8. -/
def oneMessage : State where
  slotData _ := storeHeader (fun _ => 0) 0 0x05002001 0
  txPos := 8
  slotQueue _ := 8
  slotQueueRecycle := 1
  slotAvailable := 0
  slotQueueAvailable := 1

/-- Its callback succeeds. -/
theorem deferred_iff_success :
    oneMessage.Deferred (fun localport remoteport => localport = 1 ∧ remoteport = 2)
      fun _ => .success :=
  (deferred_iff (fun _ => .success) (by decide) (by decide) (by decide)).2 (by decide)

/-- Its callback puts it off once, and is not called for it again. -/
theorem not_deferred : ¬ ∀ results,
    oneMessage.Deferred (fun localport remoteport => localport = 1 ∧ remoteport = 2) results := by
  intro h
  have := (h fun n => if n = 0 then .retry else .success).offered 1 (by decide)
  revert this
  decide

end State

end Slots
