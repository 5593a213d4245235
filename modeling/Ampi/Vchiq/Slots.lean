-- SUMMARY: One direction of the slot transport: queue_message, parse_rx_slots, release_slot and process_free_queue.
import Ampi.Bytes
import Ampi.Machine
import Ampi.Vchiq.Positions
import Mathlib.Logic.Function.Basic

/-!
# Slots

One side writes messages into its slots, the other walks over them and hands the slots
back. The sender runs `queue_message` under `slot_mutex`, so one message at a time; a
message is taken up after the quota waits, which touch nothing of what follows. The
receiver runs `parse_rx_slots` on its slot handler and `release_slot` wherever a service
releases a message. The sender's recycle thread runs `process_free_queue`.

One step is what happens between two points at which another party may run or look:
the reservation of space, a wait for a slot, the copying of a message, its publication,
the snapshot of `tx_pos`, the handling of one message, the advance over it. The service
callback is `shim_callback`, which returns `VCHIQ_SUCCESS`, so a DATA message is never
put off; handling any other message may have to be retried.
-/

namespace Slots

/-! ## Messages -/

/-- `VCHIQ_MSG_TYPE`. -/
def msgType (msgid : UInt32) : UInt32 := msgid >>> 24

/-- `VCHIQ_MSG_PADDING`. -/
def msgPadding : UInt32 := 0

/-- `VCHIQ_MSG_DATA`. -/
def msgData : UInt32 := 5

/-- `VCHIQ_MSGID_PADDING`. -/
def msgidPadding : UInt32 := 0

/-- `VCHIQ_MSGID_CLAIMED`. -/
def msgidClaimed : UInt32 := 0x40000000

/-- What the receiver finds at a position. -/
structure Packet where
  msgid : UInt32
  size : UInt32
  data : List UInt8
  deriving DecidableEq, Repr

/-- The arguments of `queue_message`: at most the maximal size, and one element
at most unless it is a DATA message. -/
structure Message where
  msgid : UInt32
  elements : List (List UInt8)
  fits : elements.flatten.length ≤ maxMsgSize.toNat
  single : msgType msgid ≠ msgData → elements.length ≤ 1

namespace Message

def size (m : Message) : UInt32 := .ofNat m.elements.flatten.length

def packet (m : Message) : Packet := ⟨m.msgid, m.size, m.elements.flatten⟩

end Message

/-- The loop over the elements of a DATA message. -/
def copyElements (b : Block) (pos : Nat) : List (List UInt8) → Block
  | [] => b
  | e :: elements => copyElements (b.store pos e) (pos + e.length) elements

/-- `header->msgid = msgid; header->size = size`. -/
def storeHeader (b : Block) (off : Nat) (msgid size : UInt32) : Block :=
  (b.storeWord off msgid).storeWord (off + 4) size

/-- What `queue_message` writes into the space reserved at `off`. -/
def storeMessage (b : Block) (off : Nat) (m : Message) : Block :=
  let b :=
    if msgType m.msgid = msgData then copyElements b (off + 8) m.elements
    else
      match m.elements with
      | [] => b
      | e :: _ => b.store (off + 8) e
  storeHeader b off m.msgid m.size

/-- The packet at `off`. -/
def loadPacket (b : Block) (off : Nat) : Packet :=
  let size := b.loadWord (off + 4)
  ⟨b.loadWord off, size, b.load (off + 8) size.toNat⟩

/-- The inner loop of `process_free_queue` with the bookkeeping of quotas left out: the
position it ends at. -/
def walk (data : Block) : (fuel : Nat) → (pos : UInt32) → Option UInt32
  | 0, _ => none
  | fuel + 1, pos =>
    if pos < slotSize then
      walk data fuel (pos + calcStride (data.loadWord (pos.toNat + 4)))
    else some pos

/-- A walk that visits a position twice does not end, and there are this many. -/
def walkFuel : Nat := slotSize.toNat / 8 + 1

/-! ## State -/

/-- The slots that `vchiq_init_slots` gives the sender. -/
structure SlotRange where
  slotFirst : Nat
  slotLast : Nat
  fits : slotLast + 1 - slotFirst ≤ maxSlotsPerSide.toNat

def SlotRange.count (r : SlotRange) : Nat := r.slotLast + 1 - r.slotFirst

/-- What the caller of `reserve_space` gets. -/
inductive Reservation where
  | header (slot : Nat) (off : Nat)
  | null
  /-- In `down_interruptible (&state->slot_available_event)`. -/
  | wait
  /-- `BUG_ON`, or an access through `tx_data == NULL`. -/
  | fault
  deriving DecidableEq, Repr

/-- Where the sender stands in `queue_message`. -/
inductive SenderPc where
  | idle
  | waiting (m : Message)
  | filling (m : Message) (slot off : Nat)
  | publishing (m : Message)
  | fault

/-- What `queue_message` goes on with. -/
def SenderPc.after (m : Message) : Reservation → SenderPc
  | .header slot off => .filling m slot off
  -- `VCHIQ_RETRY`
  | .null => .idle
  | .wait => .waiting m
  | .fault => .fault

/-- Where the slot handler stands in `parse_rx_slots`. -/
inductive HandlerPc where
  | idle
  | parsing (txPos : UInt32)
  /-- At `skip_message`. -/
  | skipping (txPos size : UInt32)

/-- A header written by the sender, and where in its stream. -/
structure Header where
  pos : UInt32
  msgid : UInt32
  size : UInt32

structure State where
  /-- The bytes of each slot. -/
  slotData : Nat → Block
  /-- The part of the sender's state that the receiver sees. -/
  txPos : UInt32 := 0
  slotQueue : UInt32 → Nat
  slotQueueRecycle : UInt32
  localTxPos : UInt32 := 0
  /-- The slot that `tx_data` points into. -/
  txData : Option Nat := none
  slotAvailable : Nat
  slotQueueAvailable : UInt32
  sender : SenderPc := .idle
  rxPos : UInt32 := 0
  /-- The slot that `rx_data` and `rx_info` point to. -/
  rxData : Option Nat := none
  useCount : Nat → Nat := fun _ => 0
  releaseCount : Nat → Nat := fun _ => 0
  handler : HandlerPc := .idle
  /-- The headers that services hold: slot and offset. -/
  held : List (Nat × Nat) := []
  /-- The messages that `queue_message` has sent with success. -/
  sent : List Message := []
  /-- The headers that the sender has written, padding included. -/
  written : List Header := []
  /-- The packets that the receiver has handled. -/
  seen : List Packet := []

/-- What becomes of the next message: the handler is done with it, its service keeps
it, or it has to wait. -/
inductive Reception where
  | accept | claim | retry
  deriving DecidableEq, Repr

/-- Only a DATA message is claimed, and it is never put off. -/
def Reception.admitted (r : Reception) (msgid : UInt32) : Reception :=
  match r with
  | .accept => .accept
  | .claim => if msgType msgid = msgData then .claim else .accept
  | .retry => if msgType msgid = msgData then .claim else .retry

inductive Event where
  | send (m : Message) (isBlocking : Bool)
  | sender
  | handler (r : Reception)
  /-- A service that is `closing` or not releases the header at `off` of `slot`. -/
  | release (slot off : Nat) (closing : Bool)
  | recycle

namespace State

/-- `vchiq_init_state`, in slots with any contents. -/
def init (r : SlotRange) (slotData : Nat → Block) : State where
  slotData
  slotQueue i := if i.toNat < r.count then r.slotFirst + i.toNat else 0
  slotQueueRecycle := .ofNat r.count
  slotAvailable := r.count
  slotQueueAvailable := .ofNat r.count

/-! ## The sender -/

/-- The end of `reserve_space`. -/
def reserveAt (s : State) (txPos space : UInt32) : State × Reservation :=
  match s.txData with
  | none => (s, .fault)
  | some slot =>
    ({ s with localTxPos := txPos + space }, .header slot (txPos &&& slotMask).toNat)

/-- `reserve_space` once it has its permit for another slot. -/
def takeSlot (s : State) (txPos space : UInt32) : State × Reservation :=
  if txPos = s.slotQueueAvailable * slotSize then (s, .fault)
  else
    let slot := s.slotQueue (slotQueueIndexFromPos txPos &&& slotQueueMask)
    reserveAt { s with txData := some slot } txPos space

/-- `reserve_space` behind the padding. -/
def reserveBehind (s : State) (txPos space : UInt32) (isBlocking : Bool) : State × Reservation :=
  if txPos &&& slotMask = 0 then
    if s.slotAvailable = 0 then
      -- flush through the last slot
      ({ s with localTxPos := txPos, txPos }, if isBlocking then .wait else .null)
    else takeSlot { s with slotAvailable := s.slotAvailable - 1 } txPos space
  else reserveAt s txPos space

/-- The padding header that `reserve_space` puts into the rest of a slot. -/
def padSlot (s : State) (slot : Nat) (txPos slotSpace : UInt32) : State :=
  let size := slotSpace - headerSize
  let data := storeHeader (s.slotData slot) (txPos &&& slotMask).toNat msgidPadding size
  { s with
    slotData := Function.update s.slotData slot data
    written := s.written ++ [⟨txPos, msgidPadding, size⟩] }

def reserveSpace (s : State) (space : UInt32) (isBlocking : Bool) : State × Reservation :=
  let txPos := s.localTxPos
  let slotSpace := slotSize - (txPos &&& slotMask)
  if space > slotSpace then
    match s.txData with
    | none => (s, .fault)
    | some slot =>
      reserveBehind (s.padSlot slot txPos slotSpace) (txPos + slotSpace) space isBlocking
  else reserveBehind s txPos space isBlocking

/-- `queue_message` up to the result of `reserve_space`. -/
def queueMessage (s : State) (m : Message) (isBlocking : Bool) : State :=
  let p := s.reserveSpace (calcStride m.size) isBlocking
  { p.1 with sender := SenderPc.after m p.2 }

/-- The rest of `queue_message`, one part at a time. -/
def senderStep (s : State) : State :=
  match s.sender with
  | .idle | .fault => s
  | .waiting m =>
    if s.slotAvailable = 0 then s
    else
      let p := takeSlot { s with slotAvailable := s.slotAvailable - 1 } s.localTxPos
        (calcStride m.size)
      { p.1 with sender := SenderPc.after m p.2 }
  | .filling m slot off =>
    { s with
      slotData := Function.update s.slotData slot (storeMessage (s.slotData slot) off m)
      written := s.written ++ [⟨s.localTxPos - calcStride m.size, m.msgid, m.size⟩]
      sender := .publishing m }
  | .publishing m => { s with txPos := s.localTxPos, sent := s.sent ++ [m], sender := .idle }

/-- One slot in `process_free_queue`. -/
def processFreeQueue (s : State) : State :=
  if s.slotQueueAvailable = s.slotQueueRecycle then s
  else
    let slot := s.slotQueue (s.slotQueueAvailable &&& slotQueueMask)
    match walk (s.slotData slot) walkFuel 0 with
    | none => s
    | some _ =>
      { s with
        slotQueueAvailable := s.slotQueueAvailable + 1
        slotAvailable := s.slotAvailable + 1 }

/-! ## The receiver -/

/-- `release_slot` from the increment of `release_count` on. -/
def dropReference (s : State) (slot : Nat) : State :=
  let releaseCount := s.releaseCount slot + 1
  let s := { s with releaseCount := Function.update s.releaseCount slot releaseCount }
  if releaseCount = s.useCount slot then
    { s with
      slotQueue := Function.update s.slotQueue (s.slotQueueRecycle &&& slotQueueMask) slot
      slotQueueRecycle := s.slotQueueRecycle + 1 }
  else s

/-- `release_slot` with a header. -/
def releaseHeader (s : State) (slot off : Nat) (closing : Bool) : State :=
  let msgid := (s.slotData slot).loadWord off
  if msgid &&& msgidClaimed = 0 ∨ closing then s
  else
    let data := (s.slotData slot).storeWord off (msgid &&& ~~~msgidClaimed)
    dropReference
      { s with
        slotData := Function.update s.slotData slot data
        held := s.held.erase (slot, off) }
      slot

/-- The slot that `rx_data` points to, entered if need be. -/
def enterSlot (s : State) : State × Nat :=
  match s.rxData with
  | some slot => (s, slot)
  | none =>
    let slot := s.slotQueue (slotQueueIndexFromPos s.rxPos &&& slotQueueMask)
    ({ s with
        rxData := some slot
        useCount := Function.update s.useCount slot 1
        releaseCount := Function.update s.releaseCount slot 0 },
      slot)

/-- The body of the loop in `parse_rx_slots` up to `skip_message`. -/
def parseMessage (s : State) (txPos : UInt32) (r : Reception) : State :=
  let (s, slot) := s.enterSlot
  let off := (s.rxPos &&& slotMask).toNat
  let packet := loadPacket (s.slotData slot) off
  match r.admitted packet.msgid with
  | .accept => { s with seen := s.seen ++ [packet], handler := .skipping txPos packet.size }
  | .claim =>
    let data := (s.slotData slot).storeWord off (packet.msgid ||| msgidClaimed)
    { s with
      slotData := Function.update s.slotData slot data
      useCount := Function.update s.useCount slot (s.useCount slot + 1)
      held := (slot, off) :: s.held
      seen := s.seen ++ [packet]
      handler := .skipping txPos packet.size }
  -- `bail_not_ready`
  | .retry => { s with handler := .idle }

/-- `skip_message`. -/
def skipMessage (s : State) (txPos size : UInt32) : State :=
  let s := { s with rxPos := s.rxPos + calcStride size, handler := .parsing txPos }
  if s.rxPos &&& slotMask = 0 then
    match s.rxData with
    | none => s
    | some slot => { s.dropReference slot with rxData := none }
  else s

/-- `parse_rx_slots`. -/
def handlerStep (s : State) (r : Reception) : State :=
  match s.handler with
  | .idle => { s with handler := .parsing s.txPos }
  | .parsing txPos =>
    if s.rxPos = txPos then { s with handler := .idle } else s.parseMessage txPos r
  | .skipping txPos size => s.skipMessage txPos size

def step (s : State) : Event → State
  | .send m isBlocking =>
    match s.sender with
    | .idle => s.queueMessage m isBlocking
    | _ => s
  | .sender => s.senderStep
  | .handler r => s.handlerStep r
  | .release slot off closing =>
    if (slot, off) ∈ s.held then s.releaseHeader slot off closing else s
  | .recycle => s.processFreeQueue

abbrev run : State → List Event → State := Machine.run step

end State

end Slots
