-- SUMMARY: The sender of the slot transport with the counts behind its quotas, and a peer that gives slots back in any order.
import Ampi.Vchiq.Accounting
import Ampi.Vchiq.Conservation

/-!
# Turnover

The sender counts a DATA message for the slot it ends in, by comparing indices of slots.
`process_free_queue` counts once more, over the headers that it finds in a slot given back.

The peer parses slots to their end, in the order of the ring, and gives a slot back at any
time after that. It may leave anything in the slot, as long as the headers read the same.

A message is taken up behind the tests of the quotas, which change no count, so that any
message may be taken up at any time.
-/

namespace Turnover

open Slots Closing

/-! ## Messages -/

/-- `VCHIQ_MAKE_MSG`. -/
def makeMsg (type srcport dstport : UInt32) : UInt32 := type <<< 24 ||| srcport <<< 12 ||| dstport

/-- `VCHIQ_MSG_SRCPORT`. -/
def msgSrcPort (msgid : UInt32) : UInt32 := (msgid >>> 12) &&& 0xfff

/-- `VCHIQ_MAX_SERVICES`. -/
def maxServices : UInt32 := 4096

theorem toNat_makeMsg {srcport dstport : UInt32} (hsrc : srcport < maxServices)
    (hdst : dstport < maxServices) :
    (makeMsg msgData srcport dstport).toNat =
      (5 * 4096 + srcport.toNat) * 4096 + dstport.toNat := by
  have hsrc' : srcport.toNat < 2 ^ 12 := UInt32.lt_iff_toNat_lt.1 hsrc
  have hdst' : dstport.toNat < 2 ^ 12 := UInt32.lt_iff_toNat_lt.1 hdst
  have htype : (msgData <<< 24).toNat = 5 <<< 12 <<< 12 := rfl
  have hshift : (srcport <<< 12).toNat = srcport.toNat <<< 12 := by
    rw [UInt32.toNat_shiftLeft]
    change srcport.toNat <<< 12 % 2 ^ 32 = _
    rw [Nat.shiftLeft_eq]
    omega
  rw [makeMsg, UInt32.toNat_or, UInt32.toNat_or, htype, hshift, ← Nat.shiftLeft_or_distrib,
    ← Nat.shiftLeft_add_eq_or_of_lt hsrc', ← Nat.shiftLeft_add_eq_or_of_lt hdst',
    Nat.shiftLeft_eq, Nat.shiftLeft_eq]

theorem msgType_makeMsg {srcport dstport : UInt32} (hsrc : srcport < maxServices)
    (hdst : dstport < maxServices) : msgType (makeMsg msgData srcport dstport) = msgData := by
  have hsrc' : srcport.toNat < 4096 := UInt32.lt_iff_toNat_lt.1 hsrc
  have hdst' : dstport.toNat < 4096 := UInt32.lt_iff_toNat_lt.1 hdst
  apply UInt32.toNat_inj.1
  rw [msgType, UInt32.toNat_shiftRight, toNat_makeMsg hsrc hdst, Nat.shiftRight_eq_div_pow]
  change _ / 2 ^ 24 = 5
  omega

/-- The port that a message is counted for is that of the service that sends it. -/
theorem msgSrcPort_makeMsg {srcport dstport : UInt32} (hsrc : srcport < maxServices)
    (hdst : dstport < maxServices) : msgSrcPort (makeMsg msgData srcport dstport) = srcport := by
  have hsrc' : srcport.toNat < 4096 := UInt32.lt_iff_toNat_lt.1 hsrc
  have hdst' : dstport.toNat < 4096 := UInt32.lt_iff_toNat_lt.1 hdst
  have hmask : (0xfff : UInt32) = .ofNat (2 ^ 12 - 1) := rfl
  apply UInt32.toNat_inj.1
  rw [msgSrcPort, hmask, toNat_and_mask _ 12 (by omega), UInt32.toNat_shiftRight,
    toNat_makeMsg hsrc hdst, Nat.shiftRight_eq_div_pow]
  change _ / 2 ^ 12 % 2 ^ 12 = _
  omega

/-- What `vchiq_queue_message` is given. -/
structure DataCall where
  localport : UInt32
  remoteport : UInt32
  elements : List (List UInt8)
  fits : elements.flatten.length ≤ maxMsgSize.toNat
  localport_lt : localport < maxServices
  remoteport_lt : remoteport < maxServices

def DataCall.message (call : DataCall) : Message where
  msgid := makeMsg msgData call.localport call.remoteport
  elements := call.elements
  fits := call.fits
  single h := absurd (msgType_makeMsg call.localport_lt call.remoteport_lt) h

/-- A message that `queue_message` is given for no service, or of another type. -/
structure ControlCall where
  message : Message
  control : msgType message.msgid ≠ msgData

def isData (msgid : UInt32) : Bool := msgType msgid = msgData

/-- A DATA message of the service on `port`. -/
def isDataOf (port : Nat) (msgid : UInt32) : Bool := isData msgid && (msgSrcPort msgid).toNat = port

/-! ## Recounting -/

inductive Warning where
  | invalidMessageUseCount
  | badSlotUseCount
  | invalidSlotPosition
  deriving DecidableEq, Repr

/-- What the loop over a slot in `process_free_queue` works on. -/
structure Sweep where
  accounts : Nat → Account
  serviceFound : List Nat := []
  dataFound : Bool := false
  warnings : List Warning

/-- A DATA message of the service on `port`. -/
def Sweep.visitData (w : Sweep) (port : Nat) : Sweep :=
  let a := w.accounts port
  let w :=
    { w with
      accounts := Function.update w.accounts port a.freeMessage
      dataFound := true
      warnings :=
        if a.messageUseCount ≠ a.messageQuota ∧ a.messageUseCount = 0 then
          w.warnings ++ [Warning.invalidMessageUseCount]
        else w.warnings }
  if w.serviceFound.contains port then w
  else
    let a := w.accounts port
    { w with
      accounts := Function.update w.accounts port a.freeSlot
      serviceFound := port :: w.serviceFound
      warnings :=
        if 0 < a.slotUseCount then w.warnings else w.warnings ++ [Warning.badSlotUseCount] }

def Sweep.visit (w : Sweep) (msgid : UInt32) : Sweep :=
  if isData msgid then w.visitData (msgSrcPort msgid).toNat else w

/-- The loop over a slot in `process_free_queue`. -/
def sweep (data : Block) : (fuel : Nat) → (pos : UInt32) → Sweep → Option Sweep
  | 0, _, _ => none
  | fuel + 1, pos, w =>
    if pos < slotSize then
      let w := w.visit (data.loadWord pos.toNat)
      let pos := pos + calcStride (data.loadWord (pos.toNat + 4))
      let w :=
        if pos > slotSize then { w with warnings := w.warnings ++ [Warning.invalidSlotPosition] }
        else w
      sweep data fuel pos w
    else some w

/-- The headers of a slot that is filled to its end. -/
def scan (data : Block) : (fuel : Nat) → (pos : UInt32) → Option (List (UInt32 × UInt32))
  | 0, _ => none
  | fuel + 1, pos =>
    if pos < slotSize then
      let size := data.loadWord (pos.toNat + 4)
      (scan data fuel (pos + calcStride size)).map ((data.loadWord pos.toNat, size) :: ·)
    else if pos = slotSize then some []
    else none

/-! ## States and events -/

structure State where
  transport : Slots.State
  books : Books
  /-- The ports that a service has been added on. -/
  added : List Nat := []
  warnings : List Warning := []
  /-- The messages put into each slot since `process_free_queue` has last processed it. -/
  content : Nat → List UInt32 := fun _ => []
  /-- How many slots the peer has parsed to their end, and those of them that it has not
  given back. -/
  read : Nat := 0
  parsed : List Nat := []

inductive Event where
  /-- `vchiq_add_service_internal`. -/
  | addService (port : Nat)
  /-- `VCHIQ_SERVICE_OPTION_SLOT_QUOTA`, `VCHIQ_SERVICE_OPTION_MESSAGE_QUOTA`. -/
  | setSlotQuota (port : Nat) (value : Int)
  | setMessageQuota (port : Nat) (value : Int)
  /-- `queue_message`. -/
  | data (call : DataCall) (isBlocking : Bool)
  | control (call : ControlCall) (isBlocking : Bool)
  /-- The next part of `queue_message`. -/
  | sender
  /-- One slot in `process_free_queue`. -/
  | recycle
  /-- The peer comes to the end of a slot. -/
  | parse
  /-- The peer gives a slot back, and leaves `data` in it. -/
  | giveBack (slot : Nat) (data : Block)

namespace State

def init (r : SlotRange) (slotData : Nat → Block) : State where
  transport := .init r slotData
  books := (Closing.State.boot () r.count).books

/-- The service on `port` is in `queue_message`, and holds its port. -/
def sending (s : State) (port : Nat) : Bool :=
  match s.transport.sender with
  | .idle | .fault => false
  | .waiting m | .filling m _ _ | .publishing m => isDataOf port m.msgid

/-- The counts as they stand at `state->local_tx_pos`. -/
def booksHere (s : State) : Books := { s.books with localTxPos := s.transport.localTxPos }

def queueMessage (s : State) (m : Message) (isBlocking : Bool) : State :=
  match s.transport.sender with
  | .idle => { s with transport := s.transport.queueMessage m isBlocking }
  | _ => s

def senderStep (s : State) : State :=
  match s.transport.sender with
  | .filling m slot _ =>
    { s with
      transport := s.transport.senderStep
      books :=
        if isData m.msgid then s.booksHere.countData (msgSrcPort m.msgid).toNat else s.books
      content := Function.update s.content slot (s.content slot ++ [m.msgid]) }
  | _ => { s with transport := s.transport.senderStep }

def processFreeQueue (s : State) : State :=
  let t := s.transport
  if t.slotQueueAvailable = t.slotQueueRecycle then s
  else
    let slot := t.slotQueue (t.slotQueueAvailable &&& slotQueueMask)
    match sweep (t.slotData slot) walkFuel 0
        { accounts := s.books.accounts, warnings := s.warnings } with
    | none => s
    | some w =>
      let count := s.books.dataUseCount
      { s with
        transport := t.processFreeQueue
        books :=
          { s.books with
            accounts := w.accounts
            dataUseCount := if w.dataFound ∧ 0 < count then count - 1 else count }
        warnings := w.warnings
        content := Function.update s.content slot [] }

/-- The peer goes over a slot that has been shown to it up to its end. -/
def parse (s : State) : State :=
  if (s.read + 1) * 4096 ≤ s.transport.txPos.toNat then
    { s with
      read := s.read + 1
      parsed := s.transport.slotQueue (.ofNat s.read &&& slotQueueMask) :: s.parsed }
  else s

def giveBack (s : State) (slot : Nat) (data : Block) : State :=
  let t := s.transport
  if s.parsed.contains slot ∧ scan data walkFuel 0 = scan (t.slotData slot) walkFuel 0 then
    { s with
      transport :=
        { t with
          slotData := Function.update t.slotData slot data
          slotQueue := Function.update t.slotQueue (t.slotQueueRecycle &&& slotQueueMask) slot
          slotQueueRecycle := t.slotQueueRecycle + 1 }
      parsed := s.parsed.erase slot }
  else s

def step (s : State) : Event → State
  | .addService port =>
    if s.sending port then s
    else { s with books := s.booksHere.addService port, added := port :: s.added }
  | .setSlotQuota port value => { s with books := s.books.setSlotQuota port value }
  | .setMessageQuota port value => { s with books := s.books.setMessageQuota port value }
  | .data call isBlocking =>
    if s.added.contains call.localport.toNat then s.queueMessage call.message isBlocking else s
  | .control call isBlocking => s.queueMessage call.message isBlocking
  | .sender => s.senderStep
  | .recycle => s.processFreeQueue
  | .parse => s.parse
  | .giveBack slot data => s.giveBack slot data

abbrev run : State → List Event → State := Machine.run step

/-- The bytes put into the stream, headers and padding included. -/
def transmitted (s : State) : Nat :=
  (s.transport.written.map fun h => (calcStride h.size).toNat).sum

end State

/-- The counts say what is in the slots that have not been processed. -/
structure Exact (r : SlotRange) (s : State) : Prop where
  message : ∀ port, (s.books.accounts port).messageUseCount.toNat =
    (r.slots.map fun slot => (s.content slot).countP (isDataOf port)).sum
  slot : ∀ port, (s.books.accounts port).slotUseCount.toNat =
    r.slots.countP fun slot => (s.content slot).any (isDataOf port)
  data : s.books.dataUseCount.toNat = r.slots.countP fun slot => (s.content slot).any isData
  warnings : s.warnings = []

end Turnover
