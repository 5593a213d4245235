-- SUMMARY: The synchronous channel: one slot, passed between queue_message_sync and sync_func by two remote events.
import Ampi.Vchiq.Claiming
import Ampi.Vchiq.RemoteEvent
import Ampi.Vchiq.Turnover

/-!
# Synchronous messages

One direction between two parties. `queue_message_sync` waits for the event `sync_release` of
its side, writes the slot and fires `sync_trigger` on the other side; `sync_func` waits for
this event, and whoever is done with the message marks the slot as padding and fires
`sync_release`. One step is one access of one party to an event or to the slot.

`remote_event_pollall` polls all events whichever of them the doorbell has been rung for, so a
poll may come at any time.
-/

/-- The doorbell finds the event fired and armed only when the thread waits in `down`. -/
def RemoteEvent.Timely (r : RemoteEvent) (pc : Option Wait) : Prop :=
  r.fired → r.armed → pc = some .down

namespace Sync

open Slots Turnover
open RemoteEvent (Wait)

/-! ## The services of the receiver -/

/-- `VCHIQ_MSG_OPENACK`. -/
def msgOpenack : UInt32 := 3

structure Service where
  srvstate : SrvState
  remoteport : UInt32
  sync : Bool
  peerVersion : Int16 := 0
  /-- The permits of `remove_event`. -/
  removeEvent : Nat := 0

abbrev Services := UInt32 → Option Service

def findServiceByPort (services : Services) (localport : UInt32) : Option Service :=
  if localport ≤ 4095 then (services localport).filter (·.srvstate ≠ .free) else none

/-- `payload->version`. -/
def openackVersion : List UInt8 → Int16
  | b0 :: b1 :: _ => (b0.toUInt16 ||| b1.toUInt16 <<< 8).toInt16
  | _ => 0

/-- What `sync_func` does with a service that an OPENACK is for. -/
def Service.openack (service : Service) (header : Packet) : Service :=
  let service := if 2 ≤ header.size then
    { service with peerVersion := openackVersion header.data } else service
  if service.srvstate = .opening then
    { service with
      remoteport := msgSrcPort header.msgid
      srvstate := .opensync
      sync := true
      removeEvent := service.removeEvent + 1 }
  else service

/-- What becomes of a message. -/
inductive Outcome where
  | released
  /-- The service has got it in a callback, and is to release it. -/
  | delivered
  /-- DATA for a service that is not open, or not connected to the port it comes from. -/
  | dropped
  deriving DecidableEq, Repr

/-- The body of the loop of `sync_func`. -/
def syncFunc (services : Services) (header : Packet) : Services × Outcome :=
  let localport := msgDstPort header.msgid
  match findServiceByPort services localport with
  | none => (services, .released)
  | some service =>
    if msgType header.msgid = msgOpenack then
      (Function.update services localport (some (service.openack header)), .released)
    else if msgType header.msgid = msgData then
      (services,
        if service.remoteport = msgSrcPort header.msgid ∧ service.srvstate = .opensync then
          .delivered else .dropped)
    else (services, .released)

/-! ## The channel -/

/-- The next access of the thread that has `sync_mutex` for `queue_message_sync`. -/
inductive Sender where
  /-- No thread has it for that. -/
  | idle
  | wait (pc : Wait) (m : Packet)
  | writeData (m : Packet)
  | writeSize (m : Packet)
  | writeMsgid (m : Packet)
  | signal (m : Packet)
  deriving DecidableEq, Repr

/-- The next access of the sync thread. -/
inductive Receiver where
  | wait (pc : Wait)
  | readHeader
  /-- `release_message_sync`. -/
  | pad
  | signal
  deriving DecidableEq, Repr

/-- Another thread of the receiver, on its way through `release_message_sync`, which it does
not give up the processor in. -/
inductive Releaser where
  | idle
  /-- A service has been given the message, and it has not yet been released. -/
  | holds
  | pad
  | signal
  deriving DecidableEq, Repr

structure State where
  /-- The header and the data in slot `slot_sync`. -/
  slot : Packet := ⟨msgidPadding, 0, []⟩
  syncRelease : RemoteEvent := ({} : RemoteEvent).signalLocal
  syncTrigger : RemoteEvent := {}
  services : Services := fun _ => none
  sender : Sender := .idle
  receiver : Receiver := .wait .testFired
  /-- The service that a message has been delivered to. -/
  holder : Releaser := .idle
  /-- A thread in `release_service_messages`, which has `sync_mutex` of its side. -/
  closer : Releaser := .idle
  -- not in the source
  sent : List Packet := []
  /-- What the sync thread has found in the slot. -/
  received : List Packet := []
  /-- How often it has left a message where it is. -/
  dropped : Nat := 0

inductive Event where
  /-- A thread enters `queue_message_sync`. It stays in front of the mutex if that is taken. -/
  | send (m : Packet)
  | sender
  | pollRelease
  | receiver
  | pollTrigger
  /-- The service on a port calls `vchiq_release_message` for the slot. -/
  | release (port : UInt32)
  | holder
  /-- The service on a port is closed. -/
  | close (port : UInt32)
  | closer
  /-- Services are opened, closed and removed. -/
  | services (services : Services)

def Sender.waiting : Sender → Option Wait
  | .wait pc _ => some pc
  | _ => none

def Receiver.waiting : Receiver → Option Wait
  | .wait pc => some pc
  | _ => none

namespace State

/-- Marks the slot as free. -/
def pad (s : State) : State := { s with slot := { s.slot with msgid := msgidPadding } }

def signalRelease (s : State) : State := { s with syncRelease := s.syncRelease.signal }

def senderStep (s : State) : State :=
  match s.sender with
  | .idle => s
  | .wait pc m =>
    let (syncRelease, pc) := s.syncRelease.wait pc
    { s with syncRelease, sender := pc.elim (.writeData m) (.wait · m) }
  | .writeData m =>
    { s with slot := { s.slot with data := m.data }, sender := .writeSize m }
  | .writeSize m =>
    { s with slot := { s.slot with size := m.size }, sender := .writeMsgid m }
  | .writeMsgid m =>
    { s with slot := { s.slot with msgid := m.msgid }, sender := .signal m }
  | .signal m =>
    { s with syncTrigger := s.syncTrigger.signal, sender := .idle, sent := s.sent ++ [m] }

/-- `sync_func` with the header in the slot. -/
def handle (s : State) : State :=
  let (services, outcome) := syncFunc s.services s.slot
  let s := { s with services, received := s.received ++ [s.slot] }
  match outcome with
  | .released => { s with receiver := .pad }
  | .delivered => { s with receiver := .wait .testFired, holder := .holds }
  | .dropped => { s with receiver := .wait .testFired, dropped := s.dropped + 1 }

def receiverStep (s : State) : State :=
  match s.receiver with
  | .wait pc =>
    let (syncTrigger, pc) := s.syncTrigger.wait pc
    { s with syncTrigger, receiver := pc.elim .readHeader .wait }
  | .readHeader => s.handle
  | .pad => { s.pad with receiver := .signal }
  | .signal => { s.signalRelease with receiver := .wait .testFired }

def holderStep (s : State) : State :=
  match s.holder with
  | .idle | .holds => s
  | .pad => { s.pad with holder := .signal }
  | .signal => { s.signalRelease with holder := .idle }

def closerStep (s : State) : State :=
  match s.closer with
  | .idle | .holds => s
  | .pad => { s.pad with closer := .signal }
  | .signal => { s.signalRelease with closer := .idle }

/-- `release_service_messages` finds a message for the service in the slot. -/
def Releases (s : State) (port : UInt32) : Prop :=
  ∃ service, s.services port = some service ∧ service.sync = true ∧
    msgDstPort s.slot.msgid = port

instance (s : State) (port : UInt32) : Decidable (s.Releases port) :=
  match h : s.services port with
  | none => .isFalse fun ⟨_, hs, _⟩ => nomatch h.symm.trans hs
  | some service =>
    decidable_of_iff (service.sync = true ∧ msgDstPort s.slot.msgid = port)
      ⟨fun hs => ⟨service, h, hs⟩, fun ⟨_, hs, hr⟩ => Option.some.inj (h.symm.trans hs) ▸ hr⟩

/-- `release_message_sync` has no test: a service whose message has been released when it was
closed may release the one that has come after it. -/
def step (s : State) : Event → State
  | .send m => if s.sender = .idle then { s with sender := .wait .testFired m } else s
  | .sender => s.senderStep
  | .pollRelease => { s with syncRelease := s.syncRelease.poll }
  | .receiver => s.receiverStep
  | .pollTrigger => { s with syncTrigger := s.syncTrigger.poll }
  | .release port =>
    if (s.holder = .idle ∨ s.holder = .holds) ∧ (findServiceByPort s.services port).isSome then
      { s with holder := .pad }
    else s
  | .holder => s.holderStep
  | .close port =>
    if s.closer = .idle ∧ s.Releases port then
      { s with closer := .pad, holder := if s.holder = .holds then .idle else s.holder }
    else s
  | .closer => s.closerStep
  | .services services => { s with services }

abbrev run (s : State) (es : List Event) : State := Machine.run step s es

/-! ## What the channel is for -/

/-- The sync thread finds each message once and in order, and a message stays in the slot
until its service is done with it. -/
structure Intact (s : State) : Prop where
  inOrder : s.received <+: s.sent
  oneAhead : s.sent.length ≤ s.received.length + 1
  held : s.holder = .holds → s.received.getLast? = some s.slot

/-- No poll comes between the test of `fired` and the end of a wait, no service is closed with
a message in the slot that it does not hold, and a message is released by the service that
it is for while that holds it. -/
def Clean (s : State) : Event → Prop
  | .pollRelease => s.syncRelease.Timely s.sender.waiting
  | .pollTrigger => s.syncTrigger.Timely s.receiver.waiting
  | .release port =>
    (findServiceByPort s.services port).isSome →
      s.holder = .holds ∧ msgDstPort s.slot.msgid = port
  | .close port => s.Releases port → s.holder = .holds
  | _ => True

instance (s : State) : DecidablePred s.Clean
  | .pollRelease => inferInstanceAs (Decidable (_ → _ → _))
  | .pollTrigger => inferInstanceAs (Decidable (_ → _ → _))
  | .release _ => inferInstanceAs (Decidable (_ → _ ∧ _))
  | .close port => inferInstanceAs (Decidable (s.Releases port → s.holder = .holds))
  | .send _ | .sender | .receiver | .holder | .closer | .services _ => .isTrue trivial

end State
end Sync
