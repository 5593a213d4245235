-- SUMMARY: Opening and closing services between two endpoints: the services, their messages and what a CLOSE may do.
import Ampi.Machine
import Ampi.Vchiq.Closing

/-!
# Handshake

A client sends OPEN and gets OPENACK from the service that listens, or CLOSE when there is
none; either end sends CLOSE, and the other one answers it with its own. A client may close
before it has been answered. It does not know the port of its server then, and its CLOSE
goes to port 0, where the other endpoint has to find out whom it is for.

A client is in the table before its OPEN is queued. The thread that opens it may have to
wait for `slot_mutex` in between, and the client may be closed there as well. A thread that
closes a service may have to wait for it too, when it has marked the service and before it
asks the slot handler to close it.

The callbacks return `VCHIQ_SUCCESS` and call nothing back, and no service is synchronous.
-/

namespace Handshake

/-! ## Services and messages -/

/-- `VCHIQ_PORT_FREE`. -/
def portFree : Nat := 0x1000

/-- `VCHIQ_MAX_SERVICES`. -/
def maxServices : Nat := 4096

/-- `VCHIQ_FOURCC_INVALID`. -/
def fourccInvalid : UInt32 := 0

/-- `VCHIQ_MSG_DSTPORT` of a message to the port. -/
def msgDstport (port : Nat) : Nat := port % 0x1000

inductive Side where
  | master | slave
  deriving DecidableEq, Repr

def Side.other : Side → Side
  | master => slave
  | slave => master

/-- A client whose OPEN has been queued, by its endpoint and the time. -/
structure Conn where
  opener : Side
  number : Nat
  deriving DecidableEq, Repr

inductive Body where
  | opening (fourcc : UInt32) (version versionMin : Int)
  | openack
  | close
  deriving DecidableEq, Repr

/-- Who sends a message: a service, a client that has not seen its OPENACK, or
`parse_open` when it rejects a client. -/
inductive Origin where
  | service | unanswered | rejection
  deriving DecidableEq, Repr

structure Msg where
  body : Body
  srcport : Nat
  dstport : Nat
  -- not in the source
  conn : Option Conn
  origin : Origin := .service
  deriving DecidableEq, Repr

/-- `VCHIQ_SERVICE_PARAMS_T`; the owner stands for the instance and the callback. -/
structure Params where
  fourcc : UInt32
  version : Int
  versionMin : Int
  owner : Nat
  deriving DecidableEq, Repr

/-- A call that closes a service: `vchiq_close_service`, `vchiq_remove_service` or
`vchiq_terminate_service_internal`. -/
inductive Closer where
  | close | remove | terminate
  deriving DecidableEq, Repr

/-- `VCHIQ_SERVICE_T`. -/
structure Service where
  srvstate : SrvState
  localport : Nat
  remoteport : Nat := portFree
  /-- `base.fourcc`. -/
  fourcc : UInt32
  publicFourcc : UInt32
  version : Int
  versionMin : Int
  owner : Nat
  autoClose : Bool := true
  closing : Bool := false
  /-- `VCHIQ_POLL_TERMINATE` and `VCHIQ_POLL_REMOVE`. -/
  pollTerminate : Bool := false
  pollRemove : Bool := false
  -- not in the source
  /-- The client that it is, or that it is connected to. -/
  conn : Option Conn := none
  /-- The calls in `mark_service_closing`. -/
  closers : List Closer := []
  deriving DecidableEq, Repr

inductive Status where
  | success | error | retry
  deriving DecidableEq, Repr

/-! ## Closing a service -/

namespace Service

def isServer (s : Service) : Bool := s.publicFourcc ≠ fourccInvalid

/-- `vchiq_open_service_internal` has still to queue the OPEN of the client, which may be
closed already. -/
def unsent (s : Service) : Bool :=
  s.conn.isNone && (s.srvstate = .opening || s.srvstate = .closesent)

/-- `vchiq_free_service_internal`. -/
def freeService (s : Service) : Service :=
  match s.srvstate with
  | .opening | .closed | .hidden | .listening | .closewait => { s with srvstate := .free }
  | _ => s

/-- What `close_service_complete` does behind the callback. -/
def complete (s : Service) : Service :=
  let s := { s with remoteport := portFree, conn := none }
  match s.srvstate with
  | .closed => s.freeService
  | .closewait => s
  | _ => if s.isServer then { s with closing := false } else s

/-- `close_service_complete`. -/
def closeServiceComplete (s : Service) : Service :=
  match s.srvstate with
  | .open | .closesent | .closerecvd =>
    if s.isServer then
      if s.autoClose then { s with srvstate := .listening }.complete
      else { s with srvstate := .closewait }.complete
    else { s with srvstate := .closed }.complete
  | .listening => s.complete
  | _ => s

/-- The CLOSE that a service sends. -/
def closeMsg (s : Service) : Msg where
  body := .close
  srcport := s.localport
  dstport := msgDstport s.remoteport
  conn := s.conn
  origin := if s.remoteport = portFree then .unanswered else .service

/-- `vchiq_close_service_internal`: the service, the messages it sends and the result.
`room` tells whether `queue_message` finds a slot. -/
def closeServiceInternal (s : Service) (closeRecvd room : Bool) : Service × List Msg × Status :=
  match s.srvstate with
  | .closed | .hidden | .listening | .closewait =>
    if closeRecvd then (s, [], .success)
    else if s.isServer then
      match s.srvstate with
      | .listening => (s, [], .error)
      | .closewait => ({ s with remoteport := portFree, srvstate := .listening }, [], .success)
      | _ => ({ s with remoteport := portFree }, [], .success)
    else (s.freeService, [], .success)
  | .opening =>
    -- the open was rejected
    if closeRecvd then ({ s with srvstate := .closewait, conn := none }, [], .success)
    else if room then ({ s with srvstate := .closesent }, [s.closeMsg], .success)
    else (s, [], .retry)
  | .opensync | .open =>
    if room then
      if closeRecvd then
        ({ s with srvstate := .closerecvd }.closeServiceComplete, [s.closeMsg], .success)
      else ({ s with srvstate := .closesent }, [s.closeMsg], .success)
    else (s, [], .retry)
  | .closesent => if closeRecvd then (s.closeServiceComplete, [], .success) else (s, [], .success)
  | .closerecvd =>
    if !closeRecvd && s.isServer then
      ({ s with srvstate := .listening }.closeServiceComplete, [], .success)
    else (s.closeServiceComplete, [], .success)
  | .free => (s, [], .success)

/-- `mark_service_closing`, up to where the caller has to wait for `slot_mutex`. -/
def mark (s : Service) (closer : Closer) : Service :=
  { s with closing := true, closers := closer :: s.closers }

/-- What the caller does behind `mark_service_closing`. -/
def afterMark (s : Service) : Closer → Service
  | .close => { s with pollTerminate := true }
  | .remove =>
    match s.srvstate with
    | .hidden => ({ s with publicFourcc := fourccInvalid }.closeServiceInternal false true).1
    | _ => { s with pollRemove := true }
  | .terminate => { s with pollRemove := true }

end Service

/-! ## Endpoints -/

/-- What a call or a message does to an endpoint: the place in the table that it writes,
the messages that it sends, and whether the slot handler is done with the message. -/
structure Effect where
  service : Option (Nat × Option Service) := none
  msgs : List Msg := []
  done : Bool := true

structure Endpoint where
  /-- The first `unused_service` entries of `services`. -/
  services : List (Option Service) := []

namespace Endpoint

/-- `services[port]`. -/
def service? (e : Endpoint) (port : Nat) : Option Service := e.services[port]?.join

def put (e : Endpoint) (port : Nat) (s : Option Service) : Endpoint where
  services := if port < e.services.length then e.services.set port s else e.services ++ [s]

/-- `find_service_by_port`. -/
def findServiceByPort (e : Endpoint) (port : Nat) : Option Service :=
  (e.service? port).filter (·.srvstate ≠ .free)

/-- `get_listening_service`. -/
def getListeningService (e : Endpoint) (fourcc : UInt32) : Option Nat :=
  e.services.findIdx? fun s => s.any fun s =>
    s.publicFourcc = fourcc ∧
      (s.srvstate = .listening ∨ s.srvstate = .open ∧ s.remoteport = portFree)

/-- `get_connected_service`. -/
def getConnectedService (e : Endpoint) (port : Nat) : Option Nat :=
  e.services.findIdx? fun s => s.any fun s => s.srvstate = .open ∧ s.remoteport = port

/-- The place that `vchiq_add_service_internal` finds for a service. -/
def freePort (e : Endpoint) (params : Params) (opening : Bool) : Option Nat :=
  let taken := e.services.any fun s => s.any fun s =>
    s.publicFourcc = params.fourcc ∧ s.owner ≠ params.owner
  if !opening && taken then none
  else
    match e.services.findIdx? (·.isNone) with
    | some port => some port
    | none => if e.services.length < maxServices then some e.services.length else none

/-- `vchiq_add_service_internal`. -/
def newService (params : Params) (port : Nat) (srvstate : SrvState) : Service where
  srvstate
  localport := port
  fourcc := params.fourcc
  publicFourcc := if srvstate = .opening then fourccInvalid else params.fourcc
  version := params.version
  versionMin := params.versionMin
  owner := params.owner

/-- The service on the port is written. -/
def modify (e : Endpoint) (port : Nat) (f : Service → Service) : Effect :=
  match e.findServiceByPort port with
  | some s => { service := some (port, some (f s)) }
  | none => {}

/-- What `poll_services` does for a service. -/
def pollService (s : Service) (room : Bool) : Service × List Msg :=
  let flagged := { s with pollTerminate := false, pollRemove := false }
  if s.pollRemove then
    let (s, msgs, status) :=
      { flagged with publicFourcc := fourccInvalid }.closeServiceInternal false room
    ({ s with pollRemove := status ≠ .success }, msgs)
  else if s.pollTerminate then
    let (s, msgs, status) := flagged.closeServiceInternal false room
    ({ s with pollTerminate := status ≠ .success }, msgs)
  else (flagged, [])

end Endpoint

/-! ## Calls -/

/-- The calls of services, and the rounds of the slot handler. -/
inductive Call where
  /-- `vchiq_add_service` of an instance that is connected or not. -/
  | addService (params : Params) (connected : Bool)
  /-- One service in `vchiq_connect_internal`. -/
  | connect (port : Nat)
  /-- `vchiq_add_service_internal` for a client. -/
  | addClient (params : Params)
  /-- `queue_message` in `vchiq_open_service_internal`. -/
  | sendOpen (port : Nat)
  | setAutoClose (port : Nat) (value : Bool)
  | closeService (port : Nat)
  | removeService (port : Nat)
  | terminateService (port : Nat)
  /-- `mark_service_closing` returns. -/
  | marked (port : Nat) (closer : Closer)
  /-- One service in `poll_services`. -/
  | poll (port : Nat) (room : Bool)
  /-- `unlock_service` for the last reference. -/
  | unlockService (port : Nat)

namespace Endpoint

/-- The effect of a call; a client whose OPEN it queues is named `conn`. -/
def call (e : Endpoint) (conn : Conn) : Call → Effect
  | .addService params connected =>
    match e.freePort params false with
    | none => {}
    | some port =>
      let srvstate := if connected then .listening else .hidden
      { service := some (port, some (newService params port srvstate)) }
  | .connect port =>
    e.modify port fun s =>
      if s.srvstate = .hidden then { s with srvstate := .listening } else s
  | .addClient params =>
    match e.freePort params true with
    | none => {}
    | some port => { service := some (port, some (newService params port .opening)) }
  | .sendOpen port =>
    match e.findServiceByPort port with
    | none => {}
    | some s =>
      if s.unsent then
        { service := some (port, some { s with conn := some conn })
          msgs :=
            [{ body := .opening s.fourcc s.version s.versionMin
               srcport := s.localport
               dstport := 0
               conn := some conn }] }
      else {}
  | .setAutoClose port value => e.modify port fun s => { s with autoClose := value }
  | .closeService port =>
    e.modify port fun s =>
      match s.srvstate with
      | .listening | .hidden => s
      | _ => s.mark .close
  | .removeService port => e.modify port (·.mark .remove)
  | .terminateService port => e.modify port (·.mark .terminate)
  | .marked port closer =>
    e.modify port fun s =>
      if closer ∈ s.closers then { s with closers := s.closers.erase closer }.afterMark closer
      else s
  | .poll port room =>
    match e.findServiceByPort port with
    | none => {}
    | some s =>
      let (s, msgs) := pollService s room
      { service := some (port, some s), msgs }
  | .unlockService port =>
    match e.service? port with
    | some s => if s.srvstate = .free then { service := some (port, none) } else {}
    | none => {}

/-! ## Messages -/

/-- `fail_open` in `parse_open`. -/
def failOpen (m : Msg) (room : Bool) : Effect :=
  if room then
    { msgs :=
        [{ body := .close, srcport := 0, dstport := m.srcport, conn := m.conn
           origin := .rejection }] }
  else { done := false }

/-- `parse_open`. -/
def parseOpen (e : Endpoint) (m : Msg) (fourcc : UInt32) (version versionMin : Int)
    (room : Bool) : Effect :=
  match e.getListeningService fourcc with
  | none => failOpen m room
  | some port =>
    match e.service? port with
    | none => failOpen m room
    | some s =>
      if s.version < versionMin ∨ version < s.versionMin then failOpen m room
      else
        let opened := { s with srvstate := .open, remoteport := m.srcport, conn := m.conn }
        if s.srvstate = .listening then
          if room then
            { service := some (port, some opened)
              msgs :=
                [{ body := .openack, srcport := s.localport, dstport := m.srcport
                   conn := m.conn }] }
          else { done := false }
        else { service := some (port, some opened) }

/-- The service that `parse_rx_slots` finds for a CLOSE. -/
def closeTarget (e : Endpoint) (m : Msg) : Option Nat :=
  let connected := e.getConnectedService m.srcport
  match e.findServiceByPort m.dstport with
  | none => if m.dstport = 0 then connected else none
  | some s =>
    if s.remoteport ≠ m.srcport ∧ s.remoteport ≠ portFree ∧ m.dstport = 0 then connected
    else some m.dstport

/-- `VCHIQ_MSG_CLOSE` in `parse_rx_slots`. -/
def parseClose (e : Endpoint) (m : Msg) (room : Bool) : Effect :=
  match e.closeTarget m with
  | none => {}
  | some port =>
    match e.service? port with
    | none => {}
    | some s =>
      let (s, msgs, status) := { s with closing := true }.closeServiceInternal true room
      { service := some (port, some s), msgs, done := status ≠ .retry }

/-- One message in `parse_rx_slots`. -/
def receive (e : Endpoint) (m : Msg) (room : Bool) : Effect :=
  match m.body with
  | .opening fourcc version versionMin => e.parseOpen m fourcc version versionMin room
  | .openack =>
    e.modify m.dstport fun s =>
      if s.srvstate = .opening then { s with remoteport := m.srcport, srvstate := .open } else s
  | .close => e.parseClose m room

end Endpoint

/-! ## Both endpoints -/

structure Net where
  ends : Side → Endpoint := fun _ => {}
  /-- The messages of each side that the other one has not handled yet. -/
  sent : Side → List Msg := fun _ => []
  time : Nat := 0

inductive Event where
  | call (side : Side) (c : Call)
  /-- The slot handler of the side handles the next message. -/
  | handle (side : Side) (room : Bool)

namespace Net

def apply (n : Net) (side : Side) (f : Effect) : Net where
  ends :=
    match f.service with
    | some (port, s) => Function.update n.ends side ((n.ends side).put port s)
    | none => n.ends
  sent := Function.update n.sent side (n.sent side ++ f.msgs)
  time := n.time + 1

/-- The message that the side handles next. -/
def next (n : Net) (side : Side) : Option Msg := (n.sent side.other).head?

def step (n : Net) : Event → Net
  | .call side c => n.apply side ((n.ends side).call ⟨side, n.time⟩ c)
  | .handle side room =>
    match n.sent side.other with
    | [] => n
    | m :: rest =>
      let f := (n.ends side).receive m room
      let n := if f.done then { n with sent := Function.update n.sent side.other rest } else n
      n.apply side f

end Net

/-! ## What a handshake is to guarantee -/

/-- The service on the port is the counterpart of the sender of the message. -/
def Counterpart (e : Endpoint) (m : Msg) (port : Nat) : Prop :=
  ∃ s c, e.service? port = some s ∧ s.conn = some c ∧ m.conn = some c

/-- What handling a message may do if it is a CLOSE. -/
structure ClosesCounterpart (n : Net) (side : Side) (room : Bool) (m : Msg) : Prop where
  reaches : ∀ port, (n.ends side).closeTarget m = some port ↔ Counterpart (n.ends side) m port
  only : ∀ port, ((n.step (.handle side room)).ends side).service? port ≠
    (n.ends side).service? port → Counterpart (n.ends side) m port
  other : (n.step (.handle side room)).ends side.other = n.ends side.other

/-- What holds of a step. -/
def ClosesWell (n : Net) : Event → Prop
  | .handle side room =>
    ∀ m, n.next side = some m → m.body = .close → ClosesCounterpart n side room m
  | .call _ _ => True

/-- No service waits for a CLOSE, and none is open whose peer is not. -/
def Settled (n : Net) : Prop :=
  ∀ side port s, (n.ends side).service? port = some s →
    s.srvstate ≠ .closesent ∧ s.srvstate ≠ .closerecvd ∧
      (s.srvstate = .open →
        ∃ s', (n.ends side.other).service? s.remoteport = some s' ∧ s'.srvstate = .open ∧
          s'.remoteport = port ∧ s'.conn = s.conn)

/-- A CLOSE from a client that has not seen its OPENACK meets no service on port 0 that is
not connected, and its server, unless that is on port 0, has not sent a CLOSE. -/
def Unmistakable (n : Net) : Event → Prop
  | .handle side _ =>
    ∀ m, n.next side = some m → m.body = .close → m.origin = .unanswered →
      (∀ s, (n.ends side).findServiceByPort 0 = some s → s.remoteport ≠ portFree) ∧
        ∀ port s, (n.ends side).service? port = some s → s.remoteport = m.srcport →
          s.srvstate = .open ∨ port = 0
  | .call _ _ => True

/-- No client is closed before its OPEN has been queued. -/
def opensFirst (n : Net) : Event → Bool
  | .call side (.poll port room) =>
    match (n.ends side).findServiceByPort port with
    | some s => !(room && s.unsent && (s.pollTerminate || s.pollRemove))
    | none => true
  | _ => true

/-- Every CLOSE closes its counterpart, and all is settled whenever nothing is under way. -/
def Sound (es : List Event) : Prop :=
  Machine.Along Net.step
    (fun n e => ClosesWell n e ∧
      ((∀ side, (n.step e).sent side = []) → Settled (n.step e)))
    {} es

end Handshake
