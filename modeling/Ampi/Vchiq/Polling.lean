-- SUMMARY: Poll requests: request_poll, poll_services and the slot handler's turns as conn_state changes.
import Ampi.Machine
import Mathlib.Logic.Function.Basic
import Mathlib.Tactic.Common

/-!
# Polling

A poll request is a bit in the `poll_flags` of its service, a bit for the service in
`poll_services` of the state, `poll_needed` and a permit of the trigger. The slot handler
clears `poll_needed` and then decides by `conn_state` whether it looks at the bits.

`request_poll` has no point at which it can be interrupted by another coroutine, and a
caller other than the slot handler passes `slot_mutex` right before it, which the handler
keeps from the PAUSE that it queues to RESUME. The slot handler takes one step at a time, so
that anything may happen between its accesses. A service handled in a poll round may have
its request put again; what else becomes of it is of no concern here. The suspend states are
left out. A caller waits for what the handler does about its request before it makes
another one, so that the permits are no more than a number of them.
-/

namespace Polling

inductive PollType where
  | terminate | remove | txnotify | rxnotify
  deriving DecidableEq, Repr

inductive ConnState where
  | disconnected | connecting | connected | pausing | pauseSent | paused | resuming
  deriving DecidableEq, Repr

/-- A service in the table; it may be `FREE` while references to it are held. -/
structure Service where
  free : Bool := false
  pollFlags : PollType → Bool := fun _ => false

/-- Where the slot handler stands: in `remote_event_wait`, in the turn that follows, in
`poll_services`, or in `parse_rx_slots`. -/
inductive HandlerPc where
  | testFired | arm | retestFired | down | disarm | clearFired
  | testPollNeeded | clearPollNeeded | dispatch
  /-- In the outer loop of `poll_services`. -/
  | group (group : Nat)
  /-- In the inner loop, with the ports of the bits that it has taken. -/
  | bits (group i : Nat) (flags : Nat → Bool)
  | handling (group i : Nat) (flags : Nat → Bool) (port : Nat) (serviceFlags : PollType → Bool)
  | sendPause | sendResume
  /-- With `slot_mutex` given back, behind either RESUME. -/
  | resumed
  | parse | replyPause
  /-- `BUG ()`. -/
  | bug

/-- Where a caller of `vchiq_connect_internal` stands. -/
inductive ConnectPc where
  | idle | queueing | waiting
  deriving DecidableEq, Repr

/-- What `parse_rx_slots` finds next. -/
inductive Received where
  | none | connect | pause | resume | other
  deriving DecidableEq, Repr

structure State (κ : Type*) where
  services : Nat → Option Service := fun _ => none
  unusedService : Nat := 0
  /-- `poll_services`: the ports whose bit is set. -/
  pollServices : Nat → Bool := fun _ => false
  pollNeeded : Bool := false
  connState : ConnState := .disconnected
  /-- The slot handler keeps `slot_mutex`. -/
  slotMutex : Bool := false
  /-- The semaphore `connect`. -/
  connect : Nat := 0
  /-- The trigger: its flags and its semaphore. -/
  fired : Bool := false
  armed : Bool := false
  count : Nat := 0
  handler : HandlerPc := .testFired
  connecting : κ → ConnectPc := fun _ => .idle

inductive Event (κ : Type*) where
  /-- `request_poll` for a service, behind `slot_mutex`. -/
  | request (port : Nat) (type : PollType)
  /-- A callback has returned `VCHIQ_RETRY` in `notify_bulks`, in which the slot handler is. -/
  | notifyBulks (port : Nat) (transmit : Bool)
  /-- `request_poll` with `NULL`. -/
  | requestNull
  | addService (port : Nat)
  /-- The service becomes `FREE`. -/
  | setFree (port : Nat)
  /-- The last reference to the service goes. -/
  | dropService (port : Nat)
  /-- A thread goes on in `vchiq_connect_internal`. -/
  | connect (k : κ)
  | pause
  | resume
  /-- The peer signals the trigger. -/
  | fire
  | ring
  /-- The slot handler takes a step: what it finds if it looks for a message, which requests
  fail if it handles a service, and whether a message can be queued if it sends one. -/
  | handler (received : Received) (failed : PollType → Bool) (sent : Bool)

variable {κ : Type*}

namespace State

/-- `BITSET_SIZE (unused_service)`. -/
def groups (s : State κ) : Nat := (s.unusedService + 31) / 32

def requestNull (s : State κ) : State κ :=
  { s with pollNeeded := true, armed := false, count := s.count + 1 }

def request (s : State κ) (port : Nat) (type : PollType) : State κ :=
  match s.services port with
  | none => s
  | some service =>
    let service := { service with pollFlags := Function.update service.pollFlags type true }
    requestNull
      { s with
        services := Function.update s.services port (some service)
        pollServices := Function.update s.pollServices port true }

def requestIf (s : State κ) (port : Nat) (type : PollType) (again : Bool) : State κ :=
  if again then s.request port type else s

/-- What `poll_services` puts again after it has handled `serviceFlags`. -/
def handleService (s : State κ) (port : Nat) (serviceFlags failed : PollType → Bool) : State κ :=
  let s :=
    if serviceFlags .remove then s.requestIf port .remove (failed .remove)
    else s.requestIf port .terminate (serviceFlags .terminate && failed .terminate)
  let s := s.requestIf port .txnotify (serviceFlags .txnotify && failed .txnotify)
  s.requestIf port .rxnotify (serviceFlags .rxnotify && failed .rxnotify)

def addService (s : State κ) (port : Nat) : State κ :=
  match s.services port with
  | none =>
    { s with
      services := Function.update s.services port (some {})
      unusedService := max s.unusedService (port + 1) }
  | some _ => s

def setFree (s : State κ) (port : Nat) : State κ :=
  match s.services port with
  | none => s
  | some service =>
    { s with services := Function.update s.services port (some { service with free := true }) }

def dropService (s : State κ) (port : Nat) : State κ :=
  { s with services := Function.update s.services port none }

/-- The caller passes `slot_mutex` in `mark_service_closing` or `vchiq_bulk_transfer`. -/
def requestLocked (s : State κ) (port : Nat) (type : PollType) : State κ :=
  if s.slotMutex then s else s.request port type

/-- `notify_bulks` when bulks are done, or resumed. -/
def notifyBulks (s : State κ) (port : Nat) (transmit : Bool) : State κ :=
  match s.handler with
  | .parse | .sendPause | .resumed => s.request port (if transmit then .txnotify else .rxnotify)
  | _ => s

section Connect

variable [DecidableEq κ]

/-- A part of `vchiq_connect_internal`. -/
def connectStep (s : State κ) (k : κ) : State κ :=
  match s.connecting k with
  | .idle =>
    let pc :=
      match s.connState with
      | .disconnected => .queueing
      | .connecting => .waiting
      | _ => .idle
    { s with connecting := Function.update s.connecting k pc }
  | .queueing =>
    if s.slotMutex then s
    else { s with connState := .connecting, connecting := Function.update s.connecting k .waiting }
  | .waiting =>
    -- the semaphore is given back at once
    if s.connect = 0 then s
    else { s with connState := .connected, connecting := Function.update s.connecting k .idle }

end Connect

/-- `vchiq_pause_internal`. -/
def pause (s : State κ) : State κ :=
  match s.connState with
  | .connected => requestNull { s with connState := .pausing }
  | _ => s

/-- `vchiq_resume_internal`. -/
def resume (s : State κ) : State κ :=
  match s.connState with
  | .paused => requestNull { s with connState := .resuming }
  | _ => s

/-- `remote_event_poll`. -/
def ring (s : State κ) : State κ :=
  if s.fired ∧ s.armed then { s with armed := false, count := s.count + 1 } else s

/-- The body of the inner loop of `poll_services`. -/
def pollBit (s : State κ) (group i : Nat) (flags : Nat → Bool) : State κ :=
  let port := group * 32 + i
  if flags port then
    let flags := Function.update flags port false
    match s.services port with
    | none => { s with handler := .bits group (i + 1) flags }
    | some service =>
      -- `find_service_by_port` does not find it
      if service.free then { s with handler := .bits group (i + 1) flags }
      else
        let taken := { service with pollFlags := fun _ => false }
        { s with
          services := Function.update s.services port (some taken)
          handler := .handling group (i + 1) flags port service.pollFlags }
  else { s with handler := .bits group (i + 1) flags }

/-- The next message in `parse_rx_slots`. -/
def parse (s : State κ) : Received → State κ
  | .none => { s with handler := .testFired }
  | .connect => { s with connect := s.connect + 1 }
  | .pause =>
    match s.connState with
    | .paused => s
    | .pauseSent => { s with connState := .paused }
    | _ => { s with handler := .replyPause }
  | .resume => { s with slotMutex := false, handler := .resumed }
  | .other => s

/-- `slot_handler_func`. -/
def handlerStep (s : State κ) (received : Received) (failed : PollType → Bool) (sent : Bool) :
    State κ :=
  match s.handler with
  | .testFired => { s with handler := if s.fired then .clearFired else .arm }
  | .arm => { s with armed := true, handler := .retestFired }
  | .retestFired => { s with handler := if s.fired then .disarm else .down }
  | .down => if s.count = 0 then s else { s with count := s.count - 1, handler := .disarm }
  | .disarm => { s with armed := false, handler := .clearFired }
  | .clearFired => { s with fired := false, handler := .testPollNeeded }
  | .testPollNeeded =>
    { s with handler := if s.pollNeeded then .clearPollNeeded else .parse }
  | .clearPollNeeded => { s with pollNeeded := false, handler := .dispatch }
  | .dispatch =>
    let pc :=
      match s.connState with
      | .connected => .group 0
      | .pausing => .sendPause
      | .resuming => .sendResume
      | _ => .parse
    { s with handler := pc }
  | .group group =>
    if group < s.groups then
      { s with
        pollServices := fun p => s.pollServices p && p / 32 != group
        handler := .bits group 0 fun p => s.pollServices p && p / 32 == group }
    else { s with handler := .parse }
  | .bits group i flags =>
    if i < 32 then s.pollBit group i flags else { s with handler := .group (group + 1) }
  | .handling group i flags port serviceFlags =>
    { s.handleService port serviceFlags failed with handler := .bits group i flags }
  | .sendPause =>
    -- "Retry later"
    if sent then { s with slotMutex := true, connState := .pauseSent, handler := .parse }
    else { s with pollNeeded := true, handler := .parse }
  | .sendResume =>
    if sent then { s with slotMutex := false, handler := .resumed }
    else { s with handler := .bug }
  | .resumed => { s with connState := .connected, handler := .parse }
  | .parse => s.parse received
  | .replyPause =>
    if sent then { s with slotMutex := true, connState := .paused, handler := .parse }
    else { s with handler := .testFired }
  | .bug => s

def step [DecidableEq κ] (s : State κ) : Event κ → State κ
  | .request port type => s.requestLocked port type
  | .notifyBulks port transmit => s.notifyBulks port transmit
  | .requestNull => s.requestNull
  | .addService port => s.addService port
  | .setFree port => s.setFree port
  | .dropService port => s.dropService port
  | .connect k => s.connectStep k
  | .pause => s.pause
  | .resume => s.resume
  | .fire => { s with fired := true }
  | .ring => s.ring
  | .handler received failed sent => s.handlerStep received failed sent

abbrev run [DecidableEq κ] : State κ → List (Event κ) → State κ := Machine.run step

/-- The service on `port` has a request that has not been taken up. -/
def Pending (s : State κ) (port : Nat) : Prop :=
  ∃ service, s.services port = some service ∧ ∃ type, service.pollFlags type = true

/-- A handler that is blocked while the connection is up has nothing left to take up. -/
def Attended (s : State κ) : Prop :=
  s.handler = .down → s.count = 0 → s.connState = .connected → ∀ port, ¬s.Pending port

/-- What the code relies on: with requests pending, the slot handler does not go past the
polling of services because of `conn_state`, unless it has been asked again meanwhile, and
a service that a poll round comes to is not `FREE` with a request pending. -/
def Heeds (s : State κ) : Event κ → Prop
  | .handler _ _ _ =>
    match s.handler with
    | .dispatch => s.connState = .connected ∨ s.pollNeeded ∨ ∀ port, ¬s.Pending port
    | .bits group i flags =>
      i < 32 → flags (group * 32 + i) →
        ∀ service, s.services (group * 32 + i) = some service → service.free →
          ¬s.Pending (group * 32 + i)
    | _ => True
  | _ => True

end State

theorem State.handler_requestIf (s : State κ) (port : Nat) (type : PollType) (again : Bool) :
    (s.requestIf port type again).handler = s.handler := by
  unfold State.requestIf State.request
  split
  · split <;> rfl
  · rfl

theorem State.handler_handleService (s : State κ) (port : Nat)
    (serviceFlags failed : PollType → Bool) :
    (s.handleService port serviceFlags failed).handler = s.handler := by
  unfold State.handleService
  dsimp only
  rw [handler_requestIf, handler_requestIf]
  split <;> rw [handler_requestIf]

/-! ## What keeps a request from being lost -/

namespace HandlerPc

/-- The handler is going to test `poll_needed` before it can be blocked again. -/
def Awake : HandlerPc → Prop
  | .disarm | .clearFired | .testPollNeeded | .clearPollNeeded => True
  | _ => False

/-- The poll round has taken the bit of `port` and has yet to come to it. -/
def Holds (pc : HandlerPc) (port : Nat) : Prop :=
  match pc with
  | .bits g i flags | .handling g i flags _ _ =>
    flags port = true ∧ g * 32 + i ≤ port ∧ port < g * 32 + 32
  | _ => False

/-- The poll round has yet to take the bit of `port`. -/
def Ahead (pc : HandlerPc) (port : Nat) : Prop :=
  match pc with
  | .dispatch => True
  | .group g => g * 32 ≤ port
  | .bits g _ _ | .handling g _ _ _ _ => (g + 1) * 32 ≤ port
  | _ => False

end HandlerPc

/-- A pending request is seen in this poll round or in one that is still to come. -/
structure Inv (s : State κ) : Prop where
  bounded : ∀ port service, s.services port = some service → port < s.unusedService
  marked : ∀ port, s.Pending port → s.pollServices port = true ∨ s.handler.Holds port
  noticed : ∀ port, s.Pending port →
    s.handler.Holds port ∨ s.pollServices port = true ∧ s.handler.Ahead port ∨
      s.pollNeeded = true ∧ (0 < s.count ∨ s.handler.Awake)
  asked : s.handler = .dispatch → s.pollNeeded = true → 0 < s.count

namespace Inv

variable {s s' : State κ} {port : Nat}

/-- A step of the handler that leaves the services and their bits alone. -/
theorem turn (h : Inv s) (hservices : s'.services = s.services)
    (hunused : s'.unusedService = s.unusedService) (hbits : s'.pollServices = s.pollServices)
    (hholds : ∀ port, s.Pending port → s.handler.Holds port → s'.handler.Holds port)
    (hahead : ∀ port, s.Pending port → s.pollServices port = true → s.handler.Ahead port →
      s'.handler.Ahead port ∨ s'.pollNeeded = true ∧ (0 < s'.count ∨ s'.handler.Awake))
    (hnoticed : ∀ port, s.Pending port → s.pollServices port = true ∨ s.handler.Holds port →
      s.pollNeeded = true → 0 < s.count ∨ s.handler.Awake →
      s'.pollServices port = true ∧ s'.handler.Ahead port ∨
        s'.pollNeeded = true ∧ (0 < s'.count ∨ s'.handler.Awake))
    (hasked : s'.handler = .dispatch → s'.pollNeeded = true → 0 < s'.count) : Inv s' := by
  have hpending {port : Nat} (hp : s'.Pending port) : s.Pending port := by
    rwa [State.Pending, hservices] at hp
  refine ⟨?_, ?_, ?_, hasked⟩
  · rw [hservices, hunused]
    exact h.bounded
  · intro port hp
    rw [hbits]
    exact (h.marked port (hpending hp)).imp_right (hholds port (hpending hp))
  · intro port hp
    rcases h.noticed port (hpending hp) with hh | ⟨hbit, ha⟩ | ⟨hneeded, hwake⟩
    · exact .inl (hholds port (hpending hp) hh)
    · rcases hahead port (hpending hp) hbit ha with ha' | hn
      · exact .inr (.inl ⟨hbits ▸ hbit, ha'⟩)
      · exact .inr (.inr hn)
    · exact .inr (hnoticed port (hpending hp) (h.marked port (hpending hp)) hneeded hwake)

/-- What happens beside the handler may ask it again, but leaves it where it is. -/
theorem beside (h : Inv s) (hservices : s'.services = s.services)
    (hunused : s'.unusedService = s.unusedService) (hbits : s'.pollServices = s.pollServices)
    (hhandler : s'.handler = s.handler) (hcount : s.count ≤ s'.count)
    (hneeded : s.pollNeeded = true → s'.pollNeeded = true)
    (hasked : s'.pollNeeded = true → s.pollNeeded = true ∨ 0 < s'.count) : Inv s' := by
  refine h.turn hservices hunused hbits ?_ ?_ ?_ ?_
  · intro port _ hh
    rwa [hhandler]
  · intro port _ _ ha
    rw [hhandler]
    exact .inl ha
  · intro port _ _ hn hwake
    rw [hhandler]
    exact .inr ⟨hneeded hn, hwake.imp_left fun hpos => by omega⟩
  · intro hd hn
    rcases hasked hn with hn | hpos
    · have := h.asked (hhandler ▸ hd) hn
      omega
    · exact hpos

theorem requestNull (h : Inv s) : Inv s.requestNull :=
  h.beside rfl rfl rfl rfl (Nat.le_succ _) (fun _ => rfl) fun _ => .inr (Nat.succ_pos _)

theorem request (h : Inv s) (port : Nat) (type : PollType) : Inv (s.request port type) := by
  unfold State.request
  split
  · exact h
  · next service hservice =>
    have hpending {p : Nat} (hne : p ≠ port) {sv : Service}
        (hsv : Function.update s.services port (some
          { service with pollFlags := Function.update service.pollFlags type true }) p = some sv) :
        s.services p = some sv := by
      rwa [Function.update_of_ne hne] at hsv
    refine ⟨?_, ?_, fun p _ => ?_, fun _ _ => Nat.succ_pos _⟩
    · intro p sv hsv
      by_cases hp : p = port
      · exact hp ▸ h.bounded port service hservice
      · exact h.bounded p sv (hpending hp hsv)
    · rintro p ⟨sv, hsv, hflag⟩
      change Function.update s.pollServices port true p = true ∨ s.handler.Holds p
      by_cases hp : p = port
      · rw [hp, Function.update_self]
        exact .inl rfl
      · rw [Function.update_of_ne hp]
        exact h.marked p ⟨sv, hpending hp hsv, hflag⟩
    · simp [State.requestNull]

theorem requestIf (h : Inv s) (port : Nat) (type : PollType) (again : Bool) :
    Inv (s.requestIf port type again) := by
  unfold State.requestIf
  split
  · exact h.request port type
  · exact h

theorem handleService (h : Inv s) (port : Nat) (serviceFlags failed : PollType → Bool) :
    Inv (s.handleService port serviceFlags failed) := by
  unfold State.handleService
  apply requestIf
  apply requestIf
  split
  · exact h.requestIf ..
  · exact h.requestIf ..

/-- A service that changes without a new request, or goes, or comes without one. -/
theorem change (h : Inv s) {service' : Option Service} {unusedService : Nat}
    (hunused : s.unusedService ≤ unusedService) (hport : service'.isSome → port < unusedService)
    (hflags : ∀ sv', service' = some sv' → (∃ type, sv'.pollFlags type = true) → s.Pending port) :
    Inv { s with services := Function.update s.services port service', unusedService } := by
  have hpending {p : Nat}
      (hp : State.Pending { s with
        services := Function.update s.services port service', unusedService } p) :
      s.Pending p := by
    obtain ⟨sv, hsv, hflag⟩ := hp
    dsimp only at hsv
    by_cases hne : p = port
    · subst hne
      exact hflags sv (by rwa [Function.update_self] at hsv) hflag
    · exact ⟨sv, by rwa [Function.update_of_ne hne] at hsv, hflag⟩
  refine ⟨fun p sv hsv => ?_, fun p hp => h.marked p (hpending hp),
    fun p hp => h.noticed p (hpending hp), h.asked⟩
  dsimp only at hsv ⊢
  by_cases hne : p = port
  · subst hne
    rw [Function.update_self] at hsv
    exact hport (by simp [hsv])
  · rw [Function.update_of_ne hne] at hsv
    exact Nat.lt_of_lt_of_le (h.bounded p sv hsv) hunused

/-- A step of a handler that is not in a poll round. -/
theorem calm (h : Inv s) (hcalm : ∀ port, ¬s.handler.Holds port ∧ ¬s.handler.Ahead port)
    (hservices : s'.services = s.services) (hunused : s'.unusedService = s.unusedService)
    (hbits : s'.pollServices = s.pollServices)
    (hnoticed : ∀ port, s.pollServices port = true → s.pollNeeded = true →
      0 < s.count ∨ s.handler.Awake →
      s'.pollServices port = true ∧ s'.handler.Ahead port ∨
        s'.pollNeeded = true ∧ (0 < s'.count ∨ s'.handler.Awake))
    (hasked : s'.handler = .dispatch → s'.pollNeeded = true → 0 < s'.count) : Inv s' := by
  refine h.turn hservices hunused hbits ?_ ?_ ?_ hasked
  · intro port _ hh
    exact absurd hh (hcalm port).1
  · intro port _ _ ha
    exact absurd ha (hcalm port).2
  · intro port _ hbit hn hwake
    exact hnoticed port (hbit.resolve_right (hcalm port).1) hn hwake

/-- The poll round takes the bits of a group. -/
theorem takeGroup (h : Inv s) {g : Nat} (hs : s.handler = .group g) :
    Inv { s with
      pollServices := fun p => s.pollServices p && p / 32 != g
      handler := .bits g 0 fun p => s.pollServices p && p / 32 == g } := by
  have hmark (port : Nat) (hp : s.Pending port) : s.pollServices port = true := by
    simpa [hs, HandlerPc.Holds] using h.marked port hp
  have hnew (port : Nat) (hp : s.Pending port) (hg : port / 32 = g) :
      HandlerPc.Holds (.bits g 0 fun p => s.pollServices p && p / 32 == g) port :=
    ⟨by simp [hmark port hp, hg], by omega, by omega⟩
  refine ⟨h.bounded, fun port hp => ?_, fun port hp => ?_, fun hd => by cases hd⟩
  · by_cases hg : port / 32 = g
    · exact .inr (hnew port hp hg)
    · exact .inl (by simp [hmark port hp, hg])
  · by_cases hg : port / 32 = g
    · exact .inl (hnew port hp hg)
    · have hbit : (s.pollServices port && port / 32 != g) = true := by simp [hmark port hp, hg]
      rcases h.noticed port hp with hh | ⟨-, ha⟩ | hn
      · simp [hs, HandlerPc.Holds] at hh
      · rw [hs] at ha
        change g * 32 ≤ port at ha
        exact .inr (.inl ⟨hbit, show (g + 1) * 32 ≤ port by omega⟩)
      · exact .inr (.inr ⟨hn.1, hn.2.imp_right fun ha => by simp [hs, HandlerPc.Awake] at ha⟩)

/-- The poll round goes on to the next bit. -/
theorem nextBit (h : Inv s) {g i : Nat} {flags flags' : Nat → Bool}
    (hs : s.handler = .bits g i flags)
    (hport : flags (g * 32 + i) = true → ¬s.Pending (g * 32 + i))
    (hflags : ∀ p ≠ g * 32 + i, flags' p = flags p) {pc : HandlerPc}
    (hholds : ∀ p, pc.Holds p ↔ HandlerPc.Holds (.bits g (i + 1) flags') p)
    (hahead : ∀ p, pc.Ahead p ↔ (g + 1) * 32 ≤ p) (hpc : pc ≠ .dispatch) :
    Inv { s with handler := pc } := by
  refine h.turn rfl rfl rfl ?_ ?_ ?_ fun hd => absurd hd hpc
  · intro port hp hh
    rw [hs] at hh
    obtain ⟨hflag, hlo, hhi⟩ := hh
    have hne : port ≠ g * 32 + i := by
      rintro rfl
      exact hport hflag hp
    exact (hholds port).2 ⟨(hflags port hne).trans hflag, by omega, hhi⟩
  · intro port _ _ ha
    rw [hs] at ha
    exact .inl ((hahead port).2 ha)
  · intro port _ _ hn hwake
    exact .inr ⟨hn, hwake.imp_right fun ha => by simp [hs, HandlerPc.Awake] at ha⟩

theorem pollBit (h : Inv s) {g i : Nat} {flags : Nat → Bool} (hs : s.handler = .bits g i flags)
    (hok : flags (g * 32 + i) = true → ∀ service, s.services (g * 32 + i) = some service →
      service.free = true → ¬s.Pending (g * 32 + i)) : Inv (s.pollBit g i flags) := by
  unfold State.pollBit
  dsimp only
  have hother : ∀ p ≠ g * 32 + i, Function.update flags (g * 32 + i) false p = flags p :=
    fun p hp => Function.update_of_ne hp ..
  split
  · next hflag =>
    split
    · next hnone =>
      refine h.nextBit hs (fun _ hp => ?_) hother (fun _ => Iff.rfl) (fun _ => Iff.rfl) (by simp)
      obtain ⟨sv, hsv, -⟩ := hp
      cases hnone.symm.trans hsv
    · next service hservice =>
      split
      · next hfree =>
        exact h.nextBit hs (fun _ => hok hflag service hservice hfree) hother (fun _ => Iff.rfl)
          (fun _ => Iff.rfl) (by simp)
      · let taken : Service := { service with pollFlags := fun _ => false }
        have htaken : Inv { s with
            services := Function.update s.services (g * 32 + i) (some taken),
            unusedService := s.unusedService } := by
          refine h.change (Nat.le_refl _) (fun _ => h.bounded _ service hservice) ?_
          rintro sv' heq ⟨type, htype⟩
          cases heq
          cases htype
        refine htaken.nextBit hs (fun _ hp => ?_) hother (fun _ => Iff.rfl) (fun _ => Iff.rfl)
          (by simp)
        obtain ⟨sv, hsv, type, htype⟩ := hp
        dsimp only at hsv
        rw [Function.update_self] at hsv
        cases hsv
        cases htype
  · next hflag =>
    exact h.nextBit hs (fun hf => absurd hf hflag) (fun _ _ => rfl) (fun _ => Iff.rfl)
      (fun _ => Iff.rfl) (by simp)

/-- A message leaves requests as they are. -/
theorem parse (h : Inv s) (hs : s.handler = .parse) (received : Received) :
    Inv (s.parse received) := by
  have hcalm (port : Nat) : ¬s.handler.Holds port ∧ ¬s.handler.Ahead port := by
    simp [hs, HandlerPc.Holds, HandlerPc.Ahead]
  have hcount (hwake : 0 < s.count ∨ s.handler.Awake) : 0 < s.count :=
    hwake.resolve_right (by simp [hs, HandlerPc.Awake])
  -- whatever the handler does next, it is not woken by it
  have hgo (pc : HandlerPc) {connState : ConnState} {slotMutex : Bool} {connect : Nat}
      (hpc : pc ≠ .dispatch) : Inv { s with handler := pc, connState, slotMutex, connect } :=
    h.calm hcalm rfl rfl rfl (fun _ _ hn hwake => .inr ⟨hn, .inl (hcount hwake)⟩)
      fun hd => absurd hd hpc
  unfold State.parse
  cases received with
  | none => exact hgo _ (by simp)
  | connect => exact hgo s.handler (by simp [hs])
  | pause =>
    dsimp only
    split
    · exact h
    · exact hgo s.handler (by simp [hs])
    · exact hgo _ (by simp)
  | resume => exact hgo _ (by simp)
  | other => exact h

theorem handlerStep (h : Inv s) {received : Received} {failed : PollType → Bool} {sent : Bool}
    [DecidableEq κ] (hok : s.Heeds (.handler received failed sent)) :
    Inv (s.handlerStep received failed sent) := by
  unfold State.Heeds at hok
  unfold State.handlerStep
  cases hs : s.handler with
  | testFired | arm | retestFired =>
    refine h.calm (by simp [hs, HandlerPc.Holds, HandlerPc.Ahead]) rfl rfl rfl ?_ ?_
    · intro port _ hn hwake
      exact .inr ⟨hn, .inl (hwake.resolve_right (by simp [hs, HandlerPc.Awake]))⟩
    · dsimp only
      repeat' split
      all_goals simp
  | down =>
    dsimp only
    split
    · exact h
    · refine h.calm (by simp [hs, HandlerPc.Holds, HandlerPc.Ahead]) rfl rfl rfl ?_ (by simp)
      intro port _ hn _
      exact .inr ⟨hn, .inr trivial⟩
  | disarm | clearFired =>
    refine h.calm (by simp [hs, HandlerPc.Holds, HandlerPc.Ahead]) rfl rfl rfl ?_ (by simp)
    intro port _ hn _
    exact .inr ⟨hn, .inr trivial⟩
  | testPollNeeded =>
    refine h.calm (by simp [hs, HandlerPc.Holds, HandlerPc.Ahead]) rfl rfl rfl ?_ ?_
    · intro port _ hn _
      exact .inr ⟨hn, .inr (by simp [hn, HandlerPc.Awake])⟩
    · dsimp only
      split <;> simp
  | clearPollNeeded =>
    -- the round that follows sees what has been asked for so far
    refine h.calm (by simp [hs, HandlerPc.Holds, HandlerPc.Ahead]) rfl rfl rfl ?_ (by simp)
    intro port hbit _ _
    exact .inl ⟨hbit, trivial⟩
  | dispatch =>
    simp only [hs] at hok
    have hcount : s.pollNeeded = true → 0 < s.count := h.asked hs
    refine h.turn rfl rfl rfl ?_ ?_ ?_ ?_
    · intro port _ hh
      simp [hs, HandlerPc.Holds] at hh
    · intro port hp _ _
      rcases hok with hconn | hn | hnone
      · simp [hconn, HandlerPc.Ahead]
      · exact .inr ⟨hn, .inl (hcount hn)⟩
      · exact absurd hp (hnone port)
    · intro port _ _ hn _
      exact .inr ⟨hn, .inl (hcount hn)⟩
    · intro _ hn
      exact hcount hn
  | group g =>
    dsimp only
    split
    · exact h.takeGroup hs
    · next hend =>
      refine h.turn rfl rfl rfl ?_ ?_ ?_ (by simp)
      · intro port _ hh
        simp [hs, HandlerPc.Holds] at hh
      · rintro port ⟨service, hservice, -⟩ _ ha
        rw [hs] at ha
        change g * 32 ≤ port at ha
        have hlt := h.bounded port service hservice
        rw [State.groups] at hend
        omega
      · intro port _ _ hn hwake
        exact .inr ⟨hn, .inl (hwake.resolve_right (by simp [hs, HandlerPc.Awake]))⟩
  | bits g i flags =>
    simp only [hs] at hok
    dsimp only
    split
    · next hi => exact h.pollBit hs (hok hi)
    · next hi =>
      refine h.turn rfl rfl rfl ?_ ?_ ?_ (by simp)
      · intro port _ hh
        rw [hs] at hh
        obtain ⟨-, hlo, hhi⟩ := hh
        omega
      · intro port _ _ ha
        rw [hs] at ha
        exact .inl ha
      · intro port _ _ hn hwake
        exact .inr ⟨hn, .inl (hwake.resolve_right (by simp [hs, HandlerPc.Awake]))⟩
  | handling g i flags port serviceFlags =>
    have hpc : (s.handleService port serviceFlags failed).handler = s.handler :=
      State.handler_handleService ..
    refine (h.handleService port serviceFlags failed).turn rfl rfl rfl ?_ ?_ ?_ (by simp)
    · intro port' _ hh
      rw [hpc, hs] at hh
      exact hh
    · intro port' _ _ ha
      rw [hpc, hs] at ha
      exact .inl ha
    · intro port' _ _ hn hwake
      rw [hpc] at hwake
      exact .inr ⟨hn, .inl (hwake.resolve_right (by simp [hs, HandlerPc.Awake]))⟩
  | resumed =>
    refine h.calm (by simp [hs, HandlerPc.Holds, HandlerPc.Ahead]) rfl rfl rfl ?_ (by simp)
    intro port _ hn hwake
    exact .inr ⟨hn, .inl (hwake.resolve_right (by simp [hs, HandlerPc.Awake]))⟩
  | sendPause | sendResume | replyPause =>
    dsimp only
    split
    all_goals
      refine h.calm (by simp [hs, HandlerPc.Holds, HandlerPc.Ahead]) rfl rfl rfl ?_ (by simp)
      intro port _ hn hwake
      exact .inr ⟨by simp [hn], .inl (hwake.resolve_right (by simp [hs, HandlerPc.Awake]))⟩
  | parse => exact h.parse hs received
  | bug => exact h

theorem step [DecidableEq κ] (h : Inv s) {e : Event κ} (he : s.Heeds e) : Inv (s.step e) := by
  cases e with
  | request port type =>
    unfold State.step State.requestLocked
    dsimp only
    split
    · exact h
    · exact h.request port type
  | notifyBulks port transmit =>
    unfold State.step State.notifyBulks
    dsimp only
    split
    · exact h.request ..
    · exact h.request ..
    · exact h.request ..
    · exact h
  | requestNull => exact h.requestNull
  | addService port =>
    unfold State.step State.addService
    dsimp only
    split
    · refine h.change (Nat.le_max_left ..) (fun _ => by omega) ?_
      rintro sv' heq ⟨type, htype⟩
      cases heq
      cases htype
    · exact h
  | setFree port =>
    unfold State.step State.setFree
    dsimp only
    split
    · exact h
    · next service hservice =>
      refine h.change (Nat.le_refl _) (fun _ => h.bounded port service hservice) ?_
      rintro sv' heq hflag
      cases heq
      exact ⟨service, hservice, hflag⟩
  | dropService port => exact h.change (Nat.le_refl _) (by simp) (by simp)
  | connect k =>
    unfold State.step State.connectStep
    dsimp only
    split
    · exact h.beside rfl rfl rfl rfl (Nat.le_refl _) id fun hn => .inl hn
    · split
      · exact h
      · exact h.beside rfl rfl rfl rfl (Nat.le_refl _) id fun hn => .inl hn
    · split
      · exact h
      · exact h.beside rfl rfl rfl rfl (Nat.le_refl _) id fun hn => .inl hn
  | pause =>
    unfold State.step State.pause
    dsimp only
    split
    · apply requestNull
      exact h.beside rfl rfl rfl rfl (Nat.le_refl _) id fun hn => .inl hn
    · exact h
  | resume =>
    unfold State.step State.resume
    dsimp only
    split
    · apply requestNull
      exact h.beside rfl rfl rfl rfl (Nat.le_refl _) id fun hn => .inl hn
    · exact h
  | fire => exact h.beside rfl rfl rfl rfl (Nat.le_refl _) id fun hn => .inl hn
  | ring =>
    unfold State.step State.ring
    dsimp only
    split
    · exact h.beside rfl rfl rfl rfl (Nat.le_succ _) id fun hn => .inl hn
    · exact h
  | handler received failed sent => exact h.handlerStep he

theorem attended (h : Inv s) : s.Attended := by
  intro hs hcount _ port hp
  rcases h.noticed port hp with hh | ⟨-, ha⟩ | ⟨-, hpos | hwake⟩
  · simp [hs, HandlerPc.Holds] at hh
  · simp [hs, HandlerPc.Ahead] at ha
  · omega
  · simp [hs, HandlerPc.Awake] at hwake

end Inv

/-- No request is left behind in a run in which none is passed over. -/
theorem run_attended [DecidableEq κ] (es : List (Event κ))
    (hes : Machine.Along State.step State.Heeds ({} : State κ) es) :
    (State.run {} es).Attended := by
  have hinit : Inv ({} : State κ) := by
    have hnone (port : Nat) : ¬State.Pending ({} : State κ) port := by
      rintro ⟨service, hservice, -⟩
      cases hservice
    refine ⟨fun _ _ h => ?_, fun port hp => absurd hp (hnone port),
      fun port hp => absurd hp (hnone port), fun h => ?_⟩
    · cases h
    · cases h
  exact (hes.invariant (fun s e hs he => hs.step he) hinit).attended

/-- The steps of the handler from a permit of the trigger to the dispatch. -/
def wake : List (Event Unit) :=
  List.replicate 5 (.handler .none (fun _ => false) true)

/-- A client closes its service when a pause has been asked for; the handler sends PAUSE and
forgets the request. -/
def pausedRun : List (Event Unit) :=
  let handler (received : Received) : Event Unit := .handler received (fun _ => false) true
  [.connect (), .connect (), .addService 0, handler .none, handler .none, handler .none] ++
    -- `CONNECT` arrives; the thread sets the state
    [.fire, .ring, handler .none, handler .none, handler .none, handler .none, handler .connect,
      .connect (), handler .none, handler .none, handler .none, handler .none] ++
    [.pause, .request 0 .terminate] ++ wake ++ [handler .none, handler .none, handler .pause] ++
    -- the second permit finds `poll_needed` cleared
    List.replicate 8 (handler .none) ++
    [handler .resume, handler .none, handler .none, handler .none, handler .none, handler .none]

theorem paused_request_forgotten : ¬(State.run {} pausedRun).Attended := by
  intro h
  have hpending : (State.run {} pausedRun).Pending 0 := ⟨_, rfl, .terminate, rfl⟩
  exact h rfl rfl rfl 0 hpending

/-- A request that is made while the connection is up is within the condition. -/
theorem run_attended_connected :
    (State.run {} (pausedRun.take 18 ++ [.request 0 .terminate] ++ wake)).Attended := by
  apply run_attended
  simp [Machine.Along, pausedRun, wake, State.Heeds, State.step, State.connectStep,
    State.addService, State.handlerStep, State.ring, State.parse, State.requestLocked,
    State.request, State.requestNull]

end Polling
