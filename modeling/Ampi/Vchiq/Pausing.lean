-- SUMMARY: Pauses and resumes between two endpoints, and who has slot_mutex in between.
import Ampi.Machine
import Mathlib.Logic.Function.Basic

/-!
# Pausing

The slot handler that has sent PAUSE, or has answered one, keeps `slot_mutex`, so that nothing
else is sent. It gives the mutex back when it sends RESUME or when one comes in, by four pieces
of code that go by the message and `conn_state`; `mutex_unlock` does not ask who has the mutex.

The endpoints are connected. What is done with the mutex and with the outgoing stream is
recorded, and the record is what has to be in order.
-/

namespace Pausing

/-- A message by its type; `other` is any but PAUSE and RESUME. -/
inductive Msg where
  | pause | resume | other
  deriving DecidableEq, Repr

/-- `VCHIQ_CONNSTATE_*` of endpoints that are connected. -/
inductive ConnState where
  | connected | pausing | pauseSent | paused | resuming
  deriving DecidableEq, Repr

inductive Action (ι : Type*) where
  | lock (i : ι)
  | unlock (i : ι)
  | append (msg : Msg)
  /-- A RESUME has come in. -/
  | resumed
  deriving DecidableEq, Repr

/-- What can be told from the actions. -/
structure Monitor (ι : Type*) where
  /-- The thread between its lock and its unlock. -/
  owner : Option ι := none
  /-- A PAUSE has been sent, and no RESUME been sent or come in since. -/
  quiet : Bool := false
  deriving DecidableEq, Repr

namespace Monitor

variable {ι : Type*}

def moves (m : Monitor ι) : Action ι → Monitor ι
  | .lock i => { m with owner := some i }
  | .unlock _ => { m with owner := none }
  | .append .pause => { m with quiet := true }
  | .append .resume | .resumed => { m with quiet := false }
  | .append .other => m

/-- One thread at a time is between its lock and its unlock, and nothing but RESUME follows
PAUSE. -/
def Allows (m : Monitor ι) : Action ι → Prop
  | .lock _ => m.owner = none
  | .unlock i => m.owner = some i
  | .append .pause | .append .other => m.quiet = false
  | .append .resume | .resumed => True

instance [DecidableEq ι] (m : Monitor ι) : ∀ a : Action ι, Decidable (m.Allows a)
  | .lock _ => inferInstanceAs (Decidable (m.owner = none))
  | .unlock i => inferInstanceAs (Decidable (m.owner = some i))
  | .append .pause | .append .other => inferInstanceAs (Decidable (m.quiet = false))
  | .append .resume | .resumed => inferInstanceAs (Decidable True)

end Monitor

/-- Where a thread stands that sends an ordinary message, or several. -/
inductive Task where
  | idle
  /-- In `mutex_lock (&state->slot_mutex)`. -/
  | waiting
  | inside
  deriving DecidableEq, Repr

/-- Where the slot handler stands in `slot_handler_func`. -/
inductive HandlerPc where
  | idle
  /-- In `mutex_lock`, with PAUSE to send. -/
  | pauseLock
  /-- In `parse_rx_slots`, before a message. -/
  | parse
  /-- In `mutex_lock`, with a PAUSE to answer. -/
  | answerLock
  /-- `BUG ()`. -/
  | fault
  deriving DecidableEq, Repr

structure Endpoint (ι : Type*) where
  slotHandler : ι
  /-- `slot_mutex`. -/
  locked : Bool := false
  connState : ConnState := .connected
  pollNeeded : Bool := false
  /-- The messages sent. -/
  sent : List Msg := []
  /-- How many messages `parse_rx_slots` has handled. -/
  rxPos : Nat := 0
  handler : HandlerPc := .idle
  task : ι → Task := fun _ => .idle
  -- not in the source
  history : List (Action ι) := []

inductive Event (ι : Type*) where
  /-- A thread asks for the mutex, or looks again. -/
  | take (i : ι)
  | append (i : ι)
  | leave (i : ι)
  /-- `vchiq_pause_internal`, `vchiq_resume_internal`. -/
  | requestPause
  | requestResume
  /-- `request_poll`. -/
  | poll
  /-- The slot handler goes on; `space` says whether `reserve_space` finds room. -/
  | handler (space : Bool)
  deriving DecidableEq, Repr

namespace Endpoint

variable {ι : Type*} [DecidableEq ι]

def act (e : Endpoint ι) (a : Action ι) : Endpoint ι := { e with history := e.history ++ [a] }

def lock (e : Endpoint ι) (i : ι) : Endpoint ι := { e with locked := true }.act (.lock i)

def unlock (e : Endpoint ι) (i : ι) : Endpoint ι := { e with locked := false }.act (.unlock i)

/-- `queue_message` behind `reserve_space`. -/
def append (e : Endpoint ι) (msg : Msg) : Endpoint ι :=
  { e with sent := e.sent ++ [msg] }.act (.append msg)

def setTask (e : Endpoint ι) (i : ι) (task : Task) : Endpoint ι :=
  { e with task := Function.update e.task i task }

/-! ## The slot handler -/

/-- PAUSE is sent in `VCHIQ_CONNSTATE_PAUSING`, with `QMFLAGS_NO_MUTEX_UNLOCK`. -/
def sendPause (e : Endpoint ι) (space : Bool) : Endpoint ι :=
  if space then { e.append .pause with connState := .pauseSent, handler := .parse }
  else { e.unlock e.slotHandler with pollNeeded := true, handler := .parse }

/-- PAUSE is answered, with `QMFLAGS_NO_MUTEX_UNLOCK`, or put off. -/
def answerPause (e : Endpoint ι) (space : Bool) : Endpoint ι :=
  if space then
    { e.append .pause with connState := .paused, rxPos := e.rxPos + 1, handler := .parse }
  -- `bail_not_ready`
  else { e.unlock e.slotHandler with handler := .idle }

/-- RESUME is sent in `VCHIQ_CONNSTATE_RESUMING`, with `QMFLAGS_NO_MUTEX_LOCK`. -/
def sendResume (e : Endpoint ι) (space : Bool) : Endpoint ι :=
  if space then
    { (e.append .resume).unlock e.slotHandler with connState := .connected, handler := .parse }
  else { e with handler := .fault }

/-- The first part of the loop in `slot_handler_func`. -/
def dispatch (e : Endpoint ι) (space : Bool) : Endpoint ι :=
  if e.pollNeeded then
    let e := { e with pollNeeded := false }
    match e.connState with
    | .pausing =>
      if e.locked then { e with handler := .pauseLock }
      else (e.lock e.slotHandler).sendPause space
    | .resuming => e.sendResume space
    | .connected | .pauseSent | .paused => { e with handler := .parse }
  else { e with handler := .parse }

/-- One message in `parse_rx_slots`. -/
def parse (e : Endpoint ι) (incoming : List Msg) (space : Bool) : Endpoint ι :=
  match incoming[e.rxPos]? with
  | none => { e with handler := .idle }
  | some .pause =>
    match e.connState with
    -- PAUSE received in state PAUSED
    | .paused => { e with rxPos := e.rxPos + 1 }
    | .pauseSent => { e with connState := .paused, rxPos := e.rxPos + 1 }
    | .connected | .pausing | .resuming =>
      if e.locked then { e with handler := .answerLock }
      else (e.lock e.slotHandler).answerPause space
  | some .resume =>
    { (e.unlock e.slotHandler).act .resumed with connState := .connected, rxPos := e.rxPos + 1 }
  | some .other => { e with rxPos := e.rxPos + 1 }

def handlerStep (e : Endpoint ι) (incoming : List Msg) (space : Bool) : Endpoint ι :=
  match e.handler with
  | .idle => e.dispatch space
  | .pauseLock => if e.locked then e else (e.lock e.slotHandler).sendPause space
  | .parse => e.parse incoming space
  | .answerLock => if e.locked then e else (e.lock e.slotHandler).answerPause space
  | .fault => e

/-! ## Steps -/

/-- The slot handler sends ordinary messages from `poll_services` and for messages that it
handles. -/
def canSend (e : Endpoint ι) (i : ι) : Bool :=
  i ≠ e.slotHandler ∨ e.handler = .idle ∨ e.handler = .parse

def step (e : Endpoint ι) (incoming : List Msg) : Event ι → Endpoint ι
  | .take i =>
    match e.task i with
    | .idle =>
      if e.canSend i then
        if e.locked then e.setTask i .waiting else (e.lock i).setTask i .inside
      else e
    | .waiting => if e.locked then e else (e.lock i).setTask i .inside
    | .inside => e
  | .append i =>
    match e.task i with
    | .inside => e.append .other
    | .idle | .waiting => e
  | .leave i =>
    match e.task i with
    | .inside => (e.unlock i).setTask i .idle
    | .idle | .waiting => e
  | .requestPause =>
    match e.connState with
    | .connected => { e with connState := .pausing, pollNeeded := true }
    | _ => e
  | .requestResume =>
    match e.connState with
    | .paused => { e with connState := .resuming, pollNeeded := true }
    | _ => e
  | .poll => { e with pollNeeded := true }
  | .handler space =>
    match e.task e.slotHandler with
    | .idle => e.handlerStep incoming space
    | .waiting | .inside => e

end Endpoint

/-- Two endpoints, each with the slot handler `slotHandler`. -/
def boot {ι : Type*} (slotHandler : ι) (_ : Bool) : Endpoint ι := { slotHandler }

section Runs

variable {ι : Type*} [DecidableEq ι]

/-- A step of one endpoint, which finds what the other one has sent. -/
def step (s : Bool → Endpoint ι) (e : Bool × Event ι) : Bool → Endpoint ι :=
  Function.update s e.1 ((s e.1).step (s !e.1).sent e.2)

/-! ## The property -/

/-- The mutex is unlocked by the thread that has it, one thread at a time has it, and between
PAUSE and RESUME nothing is sent. -/
def Endpoint.Disciplined (e : Endpoint ι) : Prop :=
  Machine.Along Monitor.moves Monitor.Allows {} e.history

/-- RESUME is handled only by an endpoint that has sent PAUSE or answered one since the last. -/
def Endpoint.heedsResume (e : Endpoint ι) (incoming : List Msg) : Event ι → Prop
  | .handler _ =>
    e.task e.slotHandler = .idle → e.handler = .parse → incoming[e.rxPos]? = some .resume →
      e.connState ≠ .connected ∧ e.connState ≠ .pausing
  | _ => True

end Runs

/-! ## One endpoint -/

/-- The slot handler keeps the mutex. -/
def ConnState.Keeps (c : ConnState) : Prop := c ≠ .connected ∧ c ≠ .pausing

namespace Endpoint

variable {ι : Type*} [DecidableEq ι] {e : Endpoint ι} {i : ι} {incoming : List Msg}

def monitor (e : Endpoint ι) : Monitor ι := Machine.run Monitor.moves {} e.history

omit [DecidableEq ι] in
@[simp] theorem monitor_act (e : Endpoint ι) (a : Action ι) :
    (e.act a).monitor = e.monitor.moves a := by
  rw [monitor, act, Machine.run_append]
  rfl

omit [DecidableEq ι] in
theorem disciplined_act {a : Action ι} :
    (e.act a).Disciplined ↔ e.Disciplined ∧ e.monitor.Allows a := by
  unfold Disciplined act
  rw [Machine.along_append]
  exact and_congr_right fun _ => and_iff_left trivial

/-- Who has the mutex, and what it is kept for. -/
structure Ordered (e : Endpoint ι) : Prop where
  disciplined : e.Disciplined
  free : e.locked = false → e.monitor.owner = none
  inside : ∀ i, e.task i = .inside → e.monitor.owner = some i
  keeps : e.connState.Keeps → e.monitor.owner = some e.slotHandler ∧ e.monitor.quiet = true ∧
    e.task e.slotHandler ≠ .inside
  gives : ¬e.connState.Keeps → e.monitor.quiet = false ∧
    ∀ i, e.monitor.owner = some i → e.task i = .inside

namespace Ordered

omit [DecidableEq ι] in
/-- Nothing that says who has the mutex has changed. -/
theorem same (h : e.Ordered) {e' : Endpoint ι} (hhistory : e'.history = e.history)
    (hlocked : e'.locked = e.locked) (hhandler : e'.slotHandler = e.slotHandler)
    (hinside : ∀ i, e'.task i = .inside ↔ e.task i = .inside)
    (hstate : e'.connState.Keeps ↔ e.connState.Keeps) : e'.Ordered := by
  have hmonitor : e'.monitor = e.monitor := by rw [monitor, hhistory, monitor]
  refine ⟨?_, ?_, fun i hi => ?_, fun hk => ?_, fun hk => ?_⟩
  · rw [Disciplined, hhistory]
    exact h.disciplined
  · rw [hlocked, hmonitor]
    exact h.free
  · rw [hmonitor]
    exact h.inside i ((hinside i).1 hi)
  · rw [hmonitor, hhandler, Ne, hinside]
    exact h.keeps (hstate.1 hk)
  · rw [hmonitor]
    obtain ⟨hquiet, howner⟩ := h.gives fun hkeeps => hk (hstate.2 hkeeps)
    exact ⟨hquiet, fun i hi => (hinside i).2 (howner i hi)⟩

omit [DecidableEq ι] in
theorem not_keeps (h : e.Ordered) (hfree : e.locked = false) : ¬e.connState.Keeps := by
  intro hk
  cases (h.free hfree).symm.trans (h.keeps hk).1

omit [DecidableEq ι] in
theorem nobody_inside (h : e.Ordered) (hfree : e.locked = false) (i : ι) :
    e.task i ≠ .inside := by
  intro hi
  cases (h.free hfree).symm.trans (h.inside i hi)

omit [DecidableEq ι] in
theorem not_keeps_of_inside (h : e.Ordered) (hi : e.task i = .inside) :
    ¬e.connState.Keeps := by
  intro hk
  obtain ⟨howner, -, hout⟩ := h.keeps hk
  obtain rfl : e.slotHandler = i := Option.some.inj (howner.symm.trans (h.inside i hi))
  exact hout hi

omit [DecidableEq ι] in
/-- The slot handler takes the mutex and keeps it. -/
theorem keep (h : e.Ordered) (hfree : e.locked = false) {e' : Endpoint ι}
    (hhistory : e'.history = e.history ++ [.lock e.slotHandler, .append .pause])
    (hlocked : e'.locked = true) (hhandler : e'.slotHandler = e.slotHandler)
    (htask : e'.task = e.task) (hstate : e'.connState.Keeps) : e'.Ordered := by
  have howner := h.free hfree
  have hquiet := (h.gives (h.not_keeps hfree)).1
  have hmonitor : e'.monitor = ⟨some e'.slotHandler, true⟩ := by
    rw [monitor, hhistory, Machine.run_append, hhandler]
    rfl
  refine ⟨?_, fun hfree' => ?_, fun i hi => ?_, fun _ => ?_, fun hk => absurd hstate hk⟩
  · rw [Disciplined, hhistory]
    exact Machine.along_append.2 ⟨h.disciplined, howner, hquiet, trivial⟩
  · rw [hlocked] at hfree'
    cases hfree'
  · rw [htask] at hi
    exact absurd hi (h.nobody_inside hfree i)
  · rw [hmonitor, htask]
    exact ⟨rfl, rfl, h.nobody_inside hfree _⟩

omit [DecidableEq ι] in
/-- The slot handler takes the mutex and gives it back. -/
theorem pass (h : e.Ordered) (hfree : e.locked = false) {e' : Endpoint ι}
    (hhistory : e'.history = e.history ++ [.lock e.slotHandler, .unlock e.slotHandler])
    (htask : e'.task = e.task) (hstate : e'.connState = e.connState) : e'.Ordered := by
  have howner := h.free hfree
  have hnot := h.not_keeps hfree
  have hmonitor : e'.monitor = e.monitor := by
    rw [monitor, hhistory, Machine.run_append]
    change { e.monitor with owner := none } = e.monitor
    rw [← howner]
  refine ⟨?_, fun _ => hmonitor ▸ howner, fun i hi => ?_, fun hk => ?_, fun _ => ?_⟩
  · rw [Disciplined, hhistory]
    exact Machine.along_append.2 ⟨h.disciplined, howner, rfl, trivial⟩
  · rw [htask] at hi
    exact absurd hi (h.nobody_inside hfree i)
  · rw [hstate] at hk
    exact absurd hk hnot
  · rw [hmonitor, htask]
    exact h.gives hnot

omit [DecidableEq ι] in
/-- The slot handler gives the mutex back that it has kept. -/
theorem release (h : e.Ordered) (hk : e.connState.Keeps) {e' : Endpoint ι}
    (hhistory : e'.history = e.history ++ [.append .resume, .unlock e.slotHandler] ∨
      e'.history = e.history ++ [.unlock e.slotHandler, .resumed])
    (htask : e'.task = e.task) (hstate : e'.connState = .connected) : e'.Ordered := by
  obtain ⟨howner, -, hout⟩ := h.keeps hk
  have hmonitor : e'.monitor = {} := by
    rw [monitor]
    rcases hhistory with hhistory | hhistory <;>
    · rw [hhistory, Machine.run_append]
      rfl
  refine ⟨?_, fun _ => by rw [hmonitor], fun i hi => ?_, fun hk' => ?_, fun _ => ?_⟩
  · rw [Disciplined]
    rcases hhistory with hhistory | hhistory <;> rw [hhistory]
    · exact Machine.along_append.2 ⟨h.disciplined, trivial, howner, trivial⟩
    · exact Machine.along_append.2 ⟨h.disciplined, howner, trivial, trivial⟩
  · rw [htask] at hi
    exact absurd hk (h.not_keeps_of_inside hi)
  · rw [hstate] at hk'
    exact absurd rfl hk'.1
  · rw [hmonitor]
    exact ⟨rfl, fun i hi => (by cases hi)⟩

/-! ### Steps -/

theorem setTask_waiting (h : e.Ordered) (hi : e.task i = .idle) :
    (e.setTask i .waiting).Ordered := by
  refine h.same rfl rfl rfl (fun j => ?_) Iff.rfl
  by_cases hji : j = i
  · subst hji
    simp [setTask, hi]
  · simp [setTask, hji]

theorem enter (h : e.Ordered) (hfree : e.locked = false) (i : ι) :
    ((e.lock i).setTask i .inside).Ordered := by
  have howner := h.free hfree
  have hnot := h.not_keeps hfree
  have hmonitor : ((e.lock i).setTask i .inside).monitor = { e.monitor with owner := some i } :=
    monitor_act { e with locked := true } (.lock i)
  refine ⟨(disciplined_act (e := { e with locked := true })).2 ⟨h.disciplined, howner⟩,
    fun hfree' => ?_, fun j hj => ?_, fun hk => absurd hk hnot, fun _ => ?_⟩
  · cases hfree'
  · by_cases hji : j = i
    · rw [hmonitor, hji]
    · have hj : e.task j = .inside := by
        rw [← hj]
        exact (Function.update_of_ne hji ..).symm
      exact absurd hj (h.nobody_inside hfree j)
  · rw [hmonitor]
    refine ⟨(h.gives hnot).1, fun j hj => ?_⟩
    obtain rfl : i = j := Option.some.inj hj
    exact Function.update_self ..

theorem leave (h : e.Ordered) (hi : e.task i = .inside) :
    ((e.unlock i).setTask i .idle).Ordered := by
  have howner := h.inside i hi
  have hnot := h.not_keeps_of_inside hi
  have hmonitor : ((e.unlock i).setTask i .idle).monitor = { e.monitor with owner := none } :=
    monitor_act { e with locked := false } (.unlock i)
  refine ⟨(disciplined_act (e := { e with locked := false })).2 ⟨h.disciplined, howner⟩,
    fun _ => by rw [hmonitor], fun j hj => ?_, fun hk => absurd hk hnot, fun _ => ?_⟩
  · by_cases hji : j = i
    · subst hji
      have hidle : ((e.unlock j).setTask j .idle).task j = .idle := Function.update_self ..
      cases hidle.symm.trans hj
    · have hj : e.task j = .inside := by
        rw [← hj]
        exact (Function.update_of_ne hji ..).symm
      exact absurd (Option.some.inj (howner.symm.trans (h.inside j hj))).symm hji
  · rw [hmonitor]
    exact ⟨(h.gives hnot).1, fun j hj => (by cases hj)⟩

omit [DecidableEq ι] in
theorem append (h : e.Ordered) (hi : e.task i = .inside) : (e.append .other).Ordered := by
  have hquiet := (h.gives (h.not_keeps_of_inside hi)).1
  have hmonitor : (e.append .other).monitor = e.monitor :=
    monitor_act { e with sent := e.sent ++ [.other] } (.append .other)
  have hdisciplined : (e.append .other).Disciplined :=
    (disciplined_act (e := { e with sent := e.sent ++ [.other] })).2 ⟨h.disciplined, hquiet⟩
  refine ⟨hdisciplined, ?_, ?_, ?_, ?_⟩ <;> rw [hmonitor]
  · exact h.free
  · exact h.inside
  · exact h.keeps
  · exact h.gives

omit [DecidableEq ι] in
theorem sendPause (h : e.Ordered) (hfree : e.locked = false) (space : Bool) :
    ((e.lock e.slotHandler).sendPause space).Ordered := by
  unfold Endpoint.sendPause
  split
  · exact h.keep hfree (List.append_assoc ..) rfl rfl rfl ⟨by simp, by simp⟩
  · exact h.pass hfree (List.append_assoc ..) rfl rfl

omit [DecidableEq ι] in
theorem answerPause (h : e.Ordered) (hfree : e.locked = false) (space : Bool) :
    ((e.lock e.slotHandler).answerPause space).Ordered := by
  unfold Endpoint.answerPause
  split
  · exact h.keep hfree (List.append_assoc ..) rfl rfl rfl ⟨by simp, by simp⟩
  · exact h.pass hfree (List.append_assoc ..) rfl rfl

omit [DecidableEq ι] in
theorem sendResume (h : e.Ordered) (hk : e.connState.Keeps) (space : Bool) :
    (e.sendResume space).Ordered := by
  unfold Endpoint.sendResume
  split
  · exact h.release hk (.inl (List.append_assoc ..)) rfl rfl
  · exact h.same rfl rfl rfl (fun _ => Iff.rfl) Iff.rfl

omit [DecidableEq ι] in
theorem dispatch (h : e.Ordered) (space : Bool) : (e.dispatch space).Ordered := by
  have hpolled : Ordered { e with pollNeeded := false } :=
    h.same rfl rfl rfl (fun _ => Iff.rfl) Iff.rfl
  unfold Endpoint.dispatch
  split
  · dsimp only
    split
    · split
      · exact h.same rfl rfl rfl (fun _ => Iff.rfl) Iff.rfl
      · next hfree => exact hpolled.sendPause (by simpa using hfree) space
    · next hstate =>
      have hk : e.connState.Keeps := by simp [hstate, ConnState.Keeps]
      exact hpolled.sendResume hk space
    all_goals exact h.same rfl rfl rfl (fun _ => Iff.rfl) Iff.rfl
  · exact h.same rfl rfl rfl (fun _ => Iff.rfl) Iff.rfl

omit [DecidableEq ι] in
theorem parse (h : e.Ordered) (space : Bool)
    (hok : incoming[e.rxPos]? = some .resume → e.connState.Keeps) :
    (e.parse incoming space).Ordered := by
  have hanswer : (if e.locked then { e with handler := .answerLock }
      else (e.lock e.slotHandler).answerPause space).Ordered := by
    split
    · exact h.same rfl rfl rfl (fun _ => Iff.rfl) Iff.rfl
    · next hfree => exact h.answerPause (by simpa using hfree) space
  unfold Endpoint.parse
  split
  · exact h.same rfl rfl rfl (fun _ => Iff.rfl) Iff.rfl
  · cases hstate : e.connState with
    | paused => exact h.same rfl rfl rfl (fun _ => Iff.rfl) (by rw [hstate])
    | pauseSent =>
      exact h.same rfl rfl rfl (fun _ => Iff.rfl) (by simp [hstate, ConnState.Keeps])
    | connected | pausing | resuming =>
      rw [hstate] at hanswer
      exact hanswer
  · next hresume => exact h.release (hok hresume) (.inr (List.append_assoc ..)) rfl rfl
  · exact h.same rfl rfl rfl (fun _ => Iff.rfl) Iff.rfl

omit [DecidableEq ι] in
/-- A RESUME that finds the mutex with another thread, or with none. -/
theorem not_disciplined_parse (h : e.Ordered) (hidle : e.task e.slotHandler = .idle) (space : Bool)
    (hresume : incoming[e.rxPos]? = some .resume) (hk : ¬e.connState.Keeps) :
    ¬(e.parse incoming space).Disciplined := by
  intro hd
  have hunlocked : (e.unlock e.slotHandler).Disciplined := by
    unfold Endpoint.parse at hd
    rw [hresume] at hd
    exact (disciplined_act.1 hd).1
  have howner : e.monitor.owner = some e.slotHandler :=
    (disciplined_act (e := { e with locked := false })).1 hunlocked |>.2
  cases hidle.symm.trans ((h.gives hk).2 _ howner)

omit [DecidableEq ι] in
theorem handlerStep (h : e.Ordered) (space : Bool)
    (hok : e.handler = .parse → incoming[e.rxPos]? = some .resume → e.connState.Keeps) :
    (e.handlerStep incoming space).Ordered := by
  unfold Endpoint.handlerStep
  cases hpc : e.handler with
  | idle => exact h.dispatch space
  | pauseLock =>
    dsimp only
    split
    · exact h
    · next hfree => exact h.sendPause (by simpa using hfree) space
  | parse => exact h.parse space (hok hpc)
  | answerLock =>
    dsimp only
    split
    · exact h
    · next hfree => exact h.answerPause (by simpa using hfree) space
  | fault => exact h

theorem step (h : e.Ordered) {ev : Event ι} (hok : e.heedsResume incoming ev) :
    (e.step incoming ev).Ordered := by
  cases ev with
  | take i =>
    unfold Endpoint.step
    dsimp only
    split
    · next hi =>
      split
      · split
        · exact h.setTask_waiting hi
        · next hfree => exact h.enter (by simpa using hfree) i
      · exact h
    · split
      · exact h
      · next hfree => exact h.enter (by simpa using hfree) i
    · exact h
  | append i =>
    unfold Endpoint.step
    dsimp only
    split
    · next hi => exact h.append hi
    all_goals exact h
  | leave i =>
    unfold Endpoint.step
    dsimp only
    split
    · next hi => exact h.leave hi
    all_goals exact h
  | requestPause =>
    unfold Endpoint.step
    dsimp only
    split
    · next hstate =>
      exact h.same rfl rfl rfl (fun _ => Iff.rfl) (by simp [hstate, ConnState.Keeps])
    · exact h
  | requestResume =>
    unfold Endpoint.step
    dsimp only
    split
    · next hstate =>
      exact h.same rfl rfl rfl (fun _ => Iff.rfl) (by simp [hstate, ConnState.Keeps])
    · exact h
  | poll => exact h.same rfl rfl rfl (fun _ => Iff.rfl) Iff.rfl
  | handler space =>
    unfold Endpoint.step
    dsimp only
    split
    · next hidle => exact h.handlerStep space (hok hidle)
    all_goals exact h

/-- A step after which the endpoint is in order has handled no RESUME that it must not. -/
theorem heedsResume (h : e.Ordered) {ev : Event ι} (hd : (e.step incoming ev).Disciplined) :
    e.heedsResume incoming ev := by
  cases ev with
  | handler space =>
    intro hidle hpc hresume
    by_contra hk
    refine h.not_disciplined_parse hidle space hresume hk ?_
    unfold Endpoint.step at hd
    rw [hidle] at hd
    unfold Endpoint.handlerStep at hd
    rw [hpc] at hd
    exact hd
  | _ => exact trivial

end Ordered

omit [DecidableEq ι] in
theorem disciplined_of_history {e' : Endpoint ι} (h : e.history <+: e'.history)
    (hd : e'.Disciplined) : e.Disciplined := by
  obtain ⟨as, has⟩ := h
  rw [Disciplined, ← has, Machine.along_append] at hd
  exact hd.1

/-! ## What has been done stays done -/

omit [DecidableEq ι] in
theorem history_sendPause (e : Endpoint ι) (space : Bool) :
    e.history <+: ((e.lock e.slotHandler).sendPause space).history := by
  unfold Endpoint.sendPause
  split <;> exact ⟨_, (List.append_assoc ..).symm⟩

omit [DecidableEq ι] in
theorem history_answerPause (e : Endpoint ι) (space : Bool) :
    e.history <+: ((e.lock e.slotHandler).answerPause space).history := by
  unfold Endpoint.answerPause
  split <;> exact ⟨_, (List.append_assoc ..).symm⟩

omit [DecidableEq ι] in
theorem history_dispatch (e : Endpoint ι) (space : Bool) :
    e.history <+: (e.dispatch space).history := by
  unfold Endpoint.dispatch
  split
  · dsimp only
    split
    · split
      · exact List.prefix_rfl
      · exact history_sendPause { e with pollNeeded := false } space
    · unfold Endpoint.sendResume
      split
      · exact ⟨_, (List.append_assoc ..).symm⟩
      · exact List.prefix_rfl
    all_goals exact List.prefix_rfl
  · exact List.prefix_rfl

omit [DecidableEq ι] in
theorem history_parse (e : Endpoint ι) (incoming : List Msg) (space : Bool) :
    e.history <+: (e.parse incoming space).history := by
  unfold Endpoint.parse
  split
  · exact List.prefix_rfl
  · cases e.connState with
    | paused | pauseSent => exact List.prefix_rfl
    | connected | pausing | resuming =>
      dsimp only
      split
      · exact List.prefix_rfl
      · exact e.history_answerPause space
  · exact ⟨_, (List.append_assoc ..).symm⟩
  · exact List.prefix_rfl

theorem history_step (e : Endpoint ι) (incoming : List Msg) (ev : Event ι) :
    e.history <+: (e.step incoming ev).history := by
  unfold Endpoint.step
  cases ev with
  | take i =>
    dsimp only
    split
    · split
      · split
        · exact List.prefix_rfl
        · exact List.prefix_append ..
      · exact List.prefix_rfl
    · split
      · exact List.prefix_rfl
      · exact List.prefix_append ..
    · exact List.prefix_rfl
  | append i | leave i =>
    dsimp only
    split
    · exact List.prefix_append ..
    all_goals exact List.prefix_rfl
  | requestPause | requestResume =>
    dsimp only
    split <;> exact List.prefix_rfl
  | poll => exact List.prefix_rfl
  | handler space =>
    dsimp only
    split
    · unfold Endpoint.handlerStep
      split
      · exact e.history_dispatch space
      · split
        · exact List.prefix_rfl
        · exact e.history_sendPause space
      · exact e.history_parse incoming space
      · split
        · exact List.prefix_rfl
        · exact e.history_answerPause space
      · exact List.prefix_rfl
    all_goals exact List.prefix_rfl

end Endpoint

/-! ## Two endpoints -/

section Runs

variable {ι : Type*} [DecidableEq ι] {s : Bool → Endpoint ι}

omit [DecidableEq ι] in
theorem ordered_boot (slotHandler : ι) (b : Bool) : (boot slotHandler b).Ordered :=
  ⟨trivial, fun _ => rfl, fun _ h => (by cases h), fun h => absurd rfl h.1,
    fun _ => ⟨rfl, fun _ h => (by cases h)⟩⟩

theorem ordered_step (h : ∀ b, (s b).Ordered) {e : Bool × Event ι}
    (hok : (s e.1).heedsResume (s !e.1).sent e.2) (b : Bool) : (step s e b).Ordered := by
  unfold step
  by_cases hb : b = e.1
  · subst hb
    rw [Function.update_self]
    exact (h e.1).step hok
  · rw [Function.update_of_ne hb]
    exact h b

theorem history_step (s : Bool → Endpoint ι) (e : Bool × Event ι) (b : Bool) :
    (s b).history <+: (step s e b).history := by
  unfold step
  by_cases hb : b = e.1
  · subst hb
    rw [Function.update_self]
    exact (s e.1).history_step _ _
  · rewrite [Function.update_of_ne hb]
    exact List.prefix_rfl

theorem history_run (s : Bool → Endpoint ι) (es : List (Bool × Event ι)) (b : Bool) :
    (s b).history <+: (Machine.run step s es b).history := by
  induction es generalizing s with
  | nil => exact List.prefix_rfl
  | cons e es ih => exact (history_step s e b).trans (ih (step s e))

theorem disciplined_run_iff (h : ∀ b, (s b).Ordered) (es : List (Bool × Event ι)) :
    (∀ b, (Machine.run step s es b).Disciplined) ↔
      Machine.Along step (fun s e => (s e.1).heedsResume (s !e.1).sent e.2) s es := by
  induction es generalizing s with
  | nil => exact iff_of_true (fun b => (h b).disciplined) trivial
  | cons e es ih =>
    constructor
    · intro hd
      have hnext : (step s e e.1).Disciplined :=
        Endpoint.disciplined_of_history (history_run (step s e) es e.1) (hd e.1)
      have hok : (s e.1).heedsResume (s !e.1).sent e.2 := by
        unfold step at hnext
        rw [Function.update_self] at hnext
        exact (h e.1).heedsResume hnext
      exact ⟨hok, (ih (ordered_step h hok)).1 hd⟩
    · rintro ⟨hok, hrest⟩
      exact (ih (ordered_step h hok)).2 hrest

/-- Over a run, the mutex is unlocked by its owner and nothing is sent between PAUSE and RESUME
at both endpoints if and only if no RESUME is handled outside a pause. -/
theorem disciplined_iff (slotHandler : ι) (es : List (Bool × Event ι)) :
    (∀ b, (Machine.run step (boot slotHandler) es b).Disciplined) ↔
      Machine.Along step (fun s e => (s e.1).heedsResume (s !e.1).sent e.2) (boot slotHandler) es :=
  disciplined_run_iff (ordered_boot slotHandler) es

/-- Both endpoints ask for the end of a pause, and both send RESUME. When the RESUME of one comes
in, a sender of the other one has taken the mutex. -/
def crossing : List (Bool × Event Bool) :=
  [(false, .requestPause), (false, .handler true), (true, .handler true), (true, .handler true),
    (false, .handler true), (false, .requestResume), (true, .requestResume),
    (false, .handler true), (true, .handler true), (false, .handler true), (true, .handler true),
    (false, .take true), (false, .handler true)]

theorem not_disciplined_crossing :
    ¬∀ b, (Machine.run step (boot false) crossing b).Disciplined := by
  intro h
  have hnot : ¬(Machine.run step (boot false) crossing false).Disciplined := by
    unfold Endpoint.Disciplined
    decide +kernel
  exact hnot (h false)

end Runs

end Pausing
