-- SUMMARY: The references to services: who takes and drops them, and the runs in which ref_count counts them.
import Ampi.References
import Ampi.Vchiq.Closing

/-!
# References to services

The functions that take and drop references to services, as far as the references and
`srvstate` go: on what else they look at, here they may do either. A function is followed
by what its caller does after it, `next`, whatever the status that it returns.

The threads switch only where they wait: for a mutex or a semaphore, in `queue_message`, or in
a callback. A callback may do what an application does.
-/

namespace RefCount

open References

/-! ## Finding services -/

/-- `find_service_by_handle`. -/
def findServiceByHandle (found missing : Prog SrvState) : Prog SrvState :=
  .find (fun s => s ≠ .free) found missing

/-- `find_service_by_port`. -/
def findServiceByPort (found missing : Prog SrvState) : Prog SrvState :=
  .find (fun s => s ≠ .free) found missing

/-- `find_service_for_instance`. -/
def findServiceForInstance (found missing : Prog SrvState) : Prog SrvState :=
  .find (fun s => s ≠ .free) found missing

/-- `find_closed_service_for_instance`. -/
def findClosedServiceForInstance (found missing : Prog SrvState) : Prog SrvState :=
  .find (fun s => s = .free ∨ s = .closed) found missing

/-- `next_service_by_instance`. -/
def nextServiceByInstance (found missing : Prog SrvState) : Prog SrvState :=
  .find (fun s => s ≠ .free) found missing

/-- `get_listening_service`. -/
def getListeningService (found missing : Prog SrvState) : Prog SrvState :=
  .find (fun s => s = .listening ∨ s = .open) found missing

/-- `get_connected_service`. -/
def getConnectedService (found missing : Prog SrvState) : Prog SrvState :=
  .find (fun s => s = .open) found missing

/-! ## Closing -/

section

variable (callback : Prog SrvState → Prog SrvState)

/-- `notify_bulks`. -/
def notifyBulks (next : Prog SrvState) : Prog SrvState :=
  .loop (fun p => .wait (.choose (callback p) p)) next

/-- `do_abort_bulks`. -/
def doAbortBulks (next : Prog SrvState) : Prog SrvState :=
  .wait (.choose next (notifyBulks callback (.choose next (notifyBulks callback next))))

/-- `vchiq_free_service_internal`. -/
def vchiqFreeServiceInternal (next : Prog SrvState) : Prog SrvState :=
  .switch fun
    | .opening | .closed | .hidden | .listening | .closewait => .free next
    | _ => next

/-- What `close_service_complete` does from the callback `VCHIQ_SERVICE_CLOSED` on; the first
branch after it is `VCHIQ_RETRY`. -/
def serviceClosed (failstate : SrvState) (next : Prog SrvState) : Prog SrvState :=
  callback <| .ask (.set failstate next) <|
    .switch fun s => if s = .closed then vchiqFreeServiceInternal next else next

/-- `close_service_complete`. -/
def closeServiceComplete (failstate : SrvState) (next : Prog SrvState) : Prog SrvState :=
  .switch fun
    | .open | .closesent | .closerecvd =>
      .choose (.set .listening (serviceClosed callback failstate next)) <|
      .choose (.set .closewait (serviceClosed callback failstate next)) <|
      .set .closed (serviceClosed callback failstate next)
    | .listening => serviceClosed callback failstate next
    | _ => next

/-- `vchiq_close_service_internal` in `VCHIQ_SRVSTATE_OPEN`. -/
def closeOpenService (closeRecvd : Bool) (next : Prog SrvState) : Prog SrvState :=
  let close : Prog SrvState := .wait <| .choose next <|
    if closeRecvd then .set .closerecvd (closeServiceComplete callback .closerecvd next)
    else .set .closesent next
  .choose (doAbortBulks callback close) close

/-- `vchiq_close_service_internal`. -/
def vchiqCloseServiceInternal (closeRecvd : Bool) (next : Prog SrvState) : Prog SrvState :=
  .switch fun
    | .closed | .hidden | .listening =>
      if closeRecvd then next else .choose next (vchiqFreeServiceInternal next)
    | .closewait =>
      if closeRecvd then next
      else .choose (.set .listening next) (vchiqFreeServiceInternal next)
    | .opening => if closeRecvd then .set .closewait next else .wait next
    | .opensync => .wait (closeOpenService callback closeRecvd next)
    | .open => closeOpenService callback closeRecvd next
    | .closesent =>
      if closeRecvd then
        .choose (closeServiceComplete callback .closerecvd next) <|
          doAbortBulks callback (.choose next (closeServiceComplete callback .closerecvd next))
      else next
    | .closerecvd =>
      if closeRecvd then closeServiceComplete callback .closerecvd next
      else
        .choose (.set .listening (closeServiceComplete callback .closerecvd next))
          (closeServiceComplete callback .closerecvd next)
    | .free => next

/-- The waits for `remove_event`, which may be interrupted. -/
def awaitRemoveEvent (next : Prog SrvState) : Prog SrvState := .loop .wait (.wait next)

variable (slotHandler : Bool)

/-- `vchiq_close_service`. -/
def vchiqCloseService (next : Prog SrvState) : Prog SrvState :=
  findServiceByHandle
    (.switch fun
      | .free | .listening | .hidden => .unlock next
      | _ => .wait <|
        if slotHandler then
          vchiqCloseServiceInternal callback false (awaitRemoveEvent (.unlock next))
        else awaitRemoveEvent (.unlock next))
    next

/-- `vchiq_remove_service`. -/
def vchiqRemoveService (next : Prog SrvState) : Prog SrvState :=
  findServiceByHandle
    (.switch fun
      | .free => .unlock next
      | _ => .wait <| .switch fun s =>
        if s = .hidden ∨ slotHandler then
          vchiqCloseServiceInternal callback false (awaitRemoveEvent (.unlock next))
        else awaitRemoveEvent (.unlock next))
    next

/-! ## What an application calls -/

/-- `vchiq_get_client_id`. -/
def vchiqGetClientId (next : Prog SrvState) : Prog SrvState :=
  findServiceByHandle (.unlock next) next

/-- `vchiq_use_service`, `vchiq_use_service_no_resume`. -/
def vchiqUseService (next : Prog SrvState) : Prog SrvState :=
  findServiceByHandle (.wait (.unlock next)) next

/-- `vchiq_release_service`. -/
def vchiqReleaseService (next : Prog SrvState) : Prog SrvState :=
  findServiceByHandle (.wait (.unlock next)) next

/-- `vchiq_get_peer_version`. -/
def vchiqGetPeerVersion (next : Prog SrvState) : Prog SrvState :=
  findServiceByHandle (.wait (.unlock next)) next

/-- `vchiq_set_service_option`. -/
def vchiqSetServiceOption (next : Prog SrvState) : Prog SrvState :=
  findServiceByHandle (.unlock next) next

/-- `vchiq_release_message`. -/
def vchiqReleaseMessage (next : Prog SrvState) : Prog SrvState :=
  findServiceByHandle (.wait (.unlock next)) next

/-- `vchiq_queue_message`. -/
def vchiqQueueMessage (next : Prog SrvState) : Prog SrvState :=
  findServiceByHandle
    (.wait <| .choose (.unlock next) <| .switch fun
      | .open | .opensync => .wait (.unlock next)
      | _ => .unlock next)
    next

/-- `vchiq_bulk_transfer`. -/
def vchiqBulkTransfer (next : Prog SrvState) : Prog SrvState :=
  let waiting : Prog SrvState := .unlock (.choose next (.wait next))
  findServiceByHandle
    (.switch fun s =>
      if s ≠ .open then .unlock next
      else .wait <| .choose (.unlock next) <| .choose waiting <|
        .loop .wait <| .choose (.unlock next) <| .wait <| .choose (.unlock next) <|
        .switch fun s =>
          if s ≠ .open then .unlock next else .wait (.choose (.unlock next) waiting))
    next

/-- `vchiq_blocking_bulk_transfer`. -/
def vchiqBlockingBulkTransfer (next : Prog SrvState) : Prog SrvState :=
  findServiceByHandle (.unlock (.wait (.choose next (vchiqBulkTransfer next)))) next

/-- `vchiq_connect_internal`. -/
def vchiqConnectInternal (next : Prog SrvState) : Prog SrvState :=
  .loop
    (fun p => nextServiceByInstance
      (.switch fun s => if s = .hidden then .set .listening (.unlock p) else .unlock p) p)
    (.choose next (.wait (.choose next (.wait next))))

/-- `vchiq_shutdown_internal`. -/
def vchiqShutdownInternal (next : Prog SrvState) : Prog SrvState :=
  .loop
    (fun p => nextServiceByInstance (vchiqRemoveService callback slotHandler (.unlock p)) p) next

/-- `vchiq_add_service`. -/
def vchiqAddService (next : Prog SrvState) : Prog SrvState :=
  .wait (.choose (.add .listening next) (.add .hidden next))

/-- `vchiq_open_service`. It reads the state of its service without a reference. -/
def vchiqOpenService (next : Prog SrvState) : Prog SrvState :=
  .wait <| .add .opening <| .wait <|
    .choose next (vchiqRemoveService callback slotHandler next)

/-- A service that an `ioctl` looks for; what it does with it is not compiled. -/
def findForInstance (next : Prog SrvState) : Prog SrvState :=
  .choose (findServiceForInstance (.wait (.unlock next)) next)
    (findClosedServiceForInstance (.wait (.unlock next)) next)

def clientCalls : List (Prog SrvState → Prog SrvState) :=
  [vchiqAddService, vchiqOpenService callback slotHandler, vchiqConnectInternal,
    vchiqCloseService callback slotHandler, vchiqRemoveService callback slotHandler,
    vchiqShutdownInternal callback slotHandler, vchiqGetClientId, vchiqUseService,
    vchiqReleaseService, vchiqGetPeerVersion, vchiqSetServiceOption, vchiqReleaseMessage,
    vchiqQueueMessage, vchiqBulkTransfer, vchiqBlockingBulkTransfer, findForInstance]

/-- Any of the calls. -/
def clientCall (next : Prog SrvState) : Prog SrvState :=
  .pick fun n => (clientCalls callback slotHandler).getD n id next

end

/-- A callback from the slot handler. The callbacks of the calls that it makes nest less
deep. -/
def makeServiceCallback : Nat → Prog SrvState → Prog SrvState
  | 0, next => .wait next
  | depth + 1, next => .wait (.loop (clientCall (makeServiceCallback depth) true) next)

/-- A callback from the sync thread, which closes no open service itself. -/
def makeSyncCallback (next : Prog SrvState) : Prog SrvState :=
  .wait (.loop (clientCall .wait false) next)

/-! ## The threads -/

section

variable (callback : Prog SrvState → Prog SrvState)

/-- `parse_open`. -/
def parseOpen (next : Prog SrvState) : Prog SrvState :=
  let failOpen : Prog SrvState := .wait next
  let opened : Prog SrvState := callback (.unlock next)
  .choose failOpen <| getListeningService
    (.choose (.unlock failOpen) <| .switch fun s =>
      if s = .listening then
        .wait <| .choose (.unlock next) <| .choose (.set .opensync opened) (.set .open opened)
      else opened)
    failOpen

/-- The message `CLOSE`, for the service on top. -/
def parseClose (next : Prog SrvState) : Prog SrvState :=
  .wait (vchiqCloseServiceInternal callback true (.unlock next))

/-- The other messages to a service: `OPENACK`, `DATA`, `BULK_RX` and `BULK_TX`, and their
answers. -/
def parseMessage (next : Prog SrvState) : Prog SrvState :=
  .pick fun
    | 0 => .switch fun s => if s = .opening then .set .open (.unlock next) else .unlock next
    | 1 => .switch fun s => if s = .open then callback (.unlock next) else .unlock next
    | 2 => .switch fun s =>
      if s = .open then
        .wait (.choose (.unlock next) (notifyBulks callback (.unlock next)))
      else .unlock next
    | _ => .switch fun s =>
      if s ≠ .free then
        .wait (.choose (.unlock next) (notifyBulks callback (.unlock next)))
      else .unlock next

/-- One message of `parse_rx_slots`. -/
def parseRxSlots (next : Prog SrvState) : Prog SrvState :=
  .choose (parseOpen callback next) <| .choose (.wait next) <|
  findServiceByPort
    (.choose (parseMessage callback next) <| .choose (parseClose callback next) <|
      .unlock (getConnectedService (parseClose callback next) next))
    (.choose next (getConnectedService (parseClose callback next) next))

/-- One service of `poll_services`. -/
def pollServices (next : Prog SrvState) : Prog SrvState :=
  let notify : Prog SrvState :=
    notifyBulks callback (notifyBulks callback (.unlock next))
  findServiceByPort (.choose (vchiqCloseServiceInternal callback false notify) notify) next

end

/-- `slot_handler_func`. -/
def slotHandlerFunc : Prog SrvState :=
  .pick fun depth => .loop
    (fun p => .wait <| .loop (pollServices (makeServiceCallback depth)) <|
      .loop (parseRxSlots (makeServiceCallback depth)) p)
    .done

/-- One message of `sync_func`. -/
def syncFunc (next : Prog SrvState) : Prog SrvState :=
  .wait <| findServiceByPort
    (.pick fun
      | 0 => .switch fun s =>
        if s = .opening then .set .opensync (.unlock next) else .unlock next
      | 1 => .switch fun s =>
        if s = .opensync then makeSyncCallback (.unlock next) else .unlock next
      | _ => .unlock next)
    next

/-- The slot handler, or any other thread. -/
def thread (slotHandler : Bool) : Prog SrvState :=
  if slotHandler then slotHandlerFunc
  else .loop (fun p => .choose (syncFunc p) (clientCall .wait false p)) .done

/-! ## What the threads keep to -/

inductive Phase where
  | pending | connected | over
  deriving DecidableEq, Repr

def phase : SrvState → Phase
  | .hidden | .opening => .pending
  | .open | .opensync | .closesent => .connected
  | _ => .over

/-- The slot handler may do anything, and the others leave what they have not brought online
to it. -/
def discipline : Bool → Discipline SrvState
  | true =>
    { sets := fun _ _ => True
      frees := fun _ => True
      rely := fun s t => t = s ∨ s = .hidden ∧ (t = .listening ∨ t = .free) ∨
        s = .opening ∧ t = .opensync
      rely_refl := fun _ => .inl rfl
      rely_trans := by
        rintro s t u (rfl | ⟨rfl, rfl | rfl⟩ | ⟨rfl, rfl⟩) hu <;> simp_all }
  | false =>
    { sets := fun s t => s = .hidden ∧ t = .listening ∨ s = .opening ∧ t = .opensync
      frees := fun s => s = .hidden
      rely := fun _ _ => True
      rely_refl := fun _ => trivial
      rely_trans := fun _ _ => trivial }

/-- What becomes of a state in a wait or in a callback. -/
def may (slotHandler : Bool) (s t : SrvState) : Prop :=
  slotHandler = true → phase s = .pending ∨ phase t = phase s

theorem may_of_rely {b : Bool} {s t : SrvState} (h : (discipline b).rely s t) : may b s t := by
  rintro rfl
  obtain rfl | ⟨rfl, -⟩ | ⟨rfl, -⟩ := h
  · exact .inr rfl
  · exact .inl rfl
  · exact .inl rfl

theorem compatible {ι : Type} [DecidableEq ι] (slotHandler : ι) :
    Compatible (fun i => discipline (i = slotHandler)) .free where
  set {i j} hij s t hsets := by
    by_cases hj : j = slotHandler
    · have hi : i ≠ slotHandler := fun hi => hij (hi.trans hj.symm)
      simp only [hi, hj, decide_true, decide_false, discipline] at hsets ⊢
      tauto
    · simp [hj, discipline]
  free {i j} hij s hfrees := by
    by_cases hj : j = slotHandler
    · have hi : i ≠ slotHandler := fun hi => hij (hi.trans hj.symm)
      simp only [hi, hj, decide_true, decide_false, discipline] at hfrees ⊢
      tauto
    · simp [hj, discipline]

/-- What comes after is safe, and so it is with `f` before. -/
def Respects (b : Bool) (f : Prog SrvState → Prog SrvState) : Prop :=
  ∀ ⦃Ks : List (Set SrvState)⦄ ⦃next : Prog SrvState⦄, (∀ K ∈ Ks, Settled (may b) K) →
    Safe (discipline b) .free Ks next → Safe (discipline b) .free Ks (f next)

theorem respects_wait (b : Bool) : Respects b .wait :=
  fun _ _ hKs h => h.wait_settled may_of_rely hKs

theorem settled_phase {q : Phase} (hq : q ≠ .pending) : Settled (may true) {s | phase s = q} := by
  intro s hs t hmay
  obtain hpending | hphase := hmay rfl
  · exact absurd (hs.symm.trans hpending) hq
  · exact hphase.trans hs

section

variable {b : Bool} {Ks : List (Set SrvState)} {K : Set SrvState} {next : Prog SrvState}
  {callback : Prog SrvState → Prog SrvState}

theorem settled_cons_univ (hKs : ∀ K ∈ Ks, Settled (may b) K) :
    ∀ K ∈ Set.univ :: Ks, Settled (may b) K :=
  List.forall_mem_cons.2 ⟨.univ _, hKs⟩

theorem wait_top (hKs : ∀ K ∈ Ks, Settled (may b) K)
    (h : Safe (discipline b) .free (Set.univ :: Ks) next) :
    Safe (discipline b) .free (K :: Ks) (.wait next) :=
  (respects_wait b (settled_cons_univ hKs) h).top

/-! ### Closing -/

theorem notifyBulks_respects (hcallback : Respects b callback) :
    Respects b (notifyBulks callback) :=
  fun _ _ hKs h =>
    .loop (fun _ hq => respects_wait b hKs (.choose (hcallback hKs hq) hq)) h

theorem doAbortBulks_respects (hcallback : Respects b callback) :
    Respects b (doAbortBulks callback) :=
  fun _ _ hKs h =>
    have hnotify := notifyBulks_respects hcallback hKs h
    respects_wait b hKs (.choose h (notifyBulks_respects hcallback hKs (.choose h hnotify)))

/-- It is freed by the slot handler, or before it has been brought online. -/
theorem vchiqFreeServiceInternal_safe (hK : b = true ∨ ∀ s ∈ K, s = .hidden)
    (hKs : ∀ K ∈ Ks, Settled (may b) K)
    (h : Safe (discipline b) .free (Set.univ :: Ks) next) :
    Safe (discipline b) .free (K :: Ks) (vchiqFreeServiceInternal next) := by
  refine .switch fun s hs => ?_
  have hfree (hne : s ≠ .free) (hphase : phase s ≠ .connected) :
      Safe (discipline b) .free ({s} :: Ks) (.free next) := by
    refine .free_settled hKs ?_ ?_ h.top
    · rintro _ rfl
      refine ⟨hne, ?_⟩
      obtain rfl | hhidden := hK
      · trivial
      · obtain rfl := hhidden _ hs
        cases b
        · rfl
        · trivial
    · rintro - t rfl -
      cases t <;> simp_all [phase]
  cases s
  case opening | closed | hidden | listening | closewait => exact hfree nofun nofun
  all_goals exact h.top

theorem serviceClosed_safe {failstate : SrvState} (hcallback : Respects true callback)
    (hKs : ∀ K ∈ Ks, Settled (may true) K) (hK : ∀ s ∈ K, phase s = .over)
    (hne : failstate ≠ .free) (hfail : phase failstate = .over)
    (h : Safe (discipline true) .free (Set.univ :: Ks) next) :
    Safe (discipline true) .free (K :: Ks) (serviceClosed callback failstate next) := by
  have hover : Safe (discipline true) .free ({s | phase s = .over} :: Ks)
      (serviceClosed callback failstate next) := by
    refine hcallback (List.forall_mem_cons.2 ⟨settled_phase nofun, hKs⟩) (.ask ?_ ?_)
    · refine .set_settled hKs (fun s hs => ⟨hs.2, trivial⟩) hne ?_ h.top
      rintro - s ⟨hs, -⟩ -
      exact .inr (hfail.trans hs.symm)
    · refine .switch fun s _ => ?_
      split
      · exact vchiqFreeServiceInternal_safe (.inl rfl) hKs h
      · exact h.top
  exact hover.mono (.cons hK (.refl Ks))

/-- The slot handler comes here with an open service only from a message of the peer. -/
theorem closeServiceComplete_safe {failstate : SrvState} (hcallback : Respects true callback)
    (hKs : ∀ K ∈ Ks, Settled (may true) K) (hK : ∀ s ∈ K, phase s = .connected → Ks = [])
    (hne : failstate ≠ .free) (hfail : phase failstate = .over)
    (h : Safe (discipline true) .free (Set.univ :: Ks) next) :
    Safe (discipline true) .free (K :: Ks) (closeServiceComplete callback failstate next) := by
  refine .switch fun s hs => ?_
  have hset (t : SrvState) (hs' : s ≠ .free) (ht : t ≠ .free) (hphase : phase t = .over)
      (hover : phase s = .connected ∨ phase s = .over) :
      Safe (discipline true) .free ({s} :: Ks)
        (.set t (serviceClosed callback failstate next)) := by
    refine .set_settled hKs ?_ ht ?_ (serviceClosed_safe hcallback hKs ?_ hne hfail h)
    · rintro _ rfl
      exact ⟨hs', trivial⟩
    · rintro hnil _ rfl -
      obtain hconnected | hover := hover
      · exact absurd (hK _ hs hconnected) hnil
      · exact .inr (hphase.trans hover.symm)
    · rintro _ rfl
      exact hphase
  have hcomplete (hs' : s ≠ .free) (hover : phase s = .connected ∨ phase s = .over) :
      Safe (discipline true) .free ({s} :: Ks)
        (.choose (.set .listening (serviceClosed callback failstate next)) <|
          .choose (.set .closewait (serviceClosed callback failstate next)) <|
          .set .closed (serviceClosed callback failstate next)) :=
    .choose (hset _ hs' nofun rfl hover) <|
      .choose (hset _ hs' nofun rfl hover) (hset _ hs' nofun rfl hover)
  cases s
  case «open» | closesent => exact hcomplete nofun (.inl rfl)
  case closerecvd => exact hcomplete nofun (.inr rfl)
  case listening =>
    refine serviceClosed_safe hcallback hKs ?_ hne hfail h
    rintro _ rfl
    rfl
  all_goals exact h.top

theorem closeOpenService_safe {closeRecvd : Bool} (hcallback : Respects true callback)
    (hKs : ∀ K ∈ Ks, Settled (may true) K) (hK : ∀ s ∈ K, phase s = .connected)
    (hnil : closeRecvd = true → Ks = [])
    (h : Safe (discipline true) .free (Set.univ :: Ks) next) :
    Safe (discipline true) .free (K :: Ks) (closeOpenService callback closeRecvd next) := by
  have hsettled : ∀ K ∈ {s | phase s = .connected} :: Ks, Settled (may true) K :=
    List.forall_mem_cons.2 ⟨settled_phase nofun, hKs⟩
  have hne : ∀ s ∈ {s | phase s = Phase.connected},
      s ≠ .free ∧ (discipline true).sets s .closesent := by
    rintro s hs
    refine ⟨?_, trivial⟩
    rintro rfl
    exact absurd hs nofun
  have hclose : Safe (discipline true) .free ({s | phase s = .connected} :: Ks)
      (.wait <| .choose next <|
        if closeRecvd then .set .closerecvd (closeServiceComplete callback .closerecvd next)
        else .set .closesent next) := by
    refine respects_wait true hsettled (.choose h.top ?_)
    split
    case isTrue hrecvd =>
      refine .set_settled hKs hne nofun (fun hKs => absurd (hnil hrecvd) hKs) ?_
      refine closeServiceComplete_safe hcallback hKs ?_ nofun rfl h
      rintro _ rfl
      exact nofun
    case isFalse =>
      exact .set_settled hKs hne nofun (fun _ s hs _ => .inr hs.symm) h.top
  have hopen : Safe (discipline true) .free ({s | phase s = .connected} :: Ks)
      (closeOpenService callback closeRecvd next) :=
    .choose (doAbortBulks_respects hcallback hsettled hclose) hclose
  exact hopen.mono (.cons hK (.refl Ks))

theorem vchiqCloseServiceInternal_safe {closeRecvd : Bool} (hcallback : Respects true callback)
    (hKs : ∀ K ∈ Ks, Settled (may true) K) (hnil : closeRecvd = true → Ks = [])
    (h : Safe (discipline true) .free (Set.univ :: Ks) next) :
    Safe (discipline true) .free (K :: Ks)
      (vchiqCloseServiceInternal callback closeRecvd next) := by
  refine .switch fun s _ => ?_
  have hfree {L : Set SrvState} := vchiqFreeServiceInternal_safe (K := L) (.inl rfl) hKs h
  have hset {s t : SrvState} {p : Prog SrvState} (hs : s ≠ .free) (ht : t ≠ .free)
      (hmay : may true s t) (hp : Safe (discipline true) .free ({t} :: Ks) p) :
      Safe (discipline true) .free ({s} :: Ks) (.set t p) := by
    refine .set_settled hKs ?_ ht ?_ hp
    · rintro _ rfl
      exact ⟨hs, trivial⟩
    · rintro - _ rfl
      exact hmay
  have hcomplete {s : SrvState} (hs : phase s = .over) : Safe (discipline true) .free ({s} :: Ks)
      (closeServiceComplete callback .closerecvd next) := by
    refine closeServiceComplete_safe hcallback hKs ?_ nofun rfl h
    rintro _ rfl hconnected
    rw [hs] at hconnected
    exact absurd hconnected nofun
  cases s
  case closed | hidden | listening =>
    dsimp only
    split
    · exact h.top
    · exact .choose h.top hfree
  case closewait =>
    dsimp only
    split
    · exact h.top
    · exact .choose (hset nofun nofun (fun _ => .inr rfl) h.top) hfree
  case opening =>
    dsimp only
    split
    · exact hset nofun nofun (fun _ => .inl rfl) h.top
    · exact wait_top hKs h
  case opensync =>
    have hopen := closeOpenService_safe hcallback hKs
      (K := {s | phase s = .connected}) (fun _ hs => hs) hnil h
    refine Safe.mono (respects_wait true ?_ hopen) (.cons ?_ (.refl Ks))
    · exact List.forall_mem_cons.2 ⟨settled_phase nofun, hKs⟩
    · rintro _ rfl
      rfl
  case «open» =>
    refine closeOpenService_safe hcallback hKs ?_ hnil h
    rintro _ rfl
    rfl
  case closesent =>
    dsimp only
    split
    case isFalse => exact h.top
    case isTrue hrecvd =>
      obtain rfl := hnil hrecvd
      have hany {L : Set SrvState} : Safe (discipline true) .free [L]
          (closeServiceComplete callback .closerecvd next) :=
        closeServiceComplete_safe hcallback hKs (fun _ _ _ => rfl) nofun rfl h
      exact .choose hany (doAbortBulks_respects hcallback (settled_cons_univ hKs)
        (.choose h hany)).top
  case closerecvd =>
    dsimp only
    split
    · exact hcomplete rfl
    · exact .choose (hset nofun nofun (fun _ => .inr rfl) (hcomplete rfl)) (hcomplete rfl)
  case free => exact h.top

/-- A service that is not online yet is closed by any thread. -/
theorem vchiqCloseServiceInternal_hidden (hKs : ∀ K ∈ Ks, Settled (may b) K)
    (h : Safe (discipline b) .free (Set.univ :: Ks) next) :
    Safe (discipline b) .free ({.hidden} :: Ks)
      (vchiqCloseServiceInternal callback false next) := by
  refine .switch fun s hs => ?_
  obtain rfl := hs
  exact .choose h.top (vchiqFreeServiceInternal_safe (.inr fun _ hs => hs) hKs h)

theorem awaitRemoveEvent_safe (hKs : ∀ K ∈ Ks, Settled (may b) K)
    (h : Safe (discipline b) .free Ks next) :
    Safe (discipline b) .free (Set.univ :: Ks) (awaitRemoveEvent (.unlock next)) :=
  .loop (fun _ hq => respects_wait b (settled_cons_univ hKs) hq) (wait_top hKs (.unlock h))

/-! ### Calls -/

theorem vchiqCloseService_respects (hcallback : Respects b callback) :
    Respects b (vchiqCloseService callback b) := by
  intro Ks next hKs h
  have hawait := awaitRemoveEvent_safe hKs h
  refine .find (.switch fun s _ => ?_) h
  split
  case h_1 | h_2 | h_3 => exact .unlock h
  case h_4 =>
    refine wait_top hKs ?_
    cases b
    · exact hawait
    · exact vchiqCloseServiceInternal_safe hcallback hKs nofun hawait

theorem vchiqRemoveService_respects (hcallback : Respects b callback) :
    Respects b (vchiqRemoveService callback b) := by
  intro Ks next hKs h
  have hawait := awaitRemoveEvent_safe hKs h
  refine .find (.switch fun s _ => ?_) h
  split
  case h_1 => exact .unlock h
  case h_2 =>
    refine wait_top hKs (.switch fun t _ => ?_)
    split
    case isFalse => exact hawait.top
    case isTrue hclose =>
      obtain rfl | rfl := hclose
      · exact vchiqCloseServiceInternal_hidden hKs hawait
      · exact vchiqCloseServiceInternal_safe hcallback hKs nofun hawait

/-- A service is found, used and let go of. -/
theorem find_unlock_respects (accepts : SrvState → Bool) :
    Respects b fun next => .find accepts (.unlock next) next :=
  fun _ _ _ h => .find (.unlock h) h

theorem find_wait_unlock_respects (accepts : SrvState → Bool) :
    Respects b fun next => .find accepts (.wait (.unlock next)) next :=
  fun _ _ hKs h => .find (wait_top hKs (.unlock h)) h

theorem vchiqQueueMessage_respects : Respects b vchiqQueueMessage := by
  intro Ks next hKs h
  refine .find (wait_top hKs (.choose (.unlock h) (.switch fun s _ => ?_))) h
  split
  · exact wait_top hKs (.unlock h)
  · exact wait_top hKs (.unlock h)
  · exact .unlock h

theorem vchiqBulkTransfer_respects : Respects b vchiqBulkTransfer := by
  intro Ks next hKs h
  have hwaiting {L : Set SrvState} :
      Safe (discipline b) .free (L :: Ks) (.unlock (.choose next (.wait next))) :=
    .unlock (.choose h (respects_wait b hKs h))
  refine .find (.switch fun s _ => ?_) h
  split
  · exact .unlock h
  refine wait_top hKs (.choose (.unlock h) (.choose hwaiting ?_))
  refine .loop (fun _ hq => respects_wait b (settled_cons_univ hKs) hq) ?_
  refine .choose (.unlock h) (wait_top hKs (.choose (.unlock h) (.switch fun t _ => ?_)))
  split
  · exact .unlock h
  · exact wait_top hKs (.choose (.unlock h) hwaiting)

theorem vchiqBlockingBulkTransfer_respects : Respects b vchiqBlockingBulkTransfer :=
  fun _ _ hKs h =>
    .find (.unlock (respects_wait b hKs (.choose h (vchiqBulkTransfer_respects hKs h)))) h

theorem vchiqConnectInternal_respects : Respects b vchiqConnectInternal := by
  intro Ks next hKs h
  refine .loop (fun p hp => .find (.switch fun s _ => ?_) hp) ?_
  · split
    case isFalse => exact .unlock hp
    case isTrue hs =>
      subst hs
      refine .set_settled hKs ?_ nofun ?_ (.unlock hp)
      · rintro _ rfl
        refine ⟨nofun, ?_⟩
        cases b
        · exact .inl ⟨rfl, rfl⟩
        · trivial
      · rintro - _ rfl -
        exact .inl rfl
  · exact .choose h (respects_wait b hKs (.choose h (respects_wait b hKs h)))

theorem vchiqShutdownInternal_respects (hcallback : Respects b callback) :
    Respects b (vchiqShutdownInternal callback b) :=
  fun _ _ hKs h =>
    .loop (fun _ hp => .find (Safe.top (vchiqRemoveService_respects hcallback
      (settled_cons_univ hKs) (.unlock hp))) hp) h

theorem vchiqAddService_respects : Respects b vchiqAddService :=
  fun _ _ hKs h => respects_wait b hKs (.choose (.add h) (.add h))

theorem vchiqOpenService_respects (hcallback : Respects b callback) :
    Respects b (vchiqOpenService callback b) :=
  fun _ _ hKs h => respects_wait b hKs (.add (respects_wait b hKs
    (.choose h (vchiqRemoveService_respects hcallback hKs h))))

theorem findForInstance_respects : Respects b findForInstance :=
  fun _ _ hKs h => .choose (find_wait_unlock_respects _ hKs h) (find_wait_unlock_respects _ hKs h)

theorem clientCalls_respects (hcallback : Respects b callback) :
    ∀ call ∈ clientCalls callback b, Respects b call := by
  simp only [clientCalls, List.forall_mem_cons, List.not_mem_nil, false_implies, implies_true,
    and_true]
  exact ⟨vchiqAddService_respects, vchiqOpenService_respects hcallback,
    vchiqConnectInternal_respects, vchiqCloseService_respects hcallback,
    vchiqRemoveService_respects hcallback, vchiqShutdownInternal_respects hcallback,
    find_unlock_respects _, find_wait_unlock_respects _, find_wait_unlock_respects _,
    find_wait_unlock_respects _, find_unlock_respects _, find_wait_unlock_respects _,
    vchiqQueueMessage_respects, vchiqBulkTransfer_respects, vchiqBlockingBulkTransfer_respects,
    findForInstance_respects⟩

theorem clientCall_respects (hcallback : Respects b callback) :
    Respects b (clientCall callback b) := by
  refine fun Ks next hKs h => .pick fun n => ?_
  rw [List.getD_eq_getElem?_getD]
  cases hcall : (clientCalls callback b)[n]? with
  | none => exact h
  | some call => exact clientCalls_respects hcallback call (List.mem_of_getElem? hcall) hKs h

theorem makeServiceCallback_respects (depth : Nat) :
    Respects true (makeServiceCallback depth) := by
  induction depth with
  | zero => exact respects_wait true
  | succ depth ih =>
    exact fun _ _ hKs h => respects_wait true hKs
      (.loop (fun _ hq => clientCall_respects ih hKs hq) h)

theorem makeSyncCallback_respects : Respects false makeSyncCallback :=
  fun _ _ hKs h => respects_wait false hKs
    (.loop (fun _ hq => clientCall_respects (respects_wait false) hKs hq) h)

/-! ### Messages -/

/-- What the slot handler does itself, with no reference of a callback around it. -/
theorem parseOpen_safe (hcallback : Respects true callback)
    (h : Safe (discipline true) .free [] next) :
    Safe (discipline true) .free [] (parseOpen callback next) := by
  have hnil : ∀ K ∈ ([] : List (Set SrvState)), Settled (may true) K := nofun
  have hfail := respects_wait true hnil h
  have hopened {L : Set SrvState} :
      Safe (discipline true) .free [L] (callback (.unlock next)) :=
    (hcallback (settled_cons_univ hnil) (.unlock h)).top
  refine .choose hfail (.find (.choose (.unlock hfail) (.switch fun s _ => ?_)) hfail)
  split
  case isFalse => exact hopened
  case isTrue hs =>
    subst hs
    have hset {t : SrvState} (ht : t ≠ .free) : Safe (discipline true) .free
        [{.listening}] (.set t (callback (.unlock next))) := by
      refine .set_settled hnil ?_ ht (fun h => absurd rfl h) hopened
      rintro _ rfl
      exact ⟨nofun, trivial⟩
    -- no other thread changes the state of a service that listens
    have hafter : (discipline true).after {.listening} ⊆ {.listening} := by
      rintro t ⟨_, rfl, rfl | ⟨h, -⟩ | ⟨h, -⟩⟩
      · rfl
      · exact absurd h nofun
      · exact absurd h nofun
    refine .wait (Safe.mono ?_ (.cons hafter .nil))
    exact .choose (.unlock h) (.choose (hset nofun) (hset nofun))

theorem parseClose_safe (hcallback : Respects true callback)
    (h : Safe (discipline true) .free [] next) :
    Safe (discipline true) .free [K] (parseClose callback next) :=
  wait_top nofun (vchiqCloseServiceInternal_safe hcallback nofun (fun _ => rfl) (.unlock h))

theorem parseMessage_safe (hcallback : Respects true callback)
    (h : Safe (discipline true) .free [] next) :
    Safe (discipline true) .free [K] (parseMessage callback next) := by
  have hnil : ∀ K ∈ ([] : List (Set SrvState)), Settled (may true) K := nofun
  have hunlock {L : Set SrvState} : Safe (discipline true) .free [L] (.unlock next) := .unlock h
  have hnotify {L : Set SrvState} : Safe (discipline true) .free [L]
      (.wait (.choose (.unlock next) (notifyBulks callback (.unlock next)))) :=
    wait_top hnil (.choose hunlock
      (notifyBulks_respects hcallback (settled_cons_univ hnil) hunlock))
  refine .pick fun n => ?_
  split
  case h_1 =>
    refine .switch fun s _ => ?_
    split
    case isFalse => exact hunlock
    case isTrue hs =>
      subst hs
      refine .set_settled hnil ?_ nofun (fun h => absurd rfl h) hunlock
      rintro _ rfl
      exact ⟨nofun, trivial⟩
  case h_2 =>
    refine .switch fun s _ => ?_
    split
    · exact (hcallback (settled_cons_univ hnil) hunlock).top
    · exact hunlock
  case h_3 =>
    refine .switch fun s _ => ?_
    split
    · exact hnotify
    · exact hunlock
  case h_4 =>
    refine .switch fun s _ => ?_
    split
    · exact hnotify
    · exact hunlock

theorem parseRxSlots_safe (hcallback : Respects true callback)
    (h : Safe (discipline true) .free [] next) :
    Safe (discipline true) .free [] (parseRxSlots callback next) := by
  have hconnected : Safe (discipline true) .free []
      (getConnectedService (parseClose callback next) next) := .find (parseClose_safe hcallback h) h
  exact .choose (parseOpen_safe hcallback h) (.choose (respects_wait true nofun h)
    (.find
      (.choose (parseMessage_safe hcallback h)
        (.choose (parseClose_safe hcallback h) (.unlock hconnected)))
      (.choose h hconnected)))

theorem pollServices_safe (hcallback : Respects true callback)
    (h : Safe (discipline true) .free [] next) :
    Safe (discipline true) .free [] (pollServices callback next) := by
  have hsettled : ∀ K ∈ [Set.univ], Settled (may true) K := settled_cons_univ nofun
  have hnotify : Safe (discipline true) .free [Set.univ]
      (notifyBulks callback (notifyBulks callback (.unlock next))) :=
    notifyBulks_respects hcallback hsettled (notifyBulks_respects hcallback hsettled (.unlock h))
  exact .find (.choose (vchiqCloseServiceInternal_safe hcallback nofun nofun hnotify) hnotify.top) h

theorem slotHandlerFunc_safe : Safe (discipline true) .free [] slotHandlerFunc := by
  refine .pick fun depth => .loop (fun p hp => respects_wait true nofun ?_) .done
  have hcallback := makeServiceCallback_respects depth
  exact .loop (fun _ hq => pollServices_safe hcallback hq)
    (.loop (fun _ hq => parseRxSlots_safe hcallback hq) hp)

theorem syncFunc_safe (h : Safe (discipline false) .free [] next) :
    Safe (discipline false) .free [] (syncFunc next) := by
  have hnil : ∀ K ∈ ([] : List (Set SrvState)), Settled (may false) K := nofun
  have hunlock {L : Set SrvState} : Safe (discipline false) .free [L] (.unlock next) := .unlock h
  refine respects_wait false hnil (.find (.pick fun n => ?_) h)
  split
  case h_1 =>
    refine .switch fun s _ => ?_
    split
    case isFalse => exact hunlock
    case isTrue hs =>
      subst hs
      refine .set_settled hnil ?_ nofun (fun h => absurd rfl h) hunlock
      rintro _ rfl
      exact ⟨nofun, .inr ⟨rfl, rfl⟩⟩
  case h_2 =>
    refine .switch fun s _ => ?_
    split
    · exact (makeSyncCallback_respects (settled_cons_univ hnil) hunlock).top
    · exact hunlock
  case h_3 => exact hunlock

theorem thread_safe (b : Bool) : Safe (discipline b) .free [] (thread b) := by
  cases b
  · exact .loop (fun _ hp => .choose (syncFunc_safe hp)
      (clientCall_respects (respects_wait false) nofun hp)) .done
  · exact slotHandlerFunc_safe

end

/-! ## All runs -/

section

variable {ι : Type} [DecidableEq ι] [Fintype ι]

/-- What `ref_count` is to be. -/
structure Intact (s : Store ι SrvState) : Prop where
  /-- One until `vchiq_free_service_internal` has run, and one for each reference. -/
  refCount : ∀ id o, s.heap id = some o →
    o.refCount = (if o.retired then 0 else 1) + ∑ i, (s.held i).count id
  held : ∀ i, ∀ id ∈ s.held i, ∃ o, s.heap id = some o
  free : ∀ id o, s.heap id = some o → o.state = .free → o.retired = true
  services : ∀ localport id, s.table localport = some id ↔
    ∃ o, s.heap id = some o ∧ o.place = localport ∧ 0 < o.refCount
  freed : ∀ id, id < s.next → s.freed id = if s.heap id = none then 1 else 0
  /-- No `BUG_ON` has fired, and no service that is freed has been looked at. -/
  bugOn : s.faulted = false

omit [DecidableEq ι] in
theorem Intact.of_counted {s : Store ι SrvState} (h : Counted .free balanced s) : Intact s where
  refCount _ _ ho := h.count ho
  held _ _ := h.live
  free _ _ ho := (h.dead ho).1
  services localport id := by
    rw [h.table]
    constructor
    · rintro ⟨o, ho, hplace⟩
      exact ⟨o, ho, hplace, h.pos ho⟩
    · rintro ⟨o, ho, hplace, -⟩
      exact ⟨o, ho, hplace⟩
  freed id hid := by
    rw [h.freed id]
    simp [hid]
  bugOn := h.faulted

/-- The threads of a state: the slot handler, and any others. -/
def start (slotHandler current : ι) : World ι SrvState :=
  .init (fun i => thread (i = slotHandler)) current

/-- `ref_count` counts the references to a service as long as no callback
`VCHIQ_SERVICE_CLOSED` that has freed its service returns `VCHIQ_RETRY`. -/
theorem intact_of_fairRun (slotHandler current : ι) (es : List (ι × Nat))
    (h : (start slotHandler current).fairRun .free es = true) :
    Intact ((start slotHandler current).run .free es).store :=
  .of_counted ((World.Sound.init (fun i => thread_safe (i = slotHandler)) current).run
    (compatible slotHandler) h).counted

end

/-- An application adds a service, a client opens and closes it, and the callback
`VCHIQ_SERVICE_CLOSED` removes the service; `answer` 0 is `VCHIQ_RETRY`. -/
def removedInCallback (answer : Nat) : List (Bool × Nat) :=
  -- `vchiq_add_service`
  [0, 1, 1, 0, 0, 0, 0].map (Prod.mk false) ++
  -- `OPEN`
  [0, 1, 1, 0, 0, 2, 0, 1, 1, 1, 0, 0, 1, 1, 0, 0, 0, 0].map (Prod.mk true) ++
  -- `CLOSE`, up to the callback
  [1, 1, 1, 1, 0, 0, 0, 1, 0, 1, 0, 0, 0, 0, 0].map (Prod.mk true) ++
  -- `vchiq_remove_service` in the callback, and its answer
  [1, 4, 1, 0, 0, 0, 0, 1, 0, 0, 0, 0, 0, answer].map (Prod.mk true) ++
  -- the reference of the message is dropped
  [0, 0].map (Prod.mk true)

theorem intact_of_fairRun_removed :
    Intact ((start true false).run .free (removedInCallback 1)).store :=
  intact_of_fairRun true false (removedInCallback 1) (by decide)

/-- The state that `close_service_complete` restores is not that of a service that is freed,
and the `BUG_ON` of `unlock_service` fires. -/
theorem not_intact_of_retry :
    ¬∀ (slotHandler current : Bool) (es : List (Bool × Nat)),
      Intact ((start slotHandler current).run .free es).store := by
  intro h
  have hbug : ((start true false).run .free (removedInCallback 0)).store.faulted = true := by
    decide +kernel
  rw [(h true false (removedInCallback 0)).bugOn] at hbug
  exact absurd hbug nofun

end RefCount
