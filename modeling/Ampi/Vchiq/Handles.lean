-- SUMMARY: Service handles: which service a lookup finds, and what a handle finds when its service is gone.
import Ampi.Vchiq.Services

/-!
# Service handles

A handle is the port of its service with a sequence number above it, which passes over zero when
it wraps. `find_service_by_handle` compares the whole handle; `vchiq_get_service_userdata` and
`vchiq_get_service_fourcc` look at the port alone.
-/

namespace Services

open Slots

/-- The handles between two of the same sequence number. -/
def seqPeriod : Nat := 2 ^ 20 - 1

/-- The handle of the service that was added as number `serial`, on port `port`. -/
def handleNat (serial port : Nat) : Nat := (serial % seqPeriod + 1) * 4096 + port

theorem handleNat_injective {i j p q : Nat} (hp : p < maxServices) (hq : q < maxServices)
    (h : handleNat i p = handleNat j q) : i % seqPeriod = j % seqPeriod ∧ p = q := by
  simp only [handleNat, maxServices] at *
  omega

namespace State

/-! ## Lookups -/

def handleToService (s : State) (handle : UInt32) : Option Service :=
  s.services (handle &&& (.ofNat maxServices - 1)).toNat

def findServiceByHandle (s : State) (handle : UInt32) : Option Service :=
  match s.handleToService handle with
  | some srv => if srv.srvstate ≠ .free ∧ srv.handle = handle then some srv else none
  | none => none

def vchiqGetServiceUserdata (s : State) (handle : UInt32) : Pointer :=
  match s.handleToService handle with
  | some srv => srv.userdata
  | none => 0

def vchiqGetServiceFourcc (s : State) (handle : UInt32) : UInt32 :=
  match s.handleToService handle with
  | some srv => srv.fourcc
  | none => 0

/-! ## The invariant -/

/-- The sequence number goes with the number of services added, and every service has the
handle it was given. -/
structure Numbered (s : State) : Prop extends s.Placed where
  seq : s.nextSeq.toNat = handleNat s.additions 0
  handles : ∀ p srv, s.services p = some srv →
    srv.handle.toNat = handleNat srv.serial p ∧ srv.serial < s.additions ∧
      (srv.wasFree = false → srv.srvstate ≠ .free)

theorem numbered_init : Numbered {} where
  toPlaced := placed_init
  seq := rfl
  handles _ _ := nofun

theorem Numbered.update {s : State} (h : s.Numbered) (port : Nat) {f : Service → Service}
    (hf : ∀ srv, (f srv).localport = srv.localport ∧ (f srv).handle = srv.handle ∧
      (f srv).serial = srv.serial ∧
      ((srv.wasFree = false → srv.srvstate ≠ .free) →
        (f srv).wasFree = false → (f srv).srvstate ≠ .free)) :
    (s.update port f).Numbered where
  toPlaced := h.toPlaced.update port fun srv => (hf srv).1
  seq := h.seq
  handles p srv hsrv := by
    simp only [State.update, Function.update_apply] at hsrv
    split at hsrv
    case isTrue hp =>
      obtain ⟨srv', hsrv', rfl⟩ := Option.map_eq_some_iff.1 hsrv
      obtain ⟨-, hhandle, hserial, hfree⟩ := hf srv'
      obtain ⟨hhandle', hserial', hfree'⟩ := h.handles port srv' hsrv'
      rw [hhandle, hserial, hp]
      exact ⟨hhandle', hserial', hfree hfree'⟩
    case isFalse => exact h.handles p srv hsrv

theorem Numbered.removeService {s : State} (h : s.Numbered) (port : Nat) :
    (s.removeService port).Numbered where
  toPlaced := h.toPlaced.removeService port
  seq := h.seq
  handles p srv hsrv := by
    simp only [State.removeService, Function.update_apply] at hsrv
    split at hsrv
    · cases hsrv
    · exact h.handles p srv hsrv

theorem newService_handle {s : State} (h : s.Numbered) {port : Nat} (hport : port < maxServices)
    (params : ServiceParams) (srvstate : SrvState) (owner : Pointer) :
    (s.newService params srvstate owner port).handle.toNat = handleNat s.additions port := by
  have hport : port < 2 ^ 12 := hport
  have hseq : s.nextSeq.toNat = 2 ^ 12 * (s.additions % seqPeriod + 1) := by
    rw [h.seq, handleNat]
    omega
  have htoNat : (UInt32.ofNat port).toNat = port := by
    rw [UInt32.toNat_ofNat']
    omega
  rw [newService, UInt32.toNat_or, hseq, htoNat, ← Nat.two_pow_add_eq_or_of_lt hport, handleNat]
  omega

/-- The sequence number passes over zero. -/
theorem nextSeq_add {s t : State} (h : s.Numbered) (hseq : t.handleSeq = s.nextSeq + .ofNat 4096) :
    t.nextSeq.toNat = handleNat (s.additions + 1) 0 := by
  have hnext := h.seq
  have hsum : t.handleSeq.toNat = (s.nextSeq.toNat + 4096) % 2 ^ 32 := by
    rw [hseq, UInt32.toNat_add]
    rfl
  simp only [handleNat, seqPeriod] at hnext ⊢
  rw [nextSeq]
  split
  case isTrue hzero =>
    have hzero : t.handleSeq.toNat = 0 := by rw [hzero]; rfl
    change 4096 = _
    omega
  case isFalse hzero =>
    have hzero : t.handleSeq.toNat ≠ 0 := fun hz => hzero (UInt32.toNat_inj.1 hz)
    omega

/-- The service that an addition returns, in the state that it leaves. -/
theorem addService_eq_some {s : State} (h : s.Placed) {allocated : Bool} {params : ServiceParams}
    {srvstate : SrvState} {owner : Pointer} {service : Service}
    (hadd : (s.vchiqAddServiceInternal allocated params srvstate owner).2 = some service) :
    ∃ port < maxServices, s.services port = none ∧
      service = s.newService params srvstate owner port ∧
      (s.vchiqAddServiceInternal allocated params srvstate owner).1.services =
        Function.update s.services port (some service) ∧
      (s.vchiqAddServiceInternal allocated params srvstate owner).1.additions =
        s.additions + 1 := by
  unfold vchiqAddServiceInternal at hadd ⊢
  split at hadd
  case isFalse => cases hadd
  split at hadd
  case h_1 => cases hadd
  case h_2 hallocated _ port hport =>
    obtain ⟨hnone, hlt, -⟩ := (findPort_spec h params srvstate owner).2 port hport
    obtain rfl := Option.some.inj hadd
    refine ⟨port, hlt, hnone, rfl, ?_⟩
    rw [if_pos hallocated]
    exact ⟨rfl, rfl⟩

theorem Numbered.addService {s : State} (h : s.Numbered) (allocated : Bool)
    (params : ServiceParams) (srvstate : SrvState) (owner : Pointer) :
    (s.vchiqAddServiceInternal allocated params srvstate owner).1.Numbered := by
  have hplaced := h.toPlaced.addService allocated params srvstate owner
  unfold vchiqAddServiceInternal at hplaced ⊢
  split
  case isFalse => exact h
  split
  case h_1 => exact h
  case h_2 hallocated _ port hport =>
    rw [if_pos hallocated, hport] at hplaced
    obtain ⟨-, hlt, -⟩ := (findPort_spec h.toPlaced params srvstate owner).2 port hport
    refine ⟨hplaced, nextSeq_add h rfl, fun p srv hsrv => ?_⟩
    simp only [Function.update_apply] at hsrv
    split at hsrv
    case isTrue hp =>
      obtain rfl := Option.some.inj hsrv
      rw [newService_handle h hlt, hp]
      exact ⟨rfl, Nat.lt_succ_self _, by simp [newService]⟩
    case isFalse =>
      obtain ⟨hhandle, hserial, hfree⟩ := h.handles p srv hsrv
      exact ⟨hhandle, Nat.lt_succ_of_lt hserial, hfree⟩

theorem Numbered.step {s : State} (h : s.Numbered) (e : Event) : (s.step e).Numbered := by
  cases e with
  | addService allocated params srvstate owner => exact h.addService ..
  | setServiceState port newstate =>
    refine h.update port fun srv => ⟨rfl, rfl, rfl, fun _ hfree => ?_⟩
    simp at hfree
    exact hfree.2
  | setPublicFourcc port => exact h.update port fun srv => ⟨rfl, rfl, rfl, id⟩
  | unlockService port =>
    simp only [State.step]
    split
    · split
      · exact h.removeService port
      · exact h
    · exact h

/-! ## One service after its addition -/

/-- Two versions of one service: its state may have changed. -/
structure SameService (srv srv' : Service) : Prop where
  serial : srv.serial = srv'.serial
  userdata : srv.userdata = srv'.userdata
  fourcc : srv.fourcc = srv'.fourcc

/-- On the port of `service` there is that service, or one that has been added after it. -/
structure Since (service : Service) (s : State) : Prop extends s.Numbered where
  added : service.serial < s.additions
  occupant : ∀ srv, s.services service.localport = some srv →
    SameService srv service ∨ service.serial < srv.serial

theorem update_occupant {s : State} {port p : Nat} {f : Service → Service} {srv : Service}
    (hf : ∀ srv, SameService (f srv) srv) (hsrv : (s.update port f).services p = some srv) :
    ∃ srv', s.services p = some srv' ∧ SameService srv srv' := by
  simp only [State.update, Function.update_apply] at hsrv
  split at hsrv
  case isTrue hp =>
    obtain ⟨srv', hsrv', rfl⟩ := Option.map_eq_some_iff.1 hsrv
    exact ⟨srv', hp ▸ hsrv', hf srv'⟩
  case isFalse => exact ⟨srv, hsrv, rfl, rfl, rfl⟩

/-- A step puts at most a new service on a port. -/
theorem step_occupant {s : State} (e : Event) :
    s.additions ≤ (s.step e).additions ∧
      ∀ p srv, (s.step e).services p = some srv →
        (∃ srv', s.services p = some srv' ∧ SameService srv srv') ∨ srv.serial = s.additions := by
  have hkeep (p : Nat) (srv : Service) (hsrv : s.services p = some srv) :
      (∃ srv', s.services p = some srv' ∧ SameService srv srv') ∨ srv.serial = s.additions :=
    .inl ⟨srv, hsrv, rfl, rfl, rfl⟩
  cases e with
  | addService allocated params srvstate owner =>
    simp only [State.step, vchiqAddServiceInternal]
    split
    case isFalse => exact ⟨Nat.le_refl _, hkeep⟩
    split
    case h_1 => exact ⟨Nat.le_refl _, hkeep⟩
    case h_2 port hport =>
      refine ⟨Nat.le_succ _, fun p srv hsrv => ?_⟩
      simp only [Function.update_apply] at hsrv
      split at hsrv
      case isTrue =>
        obtain rfl := Option.some.inj hsrv
        exact .inr rfl
      case isFalse => exact hkeep p srv hsrv
  | setServiceState port newstate =>
    refine ⟨Nat.le_refl _, fun p srv hsrv => .inl ?_⟩
    refine update_occupant (fun srv => ?_) hsrv
    exact ⟨rfl, rfl, rfl⟩
  | setPublicFourcc port =>
    refine ⟨Nat.le_refl _, fun p srv hsrv => .inl ?_⟩
    refine update_occupant (fun srv => ?_) hsrv
    exact ⟨rfl, rfl, rfl⟩
  | unlockService port =>
    simp only [State.step]
    split
    case h_2 => exact ⟨Nat.le_refl _, hkeep⟩
    split
    case isFalse => exact ⟨Nat.le_refl _, hkeep⟩
    refine ⟨Nat.le_refl _, fun p srv hsrv => ?_⟩
    simp only [State.removeService, Function.update_apply] at hsrv
    split at hsrv
    · cases hsrv
    · exact hkeep p srv hsrv

theorem Since.step {service : Service} {s : State} (h : Since service s) (e : Event) :
    Since service (s.step e) := by
  obtain ⟨hle, hsrv⟩ := step_occupant (s := s) e
  have hadded := h.added
  refine ⟨h.toNumbered.step e, by omega, fun srv hoccupant => ?_⟩
  obtain ⟨srv', hsrv', hserial, huserdata, hfourcc⟩ | hnew := hsrv _ srv hoccupant
  · refine (h.occupant srv' hsrv').imp (fun hsame => ?_) (fun hlt => hserial ▸ hlt)
    exact ⟨hserial.trans hsame.serial, huserdata.trans hsame.userdata,
      hfourcc.trans hsame.fourcc⟩
  · exact .inr (by omega)

theorem since_run {service : Service} {s : State} (h : Since service s) (es : List Event) :
    Since service (s.run es) :=
  Machine.run_invariant (fun _ e h => h.step e) es h

/-- A service right after its addition. -/
theorem since_addService {s : State} (h : s.Numbered) {allocated : Bool} {params : ServiceParams}
    {srvstate : SrvState} {owner : Pointer} {service : Service}
    (hadd : (s.vchiqAddServiceInternal allocated params srvstate owner).2 = some service) :
    Since service (s.step (.addService allocated params srvstate owner)) ∧
      service.localport < maxServices ∧
      service.handle.toNat = handleNat service.serial service.localport := by
  obtain ⟨port, hport, -, rfl, hservices, hadditions⟩ := addService_eq_some h.toPlaced hadd
  refine ⟨⟨h.addService .., ?_, fun srv hsrv => .inl ?_⟩, hport, newService_handle h hport ..⟩
  · rw [State.step, hadditions]
    exact Nat.lt_succ_self _
  · rw [State.step, hservices] at hsrv
    simp only [newService, Function.update_self, Option.some_inj] at hsrv
    subst hsrv
    exact ⟨rfl, rfl, rfl⟩

/-! ## What a handle finds -/

/-- The service on the port of a handle. -/
theorem handleToService_eq {s : State} {handle : UInt32} {serial port : Nat}
    (hport : port < maxServices) (h : handle.toNat = handleNat serial port) :
    s.handleToService handle = s.services port := by
  have hmask : UInt32.ofNat maxServices - 1 = .ofNat (2 ^ 12 - 1) := rfl
  rw [handleToService, hmask, toNat_and_mask handle 12 (by omega), h, handleNat]
  congr 1
  simp only [maxServices] at hport
  omega

/-- `service` has been removed, and at most `2 ^ 20 - 2` others have been added since it was. -/
def Gone (s : State) (service : Service) : Prop :=
  (∀ srv, s.services service.localport = some srv → srv.serial ≠ service.serial) ∧
    s.additions ≤ service.serial + 1 + (2 ^ 20 - 2)

/-- The handle of `service` stands for it as long as it has not been in the state `FREE`, and
for nothing when it is gone. -/
structure Resolves (s : State) (service : Service) : Prop where
  valid : service.handle ≠ 0
  present : ∀ srv, s.services service.localport = some srv → srv.serial = service.serial →
    srv.wasFree = false →
      s.findServiceByHandle service.handle = some srv ∧
        s.vchiqGetServiceUserdata service.handle = service.userdata ∧
        s.vchiqGetServiceFourcc service.handle = service.fourcc
  gone : s.Gone service →
    s.findServiceByHandle service.handle = none ∧
      s.vchiqGetServiceUserdata service.handle = 0 ∧
      s.vchiqGetServiceFourcc service.handle = 0

theorem resolves_iff {s : State} {service : Service} (h : Since service s)
    (hport : service.localport < maxServices)
    (hhandle : service.handle.toNat = handleNat service.serial service.localport) :
    s.Resolves service ↔ (s.Gone service → ∀ srv, s.services service.localport = some srv →
      srv.userdata = 0 ∧ srv.fourcc = 0) := by
  have hlookup := handleToService_eq (s := s) hport hhandle
  constructor
  · intro hres hgone srv hsrv
    obtain ⟨-, huserdata, hfourcc⟩ := hres.gone hgone
    rw [vchiqGetServiceUserdata, hlookup, hsrv] at huserdata
    rw [vchiqGetServiceFourcc, hlookup, hsrv] at hfourcc
    exact ⟨huserdata, hfourcc⟩
  · intro hcond
    refine ⟨?_, ?_, ?_⟩
    · intro hzero
      rw [hzero, handleNat] at hhandle
      change 0 = _ at hhandle
      omega
    · intro srv hsrv hserial hfree
      obtain ⟨hhandle', -, hstate⟩ := h.handles _ srv hsrv
      have heq : srv.handle = service.handle := by
        rw [← UInt32.toNat_inj, hhandle', hhandle, hserial]
      have hsame := (h.occupant srv hsrv).resolve_right (by omega)
      rw [findServiceByHandle, vchiqGetServiceUserdata, vchiqGetServiceFourcc, hlookup, hsrv]
      exact ⟨if_pos ⟨hstate hfree, heq⟩, hsame.userdata, hsame.fourcc⟩
    · intro hgone
      rw [findServiceByHandle, vchiqGetServiceUserdata, vchiqGetServiceFourcc, hlookup]
      cases hsrv : s.services service.localport with
      | none => exact ⟨rfl, rfl, rfl⟩
      | some srv =>
        obtain ⟨huserdata, hfourcc⟩ := hcond hgone srv hsrv
        refine ⟨if_neg fun ⟨_, heq⟩ => ?_, huserdata, hfourcc⟩
        obtain ⟨hhandle', hserial, -⟩ := h.handles _ srv hsrv
        have hlt := (h.occupant srv hsrv).resolve_left fun hsame => hgone.1 srv hsrv hsame.serial
        have hle := hgone.2
        rw [heq, hhandle] at hhandle'
        have hmod := (handleNat_injective hport hport hhandle').1
        simp only [seqPeriod] at hmod
        omega

/-- Of a handle that an addition has returned, in every state after it: it stands for its service
and for nothing else, unless another service on its port has user data or a fourcc. -/
theorem resolves_run_iff (es₁ es₂ : List Event) (allocated : Bool) (params : ServiceParams)
    (srvstate : SrvState) (owner : Pointer) (service : Service)
    (hadd : ((run {} es₁).vchiqAddServiceInternal allocated params srvstate owner).2 =
      some service) :
    (run {} (es₁ ++ .addService allocated params srvstate owner :: es₂)).Resolves service ↔
      ((run {} (es₁ ++ .addService allocated params srvstate owner :: es₂)).Gone service →
        ∀ srv, (run {} (es₁ ++ .addService allocated params srvstate owner :: es₂)).services
          service.localport = some srv → srv.userdata = 0 ∧ srv.fourcc = 0) := by
  have hnumbered : (run {} es₁).Numbered :=
    Machine.run_invariant (fun _ e h => h.step e) es₁ numbered_init
  obtain ⟨hsince, hport, hhandle⟩ := since_addService hnumbered hadd
  rw [run, Machine.run_append, Machine.run_cons]
  exact resolves_iff (since_run hsince es₂) hport hhandle

/-- A client that looks for the audio service. -/
def audioParams (userdata : Pointer) : ServiceParams where
  fourcc := 0x41554453
  callback := 1
  userdata := userdata

/-- The first service of all. -/
def firstService : Service := newService {} (audioParams 1) .opening 1 0

/-- Another service comes, and the first one goes. -/
theorem resolves_run_iff_first :
    (run {} [.addService true (audioParams 1) .opening 1,
      .addService true (audioParams 2) .opening 1, .setServiceState 0 .free,
      .unlockService 0]).Resolves firstService := by
  refine (resolves_run_iff [] _ true (audioParams 1) .opening 1 firstService rfl).2
    fun _ srv hsrv => ?_
  have hnone : (run {} [.addService true (audioParams 1) .opening 1,
      .addService true (audioParams 2) .opening 1, .setServiceState 0 .free,
      .unlockService 0]).services 0 = none := by decide
  cases hnone.symm.trans hsrv

/-- The first service is freed, and a second one takes its port: the handle of the first then
stands for the user data of the second. -/
theorem not_resolves :
    ¬ ∀ es, (run {} (.addService true (audioParams 1) .opening 1 :: es)).Resolves firstService := by
  intro h
  have hgone := (h [.setServiceState 0 .free, .unlockService 0,
    .addService true (audioParams 2) .opening 1]).gone
  have := (hgone ⟨by rintro _ ⟨⟩; decide, by decide⟩).2.1
  revert this
  decide

end State

end Services
