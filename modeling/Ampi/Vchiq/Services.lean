-- SUMMARY: The array of services: how vchiq_add_service_internal picks a port, and when it fails.
import Ampi.Machine
import Ampi.Vchiq.Closing

/-!
# The services of a state

`vchiq_add_service_internal` searches `services` under a mutex, upwards for a client and
downwards for a server, and starts from the entry at `unused_service`, behind all that have
ever been used. A service leaves the array in `unlock_service`, with its last reference; what
else happens to it does not move it.
-/

namespace Services

/-- `VCHIQ_MAX_SERVICES`. -/
def maxServices : Nat := 4096

/-- `VCHIQ_FOURCC_INVALID`. -/
def fourccInvalid : UInt32 := 0

/-- A pointer that nothing here follows; 0 is `NULL`. -/
abbrev Pointer := Nat

/-- `VCHIQ_SERVICE_PARAMS_T`. -/
structure ServiceParams where
  fourcc : UInt32
  callback : Pointer
  userdata : Pointer
  deriving DecidableEq, Repr

/-- `VCHIQ_SERVICE_T`. The last two are not in the source: how many services had been added
before this one, and whether it has been in `VCHIQ_SRVSTATE_FREE`. -/
structure Service where
  fourcc : UInt32
  callback : Pointer
  userdata : Pointer
  handle : UInt32
  srvstate : SrvState
  localport : Nat
  publicFourcc : UInt32
  owner : Pointer
  serial : Nat
  wasFree : Bool
  deriving DecidableEq, Repr

/-- `VCHIQ_STATE_T` and `handle_seq`. The last count is not in the source. -/
structure State where
  services : Nat → Option Service := fun _ => none
  unusedService : Nat := 0
  handleSeq : UInt32 := 0
  additions : Nat := 0

namespace State

/-! ## Adding a service -/

/-- The scan of a client from port `i` on, over `n` ports. -/
def clientScan (s : State) (pservice : Option Nat) (i : Nat) : Nat → Option Nat
  | 0 => pservice
  | n + 1 => if (s.services i).isNone then some i else s.clientScan pservice (i + 1) n

/-- There is another server using this fourcc which does not match. -/
def mismatch (params : ServiceParams) (owner : Pointer) (srv : Service) : Bool :=
  srv.publicFourcc = params.fourcc ∧ (srv.owner ≠ owner ∨ srv.callback ≠ params.callback)

/-- The scan of a server over the ports below `n`, downwards. -/
def serverScan (s : State) (params : ServiceParams) (owner : Pointer) (pservice : Option Nat) :
    Nat → Option Nat
  | 0 => pservice
  | i + 1 =>
    match s.services i with
    | none => s.serverScan params owner (some i) i
    | some srv =>
      if mismatch params owner srv then none else s.serverScan params owner pservice i

/-- The port for a new service. -/
def findPort (s : State) (params : ServiceParams) (srvstate : SrvState) (owner : Pointer) :
    Option Nat :=
  let pservice := if s.unusedService < maxServices then some s.unusedService else none
  if srvstate = .opening then s.clientScan pservice 0 s.unusedService
  else s.serverScan params owner pservice s.unusedService

/-- `handle_seq` as the next service gets it. -/
def nextSeq (s : State) : UInt32 := if s.handleSeq = 0 then .ofNat maxServices else s.handleSeq

/-- The service as it is at the end of `vchiq_add_service_internal`, on port `port`; there is
one state, with the identity 0. -/
def newService (s : State) (params : ServiceParams) (srvstate : SrvState) (owner : Pointer)
    (port : Nat) : Service where
  fourcc := params.fourcc
  callback := params.callback
  userdata := params.userdata
  handle := s.nextSeq ||| .ofNat port
  srvstate := srvstate
  localport := port
  publicFourcc := if srvstate = .opening then fourccInvalid else params.fourcc
  owner := owner
  serial := s.additions
  wasFree := srvstate = .free

/-- `vchiq_add_service_internal`, whose `kmalloc` succeeds or not. The quotas that it sets do
not matter here. -/
def vchiqAddServiceInternal (s : State) (allocated : Bool) (params : ServiceParams)
    (srvstate : SrvState) (owner : Pointer) : State × Option Service :=
  if allocated then
    match s.findPort params srvstate owner with
    | none => (s, none)
    | some port =>
      let service := s.newService params srvstate owner port
      ({ services := Function.update s.services port (some service)
         unusedService := if port = s.unusedService then s.unusedService + 1 else s.unusedService
         handleSeq := s.nextSeq + .ofNat maxServices
         additions := s.additions + 1 }, some service)
  else (s, none)

/-! ## The machine -/

def update (s : State) (port : Nat) (f : Service → Service) : State :=
  { s with services := Function.update s.services port ((s.services port).map f) }

/-- `unlock_service`, when it drops the last reference. -/
def removeService (s : State) (port : Nat) : State :=
  { s with services := Function.update s.services port none }

end State

inductive Event where
  | addService (allocated : Bool) (params : ServiceParams) (srvstate : SrvState) (owner : Pointer)
  /-- `vchiq_set_service_state`. -/
  | setServiceState (port : Nat) (newstate : SrvState)
  /-- The service is made to look like a client. -/
  | setPublicFourcc (port : Nat)
  /-- The last reference is dropped. -/
  | unlockService (port : Nat)

namespace State

def step (s : State) : Event → State
  | .addService allocated params srvstate owner =>
    (s.vchiqAddServiceInternal allocated params srvstate owner).1
  | .setServiceState port newstate =>
    s.update port fun srv =>
      { srv with srvstate := newstate, wasFree := srv.wasFree || newstate = .free }
  | .setPublicFourcc port => s.update port fun srv => { srv with publicFourcc := fourccInvalid }
  | .unlockService port =>
    match s.services port with
    | some srv => if srv.srvstate = .free then s.removeService port else s
    | none => s

abbrev run (s : State) (es : List Event) : State := Machine.run step s es

/-! ## The invariant -/

/-- A service is where its port says, and below `unused_service`. -/
structure Placed (s : State) : Prop where
  bound : s.unusedService ≤ maxServices
  port : ∀ p srv, s.services p = some srv → srv.localport = p ∧ p < s.unusedService

theorem placed_init : Placed {} where
  bound := Nat.zero_le _
  port _ _ := nofun

/-! ## What the scans find -/

/-- A scan that goes through finds a hole, or keeps the entry it started from if there is
none. -/
def Found (s : State) (pservice : Option Nat) (i n : Nat) (r : Option Nat) : Prop :=
  (∃ p, r = some p ∧ s.services p = none ∧ i ≤ p ∧ p < n) ∨
    r = pservice ∧ ∀ p, i ≤ p → p < n → (s.services p).isSome

theorem clientScan_found (s : State) (pservice : Option Nat) (i n : Nat) :
    s.Found pservice i (i + n) (s.clientScan pservice i n) := by
  induction n generalizing i with
  | zero => exact .inr ⟨rfl, by omega⟩
  | succ n ih =>
    rw [clientScan]
    split
    case isTrue hnone =>
      exact .inl ⟨i, rfl, Option.isNone_iff_eq_none.1 hnone, Nat.le_refl i, by omega⟩
    case isFalse hsome =>
      obtain ⟨p, hp, hnone, hle, hlt⟩ | ⟨hp, hall⟩ := ih (i + 1)
      · exact .inl ⟨p, hp, hnone, by omega, by omega⟩
      · refine .inr ⟨hp, fun p hle hlt => ?_⟩
        obtain rfl | hlt' := Nat.eq_or_lt_of_le hle
        · simpa [← Option.isSome_iff_ne_none] using hsome
        · exact hall p hlt' (by omega)

/-- A server with this fourcc that does not match is on one of the ports below `n`. -/
def Clash (s : State) (params : ServiceParams) (owner : Pointer) (n : Nat) : Prop :=
  ∃ p < n, ∃ srv, s.services p = some srv ∧ mismatch params owner srv

/-- A mismatch overrides what the scan has found above it. -/
theorem serverScan_found (s : State) (params : ServiceParams) (owner : Pointer)
    (pservice : Option Nat) (n : Nat) :
    (s.Clash params owner n ∧ s.serverScan params owner pservice n = none) ∨
      ¬ s.Clash params owner n ∧ s.Found pservice 0 n (s.serverScan params owner pservice n) := by
  induction n generalizing pservice with
  | zero => exact .inr ⟨by simp [Clash], .inr ⟨rfl, by omega⟩⟩
  | succ n ih =>
    have hclash : s.Clash params owner (n + 1) ↔
        s.Clash params owner n ∨ ∃ srv, s.services n = some srv ∧ mismatch params owner srv := by
      simp only [Clash, Nat.lt_succ_iff_lt_or_eq]
      grind
    rw [serverScan]
    split
    case h_1 hnone =>
      simp only [hclash, hnone, reduceCtorEq, false_and, exists_false, or_false]
      refine (ih (some n)).imp_right fun ⟨hno, hfound⟩ => ⟨hno, ?_⟩
      obtain ⟨p, hp, hnone', -, hlt⟩ | ⟨hp, -⟩ := hfound
      · exact .inl ⟨p, hp, hnone', Nat.zero_le p, by omega⟩
      · exact .inl ⟨n, hp, hnone, Nat.zero_le n, by omega⟩
    case h_2 srv hsrv =>
      split
      case isTrue hmis => exact .inl ⟨hclash.2 (.inr ⟨srv, hsrv, hmis⟩), rfl⟩
      case isFalse hmis =>
        have hclash : s.Clash params owner (n + 1) ↔ s.Clash params owner n := by
          rw [hclash]
          simp [hsrv, hmis]
        rw [hclash]
        refine (ih pservice).imp_right fun ⟨hno, hfound⟩ => ⟨hno, ?_⟩
        obtain ⟨p, hp, hnone, -, hlt⟩ | ⟨hp, hall⟩ := hfound
        · exact .inl ⟨p, hp, hnone, Nat.zero_le p, by omega⟩
        · refine .inr ⟨hp, fun p _ hlt => ?_⟩
          obtain hlt | rfl := Nat.lt_succ_iff_lt_or_eq.1 hlt
          · exact hall p (Nat.zero_le p) hlt
          · simp [hsrv]

/-- Every port is in use. -/
def Full (s : State) : Prop := ∀ p < maxServices, (s.services p).isSome

/-- The entry that both scans start from. -/
def unusedPort (s : State) : Option Nat :=
  if s.unusedService < maxServices then some s.unusedService else none

theorem Placed.unused {s : State} (h : s.Placed) {p : Nat} (hp : s.unusedService ≤ p) :
    s.services p = none := by
  cases hsrv : s.services p with
  | none => rfl
  | some srv => exact absurd (h.port p srv hsrv).2 (Nat.not_lt.2 hp)

theorem Placed.found {s : State} (h : s.Placed) {r : Option Nat}
    (hr : s.Found s.unusedPort 0 s.unusedService r) :
    (r = none ↔ s.Full) ∧
      ∀ p, r = some p → s.services p = none ∧ p < maxServices ∧ p ≤ s.unusedService := by
  obtain ⟨p, rfl, hnone, -, hlt⟩ | ⟨rfl, hall⟩ := hr
  · have hbound : p < maxServices := Nat.lt_of_lt_of_le hlt h.bound
    refine ⟨by simpa using fun hfull => by simpa [hnone] using hfull p hbound, ?_⟩
    rintro _ ⟨⟩
    exact ⟨hnone, hbound, Nat.le_of_lt hlt⟩
  · rw [unusedPort]
    split
    case isTrue hlt =>
      have hnone := h.unused (Nat.le_refl s.unusedService)
      refine ⟨by simpa using fun hfull => by simpa [hnone] using hfull _ hlt, ?_⟩
      rintro _ ⟨⟩
      exact ⟨hnone, hlt, Nat.le_refl _⟩
    case isFalse hle =>
      exact ⟨iff_of_true rfl fun p hp => hall p (Nat.zero_le p) (by omega), nofun⟩

theorem findPort_spec {s : State} (h : s.Placed) (params : ServiceParams) (srvstate : SrvState)
    (owner : Pointer) :
    (s.findPort params srvstate owner = none ↔
      s.Full ∨ srvstate ≠ .opening ∧ s.Clash params owner s.unusedService) ∧
      ∀ p, s.findPort params srvstate owner = some p →
        s.services p = none ∧ p < maxServices ∧ p ≤ s.unusedService := by
  have hfind : s.findPort params srvstate owner =
      if srvstate = .opening then s.clientScan s.unusedPort 0 s.unusedService
      else s.serverScan params owner s.unusedPort s.unusedService := rfl
  rw [hfind]
  split
  case isTrue hopening =>
    have hfound := s.clientScan_found s.unusedPort 0 s.unusedService
    rw [Nat.zero_add] at hfound
    simpa [hopening] using h.found hfound
  case isFalse hserver =>
    obtain ⟨hclash, hnone⟩ | ⟨hno, hfound⟩ :=
      s.serverScan_found params owner s.unusedPort s.unusedService
    · simp [hnone, hserver, hclash]
    · simpa [hserver, hno] using h.found hfound

theorem clash_iff {s : State} (h : s.Placed) {params : ServiceParams} {owner : Pointer} :
    s.Clash params owner s.unusedService ↔
      ∃ p srv, s.services p = some srv ∧ mismatch params owner srv := by
  constructor
  · rintro ⟨p, -, srv, hsrv, hmis⟩
    exact ⟨p, srv, hsrv, hmis⟩
  · rintro ⟨p, srv, hsrv, hmis⟩
    exact ⟨p, (h.port p srv hsrv).2, srv, hsrv, hmis⟩

/-! ## Every step keeps the services in their places -/

theorem Placed.update {s : State} (h : s.Placed) (port : Nat) {f : Service → Service}
    (hf : ∀ srv, (f srv).localport = srv.localport) : (s.update port f).Placed where
  bound := h.bound
  port p srv hsrv := by
    simp only [State.update, Function.update_apply] at hsrv
    split at hsrv
    case isTrue hp =>
      obtain ⟨srv', hsrv', rfl⟩ := Option.map_eq_some_iff.1 hsrv
      rw [hf, hp]
      exact h.port port srv' hsrv'
    case isFalse => exact h.port p srv hsrv

theorem Placed.removeService {s : State} (h : s.Placed) (port : Nat) :
    (s.removeService port).Placed where
  bound := h.bound
  port p srv hsrv := by
    simp only [State.removeService, Function.update_apply] at hsrv
    split at hsrv
    · cases hsrv
    · exact h.port p srv hsrv

theorem Placed.addService {s : State} (h : s.Placed) (allocated : Bool) (params : ServiceParams)
    (srvstate : SrvState) (owner : Pointer) :
    (s.vchiqAddServiceInternal allocated params srvstate owner).1.Placed := by
  unfold vchiqAddServiceInternal
  split
  case isFalse => exact h
  split
  case h_1 => exact h
  case h_2 port hport =>
    obtain ⟨-, hlt, hle⟩ := (findPort_spec h params srvstate owner).2 port hport
    have hbound := h.bound
    constructor
    · dsimp only
      split <;> omega
    · intro p srv hsrv
      simp only [Function.update_apply] at hsrv
      split at hsrv
      case isTrue hp =>
        obtain rfl := Option.some.inj hsrv
        refine ⟨hp.symm, ?_⟩
        dsimp only
        split <;> omega
      case isFalse =>
        obtain ⟨hlocal, hlt'⟩ := h.port p srv hsrv
        refine ⟨hlocal, ?_⟩
        dsimp only
        split <;> omega

theorem Placed.step {s : State} (h : s.Placed) (e : Event) : (s.step e).Placed := by
  cases e with
  | addService allocated params srvstate owner => exact h.addService ..
  | setServiceState port newstate => exact h.update port fun _ => rfl
  | setPublicFourcc port => exact h.update port fun _ => rfl
  | unlockService port =>
    simp only [State.step]
    split
    · split
      · exact h.removeService port
      · exact h
    · exact h

theorem placed_run (es : List Event) : (run {} es).Placed :=
  Machine.run_invariant (fun _ e h => h.step e) es placed_init

/-! ## Port allocation -/

/-- In every reached state, a new service gets a port of its own in the array, below
`unused_service` as all others; the addition fails, and changes nothing, exactly if there is no
memory, no port, or for a server another one on the same fourcc which does not match. -/
theorem vchiqAddServiceInternal_port (es : List Event) (allocated : Bool) (params : ServiceParams)
    (srvstate : SrvState) (owner : Pointer) :
    let s := run {} es
    let r := s.vchiqAddServiceInternal allocated params srvstate owner
    (∀ service, r.2 = some service →
      service.localport < maxServices ∧ s.services service.localport = none ∧
        r.1.services service.localport = some service ∧
        ∀ p, p ≠ service.localport → r.1.services p = s.services p) ∧
    (∀ p srv, r.1.services p = some srv → srv.localport = p ∧ p < r.1.unusedService) ∧
    (r.2 = none → r.1 = s) ∧
    (r.2 = none ↔ allocated = false ∨ s.Full ∨ srvstate ≠ .opening ∧
      ∃ p srv, s.services p = some srv ∧ srv.publicFourcc = params.fourcc ∧
        (srv.owner ≠ owner ∨ srv.callback ≠ params.callback)) := by
  intro s r
  have h : s.Placed := placed_run es
  have hplaced : r.1.Placed := h.addService allocated params srvstate owner
  obtain ⟨hnone, hsome⟩ := findPort_spec h params srvstate owner
  have hclash : (∃ p srv, s.services p = some srv ∧ mismatch params owner srv) ↔
      ∃ p srv, s.services p = some srv ∧ srv.publicFourcc = params.fourcc ∧
        (srv.owner ≠ owner ∨ srv.callback ≠ params.callback) := by
    simp [mismatch]
  rw [clash_iff h, hclash] at hnone
  cases hallocated : allocated with
  | false =>
    have hr : r = (s, none) := by simp [r, vchiqAddServiceInternal, hallocated]
    rw [hr]
    exact ⟨nofun, h.port, fun _ => rfl, by simp⟩
  | true =>
    cases hport : s.findPort params srvstate owner with
    | none =>
      have hr : r = (s, none) := by simp [r, vchiqAddServiceInternal, hallocated, hport]
      rw [hr]
      exact ⟨nofun, h.port, fun _ => rfl, iff_of_true rfl (.inr (hnone.1 hport))⟩
    | some port =>
      obtain ⟨hfree, hlt, -⟩ := hsome port hport
      have hservice : r.2 = some (s.newService params srvstate owner port) := by
        simp [r, vchiqAddServiceInternal, hallocated, hport]
      have hservices : r.1.services =
          Function.update s.services port (some (s.newService params srvstate owner port)) := by
        simp [r, vchiqAddServiceInternal, hallocated, hport]
      rw [hservice]
      refine ⟨?_, hplaced.port, nofun, ?_⟩
      · rintro _ ⟨⟩
        refine ⟨hlt, hfree, ?_, fun p hp => ?_⟩
        · rw [hservices]
          exact Function.update_self ..
        · rw [hservices]
          exact Function.update_of_ne hp ..
      · rw [hport] at hnone
        simpa using hnone

end State

end Services
