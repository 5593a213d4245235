-- SUMMARY: The use counts of VideoCore and of its services, and the runs in which they balance.
import Ampi.Machine
import Mathlib.Algebra.BigOperators.Fin
import Mathlib.Algebra.Order.BigOperators.Group.Finset

/-!
# Use counts

`vchiq_use_internal` and `vchiq_release_internal` with their callers. The increments
of a use happen together under `susp_res_lock`, and so would the decrements of a
release; `close_service_complete` releases in a loop that never yields. Interleavings
are therefore sequences of whole calls, except for an open, whose release comes
after the peer has answered.

The waits of a use cannot be interrupted, so a use that returns has succeeded. The counts
are `int`s, and one that is counted up from `INT_MAX` comes out negative.
-/

namespace UseCount

inductive Status where
  | success | error
  deriving DecidableEq, Repr

/-- `service_use_count`. The other two are not in the source: they count the calls
that have returned `VCHIQ_SUCCESS`. -/
structure Service where
  useCount : Int32 := 0
  uses : Nat := 0
  releases : Nat := 0
  deriving DecidableEq, Repr

/-- The counts of `VCHIQ_ARM_STATE_T` and the services of `VCHIQ_STATE_T`, for `n`
ports. Ghost counts for the peer as for a service. -/
structure ArmState (n : Nat) where
  videocoreUseCount : Int32 := 0
  peerUseCount : Int32 := 0
  peerUses : Nat := 0
  peerReleases : Nat := 0
  services : Fin n → Option Service := fun _ => none

/-- Whose count `entity_uc` points to. -/
inductive Entity (n : Nat) where
  | peer
  | service (p : Fin n)
  deriving DecidableEq

inductive Event (n : Nat) where
  /-- `vchiq_add_service_internal`, on a port that is free. -/
  | addService (p : Fin n)
  | use (e : Entity n)
  | release (e : Entity n)
  /-- `vchiq_open_service_internal` up to the `OPEN` message. -/
  | openService (p : Fin n)
  /-- The peer has not opened the service. -/
  | openRejected (p : Fin n)
  /-- `close_service_complete`; a client's service is freed at its end. -/
  | closeServiceComplete (p : Fin n) (freed : Bool)
  /-- `vchiq_free_service_internal` from `vchiq_close_service_internal`. -/
  | freeService (p : Fin n)

namespace ArmState

variable {n : Nat}

def setService (s : ArmState n) (p : Fin n) (service : Option Service) : ArmState n :=
  { s with services := Function.update s.services p service }

def useInternal (s : ArmState n) : Entity n → ArmState n × Status
  | .peer =>
    ({ s with
      videocoreUseCount := s.videocoreUseCount + 1
      peerUseCount := s.peerUseCount + 1
      peerUses := s.peerUses + 1 }, .success)
  | .service p =>
    match s.services p with
    | none => (s, .error)
    | some service =>
      ({ s with videocoreUseCount := s.videocoreUseCount + 1 }.setService p
        (some { service with useCount := service.useCount + 1, uses := service.uses + 1 }),
        .success)

/-- Past the test of the counts the source has two decrements, inside a comment. -/
def releaseInternal (s : ArmState n) : Entity n → ArmState n × Status
  | .peer =>
    if s.videocoreUseCount = 0 ∨ s.peerUseCount = 0 then (s, .error)
    else ({ s with peerReleases := s.peerReleases + 1 }, .success)
  | .service p =>
    match s.services p with
    | none => (s, .error)
    | some service =>
      if s.videocoreUseCount = 0 ∨ service.useCount = 0 then (s, .error)
      else (s.setService p (some { service with releases := service.releases + 1 }), .success)

/-- `vchiq_check_service`. -/
def checkService (s : ArmState n) (p : Fin n) : Status :=
  match s.services p with
  | none => .error
  | some service => if service.useCount ≠ 0 then .success else .error

def addService (s : ArmState n) (p : Fin n) : ArmState n :=
  match s.services p with
  | none => s.setService p (some {})
  | some _ => s

/-- `for (i = 0; i < uc; i++) vchiq_release_service_internal (service)`. -/
def releaseTimes (s : ArmState n) (p : Fin n) : Nat → ArmState n
  | 0 => s
  | uc + 1 => (s.releaseInternal (.service p)).1.releaseTimes p uc

def freeService (s : ArmState n) (p : Fin n) : ArmState n := s.setService p none

def closeServiceComplete (s : ArmState n) (p : Fin n) (freed : Bool) : ArmState n :=
  match s.services p with
  | none => s
  | some service =>
    let s := s.releaseTimes p service.useCount.toNatClampNeg
    if freed then s.freeService p else s

def step (s : ArmState n) : Event n → ArmState n
  | .addService p => s.addService p
  | .use e => (s.useInternal e).1
  | .release e => (s.releaseInternal e).1
  | .openService p => (s.useInternal (.service p)).1
  | .openRejected p => (s.releaseInternal (.service p)).1
  | .closeServiceComplete p freed => s.closeServiceComplete p freed
  | .freeService p => s.freeService p

abbrev run (s : ArmState n) (es : List (Event n)) : ArmState n := Machine.run step s es

/-! ## The balance -/

/-- The use count of what occupies a port. -/
def portUseCount : Option Service → Int
  | none => 0
  | some service => service.useCount.toInt

/-- The counts are what vchiq_arm.h says they are, and a service that has been
released as often as used is refused. -/
structure Balanced (s : ArmState n) : Prop where
  total : s.videocoreUseCount.toInt = s.peerUseCount.toInt + ∑ p, portUseCount (s.services p)
  service : ∀ p service, s.services p = some service →
    (service.uses : Int) = service.useCount.toInt + service.releases
  peer : (s.peerUses : Int) = s.peerUseCount.toInt + s.peerReleases
  refused : ∀ p service, s.services p = some service → service.uses = service.releases →
    s.checkService p = .error

/-- `vchiq_release_internal` finds one of the counts at zero. -/
def refusesRelease (s : ArmState n) : Entity n → Bool
  | .peer => s.videocoreUseCount = 0 ∨ s.peerUseCount = 0
  | .service p => s.videocoreUseCount = 0 ∨ portUseCount (s.services p) = 0

/-- There is something to use, and `videocore_use_count` has reached `INT_MAX`. -/
def overflows (s : ArmState n) : Entity n → Bool
  | .peer => s.videocoreUseCount = Int32.maxValue
  | .service p => (s.services p).isSome ∧ s.videocoreUseCount = Int32.maxValue

/-- No release finds a count to take down, no service in use is closed or freed, and no
use comes when the count of all of them is `INT_MAX`. -/
def countSafe (s : ArmState n) : Event n → Bool
  | .use e => !s.overflows e
  | .openService p => !s.overflows (.service p)
  | .release e => s.refusesRelease e
  | .openRejected p => s.refusesRelease (.service p)
  | .closeServiceComplete p _ | .freeService p => portUseCount (s.services p) = 0
  | .addService _ => true

/-! ## One step -/

/-- `INT_MAX` is followed by the least `int`. -/
theorem toInt_succ (c : Int32) :
    (c + 1).toInt = if c.toInt = 2 ^ 31 - 1 then -2 ^ 31 else c.toInt + 1 := by
  have hle := c.le_toInt
  have hlt := c.toInt_lt
  have hone : (1 : Int32).toInt = 1 := rfl
  rw [Int32.toInt_add, hone]
  split
  next hmax =>
    rw [hmax]
    rfl
  next hmax => exact Int.bmod_eq_of_le (by omega) (by omega)

theorem eq_maxValue_iff {c : Int32} : c = Int32.maxValue ↔ c.toInt = 2 ^ 31 - 1 := by
  rw [← Int32.toInt_inj]
  rfl

theorem eq_zero_iff {c : Int32} : c = 0 ↔ c.toInt = 0 := by
  rw [← Int32.toInt_inj]
  rfl

/-- A count that is no more than another one does not overflow before that. -/
theorem toInt_succ_of_le {c v : Int32} (hle : c.toInt ≤ v.toInt) (hv : v ≠ Int32.maxValue) :
    (c + 1).toInt = c.toInt + 1 := by
  have hlt := v.toInt_lt
  have hmax := mt eq_maxValue_iff.2 hv
  rw [toInt_succ, if_neg (by omega)]

@[simp] theorem setService_self (s : ArmState n) (p : Fin n) (service : Option Service) :
    (s.setService p service).services p = service := by
  simp [setService]

theorem setService_of_ne (s : ArmState n) {p q : Fin n} (service : Option Service) (h : q ≠ p) :
    (s.setService p service).services q = s.services q := by
  simp [setService, h]

@[simp] theorem setService_setService (s : ArmState n) (p : Fin n) (x y : Option Service) :
    (s.setService p x).setService p y = s.setService p y := by
  simp [setService]

theorem setService_eq_self {s : ArmState n} {p : Fin n} {x : Option Service}
    (h : s.services p = x) : s.setService p x = s := by
  simp [setService, ← h]

/-- A port's new count enters the sum for the old one. -/
theorem sum_setService (s : ArmState n) (p : Fin n) (x : Option Service) :
    ∑ q, portUseCount ((s.setService p x).services q) + portUseCount (s.services p) =
      ∑ q, portUseCount (s.services q) + portUseCount x := by
  have hne : ∑ q ∈ Finset.univ.erase p, portUseCount ((s.setService p x).services q) =
      ∑ q ∈ Finset.univ.erase p, portUseCount (s.services q) :=
    Finset.sum_congr rfl fun q hq => by rw [setService_of_ne s x (Finset.ne_of_mem_erase hq)]
  rw [← Finset.add_sum_erase _ _ (Finset.mem_univ p), hne,
    ← Finset.add_sum_erase _ (fun q => portUseCount (s.services q)) (Finset.mem_univ p),
    setService_self]
  omega

theorem checkService_eq_error {s : ArmState n} {p : Fin n} {service : Service}
    (h : s.services p = some service) (h0 : service.useCount = 0) : s.checkService p = .error := by
  simp [checkService, h, h0]

/-- No count has gone below zero. -/
structure Counted (s : ArmState n) : Prop extends Balanced s where
  peerNonneg : 0 ≤ s.peerUseCount.toInt
  nonneg : ∀ p, 0 ≤ portUseCount (s.services p)

namespace Balanced

variable {s : ArmState n}

/-- The refusal follows from the counts. -/
theorem of_counts
    (htotal : s.videocoreUseCount.toInt = s.peerUseCount.toInt + ∑ p, portUseCount (s.services p))
    (hservice : ∀ p service, s.services p = some service →
      (service.uses : Int) = service.useCount.toInt + service.releases)
    (hpeer : (s.peerUses : Int) = s.peerUseCount.toInt + s.peerReleases) : Balanced s :=
  ⟨htotal, hservice, hpeer, fun p service h hu =>
    checkService_eq_error h (eq_zero_iff.2 (by have := hservice p service h; omega))⟩

/-- One port changes: the balance is kept exactly if the port's own counts balance
and the total moves with them. -/
theorem setService_iff (h : Balanced s) {p : Fin n} {x : Option Service} {t : ArmState n}
    (ht : t.services = s.services) (hpeer : t.peerUseCount = s.peerUseCount)
    (huses : t.peerUses = s.peerUses) (hreleases : t.peerReleases = s.peerReleases) :
    Balanced (t.setService p x) ↔
      t.videocoreUseCount.toInt + portUseCount (s.services p) =
          s.videocoreUseCount.toInt + portUseCount x ∧
        ∀ service, x = some service →
          (service.uses : Int) = service.useCount.toInt + service.releases := by
  have hsum := t.sum_setService p x
  have htotal := h.total
  rw [ht] at hsum
  constructor
  · intro hb
    have hbtotal : t.videocoreUseCount.toInt = t.peerUseCount.toInt +
      ∑ q, portUseCount ((t.setService p x).services q) := hb.total
    rw [hpeer] at hbtotal
    exact ⟨by omega, fun service hx => hb.service p service (by rw [setService_self, hx])⟩
  · rintro ⟨hcount, hx⟩
    refine of_counts ?_ (fun q service hq => ?_) ?_
    · change t.videocoreUseCount.toInt = t.peerUseCount.toInt + _
      rw [hpeer]
      omega
    · by_cases hqp : q = p
      · subst hqp
        exact hx service (by simpa using hq)
      · rw [setService_of_ne _ _ hqp, ht] at hq
        exact h.service q service hq
    · change (t.peerUses : Int) = t.peerUseCount.toInt + t.peerReleases
      rw [huses, hpeer, hreleases, h.peer]

/-- A release that finds its counts nonzero leaves them as they are. -/
theorem release_iff (h : Balanced s) (e : Entity n) :
    Balanced (s.releaseInternal e).1 ↔ s.refusesRelease e := by
  cases e with
  | peer =>
    simp only [releaseInternal, refusesRelease, decide_eq_true_eq]
    split
    next h0 => exact ⟨fun _ => h0, fun _ => h⟩
    next h0 =>
      refine ⟨fun hb => ?_, fun h' => absurd h' h0⟩
      have hafter : (s.peerUses : Int) = s.peerUseCount.toInt + (s.peerReleases + 1 : Nat) :=
        hb.peer
      have := h.peer
      omega
  | service p =>
    cases hp : s.services p with
    | none => simpa [releaseInternal, refusesRelease, hp, portUseCount] using h
    | some service =>
      simp only [releaseInternal, refusesRelease, hp, portUseCount, decide_eq_true_eq, eq_zero_iff]
      split
      next h0 => exact ⟨fun _ => h0, fun _ => h⟩
      next h0 =>
        refine ⟨fun hb => ?_, fun h' => absurd h' h0⟩
        have hafter := ((h.setService_iff rfl rfl rfl rfl).1 hb).2 _ rfl
        have := h.service p service hp
        dsimp only at hafter
        omega

theorem free_iff (h : Balanced s) (p : Fin n) :
    Balanced (s.freeService p) ↔ portUseCount (s.services p) = 0 := by
  rw [freeService, h.setService_iff rfl rfl rfl rfl]
  simp [portUseCount]

theorem add (h : Balanced s) (p : Fin n) : Balanced (s.addService p) := by
  unfold addService
  split
  next hp =>
    refine (h.setService_iff rfl rfl rfl rfl).2 ⟨by simp [hp, portUseCount], ?_⟩
    rintro _ ⟨⟩
    rfl
  · exact h

end Balanced

/-- The loop of `close_service_complete` takes no count down either. -/
theorem releaseTimes_eq {s : ArmState n} {p : Fin n} {service : Service} {k : Nat}
    (hp : s.services p = some service) (hv : s.videocoreUseCount ≠ 0) (hu : service.useCount ≠ 0) :
    s.releaseTimes p k =
      s.setService p (some { service with releases := service.releases + k }) := by
  induction k generalizing s service with
  | zero => exact (setService_eq_self hp).symm
  | succ k ih =>
    have hstep : (s.releaseInternal (.service p)).1 =
        s.setService p (some { service with releases := service.releases + 1 }) := by
      simp [releaseInternal, hp, hv, hu]
    have hnext := ih (setService_self s p (some { service with releases := service.releases + 1 }))
      hv hu
    rw [releaseTimes, hstep, hnext, setService_setService, Nat.add_assoc, Nat.add_comm 1 k]

namespace Counted

variable {s : ArmState n}

theorem portUseCount_le (h : Counted s) (p : Fin n) :
    portUseCount (s.services p) + s.peerUseCount.toInt ≤ s.videocoreUseCount.toInt := by
  have hle : portUseCount (s.services p) ≤ ∑ q, portUseCount (s.services q) :=
    Finset.single_le_sum (f := fun q => portUseCount (s.services q)) (fun q _ => h.nonneg q)
      (Finset.mem_univ p)
  have := h.total
  omega

theorem sum_nonneg (h : Counted s) : 0 ≤ ∑ q, portUseCount (s.services q) :=
  Finset.sum_nonneg fun q _ => h.nonneg q

theorem peerUseCount_le (h : Counted s) : s.peerUseCount.toInt ≤ s.videocoreUseCount.toInt := by
  have hsum := h.sum_nonneg
  have := h.total
  omega

/-- The count of all uses is the first one to overflow. -/
theorem use_iff (h : Counted s) (e : Entity n) :
    Balanced (s.useInternal e).1 ↔ s.overflows e = false := by
  have hpeerNonneg := h.peerNonneg
  have hlt := s.videocoreUseCount.toInt_lt
  have hvc := toInt_succ s.videocoreUseCount
  cases e with
  | peer =>
    have hle := h.peerUseCount_le
    have hsum := h.sum_nonneg
    have hpc := toInt_succ s.peerUseCount
    have htotal := h.total
    have hpeer := h.peer
    simp only [overflows, decide_eq_false_iff_not]
    constructor
    · intro hb hmax
      rw [eq_maxValue_iff] at hmax
      have htotal' : (s.videocoreUseCount + 1).toInt = (s.peerUseCount + 1).toInt +
        ∑ q, portUseCount (s.services q) := hb.total
      have hpeer' : ((s.peerUses + 1 : Nat) : Int) = (s.peerUseCount + 1).toInt + s.peerReleases :=
        hb.peer
      rw [if_pos hmax] at hvc
      split at hpc <;> omega
    · intro hmax
      have hsucc := toInt_succ_of_le hle hmax
      rw [if_neg (mt eq_maxValue_iff.2 hmax)] at hvc
      refine .of_counts ?_ h.service ?_
      · change (s.videocoreUseCount + 1).toInt = (s.peerUseCount + 1).toInt +
          ∑ q, portUseCount (s.services q)
        omega
      · change ((s.peerUses + 1 : Nat) : Int) = (s.peerUseCount + 1).toInt + s.peerReleases
        omega
  | service p =>
    cases hp : s.services p with
    | none => simpa [useInternal, overflows, hp] using h.toBalanced
    | some service =>
      have hle := h.portUseCount_le p
      have hnonneg := h.nonneg p
      have hbalance := h.service p service hp
      have hsc := toInt_succ service.useCount
      simp only [hp, portUseCount] at hle hnonneg
      simp only [useInternal, overflows, hp, Option.isSome_some, true_and, decide_eq_false_iff_not,
        eq_maxValue_iff]
      rw [h.setService_iff (t := { s with videocoreUseCount := s.videocoreUseCount + 1 })
        rfl rfl rfl rfl]
      simp only [hp, portUseCount, Option.some.injEq, forall_eq', hvc, hsc]
      split <;> split <;> omega

/-- A port's count changes to one that is not negative. -/
theorem of_setService (h : Counted s) {p : Fin n} {x : Option Service} {t : ArmState n}
    (ht : t.services = s.services) (hpeer : t.peerUseCount = s.peerUseCount)
    (hx : 0 ≤ portUseCount x) (hb : Balanced (t.setService p x)) : Counted (t.setService p x) := by
  refine ⟨hb, hpeer ▸ h.peerNonneg, fun q => ?_⟩
  by_cases hqp : q = p
  · subst hqp
    rwa [setService_self]
  · rw [setService_of_ne _ _ hqp, ht]
    exact h.nonneg q

/-- A use that does not overflow leaves its own count at zero or above. -/
theorem use (h : Counted s) {e : Entity n} (hover : s.overflows e = false) :
    Counted (s.useInternal e).1 := by
  have hb := (h.use_iff e).2 hover
  have hpeer := h.peerNonneg
  cases e with
  | peer =>
    simp only [overflows, decide_eq_false_iff_not] at hover
    refine ⟨hb, ?_, h.nonneg⟩
    change 0 ≤ (s.peerUseCount + 1).toInt
    rw [toInt_succ_of_le h.peerUseCount_le hover]
    omega
  | service p =>
    cases hp : s.services p with
    | none => simpa [useInternal, hp] using h
    | some service =>
      have hle := h.portUseCount_le p
      have hnonneg := h.nonneg p
      simp only [useInternal, hp] at hb ⊢
      simp only [overflows, hp, Option.isSome_some, true_and, decide_eq_false_iff_not] at hover
      simp only [hp, portUseCount] at hle hnonneg
      refine h.of_setService rfl rfl ?_ hb
      change 0 ≤ (service.useCount + 1).toInt
      rw [toInt_succ_of_le (by omega) hover]
      omega

theorem release (h : Counted s) {e : Entity n} (hrefused : s.refusesRelease e) :
    Counted (s.releaseInternal e).1 := by
  have hb := (h.release_iff e).2 hrefused
  cases e with
  | peer =>
    simp only [releaseInternal] at hb ⊢
    split at hb
    next h0 => simpa [h0] using h
    next h0 => simp [refusesRelease, h0] at hrefused
  | service p =>
    cases hp : s.services p with
    | none => simpa [releaseInternal, hp] using h
    | some service =>
      simp only [refusesRelease, hp, portUseCount, decide_eq_true_eq, ← eq_zero_iff] at hrefused
      simpa [releaseInternal, hp, hrefused] using h

theorem free (h : Counted s) {p : Fin n} (h0 : portUseCount (s.services p) = 0) :
    Counted (s.freeService p) :=
  h.of_setService rfl rfl (Int.le_refl 0) ((h.free_iff p).2 h0)

theorem add (h : Counted s) (p : Fin n) : Counted (s.addService p) := by
  have hb := h.toBalanced.add p
  cases hp : s.services p with
  | none =>
    simp only [addService, hp] at hb ⊢
    exact h.of_setService rfl rfl (Int.le_refl 0) hb
  | some service => simpa [addService, hp] using h

/-- Without a use to release, closing a service does no more than freeing it. -/
theorem close_eq {p : Fin n} (h0 : portUseCount (s.services p) = 0) (freed : Bool) :
    s.closeServiceComplete p freed = s ∨ s.closeServiceComplete p freed = s.freeService p := by
  cases hp : s.services p with
  | none => exact .inl (by simp [closeServiceComplete, hp])
  | some service =>
    simp only [hp, portUseCount, ← eq_zero_iff] at h0
    have hzero : (0 : Int32).toNatClampNeg = 0 := rfl
    cases freed <;> simp [closeServiceComplete, hp, h0, hzero, releaseTimes]

theorem close (h : Counted s) {p : Fin n} (h0 : portUseCount (s.services p) = 0) (freed : Bool) :
    Counted (s.closeServiceComplete p freed) := by
  obtain heq | heq := close_eq h0 freed <;> rw [heq]
  · exact h
  · exact h.free h0

theorem close_iff (h : Counted s) (p : Fin n) (freed : Bool) :
    Balanced (s.closeServiceComplete p freed) ↔ portUseCount (s.services p) = 0 := by
  refine ⟨fun hb => ?_, fun h0 => (h.close h0 freed).toBalanced⟩
  cases hp : s.services p with
  | none => rfl
  | some service =>
    by_contra hne
    have hpos := h.nonneg p
    have hle := h.portUseCount_le p
    have hpeer := h.peerNonneg
    simp only [hp, portUseCount] at hne hpos hle
    have hu : service.useCount ≠ 0 := fun h0 => hne (eq_zero_iff.1 h0)
    have hv : s.videocoreUseCount ≠ 0 := fun h0 => by
      have := eq_zero_iff.1 h0
      omega
    simp only [closeServiceComplete, hp, releaseTimes_eq hp hv hu] at hb
    cases freed with
    | false =>
      have hafter := ((h.setService_iff rfl rfl rfl rfl).1 hb).2 _ rfl
      have hbalance := h.service p service hp
      have htimes : (service.useCount.toNatClampNeg : Int) = service.useCount.toInt :=
        Int.toNat_of_nonneg hpos
      dsimp only at hafter
      omega
    | true =>
      simp only [freeService, if_true, setService_setService] at hb
      exact hne (by simpa [hp, portUseCount] using (h.free_iff p).1 hb)

/-- From a state whose counts balance exactly the safe steps keep the balance. -/
theorem step_iff (h : Counted s) (e : Event n) : Balanced (s.step e) ↔ s.countSafe e := by
  cases e with
  | addService p => simpa [step, countSafe] using (h.add p).toBalanced
  | use e => simpa [step, countSafe] using h.use_iff e
  | openService p => simpa [step, countSafe] using h.use_iff (.service p)
  | release e => exact h.release_iff e
  | openRejected p => exact h.release_iff (.service p)
  | closeServiceComplete p freed => simpa [step, countSafe] using h.close_iff p freed
  | freeService p => simpa [step, countSafe] using h.free_iff p

theorem step (h : Counted s) (e : Event n) (hsafe : s.countSafe e) : Counted (s.step e) := by
  cases e with
  | addService p => exact h.add p
  | use e => exact h.use (by simpa [countSafe] using hsafe)
  | openService p => exact h.use (by simpa [countSafe] using hsafe)
  | release e => exact h.release hsafe
  | openRejected p => exact h.release hsafe
  | closeServiceComplete p freed => exact h.close (by simpa [countSafe] using hsafe) freed
  | freeService p => exact h.free (by simpa [countSafe] using hsafe)

theorem init : Counted ({} : ArmState n) where
  toBalanced := .of_counts (by simp [portUseCount]) nofun rfl
  peerNonneg := Int.le_refl 0
  nonneg _ := Int.le_refl 0

end Counted

/-- The counts balance in every state of a run exactly if all its steps are safe. -/
theorem balanced_iff (es : List (Event n)) :
    (∀ k, Balanced (({} : ArmState n).run (es.take k))) ↔
      Machine.Along step (countSafe · ·) ({} : ArmState n) es :=
  Machine.along_iff_forall_take (I := Counted) (fun _ => Counted.toBalanced)
    (fun _ e h => h.step_iff e) (fun _ e h => h.step e) .init es

/-- The counts balance in every state of every run. -/
def AlwaysBalanced (n : Nat) : Prop := ∀ es : List (Event n), Balanced (({} : ArmState n).run es)

/-- A service is opened, and its one use is released. -/
theorem not_alwaysBalanced : ¬ AlwaysBalanced 1 := by
  intro h
  have := (h [.addService 0, .openService 0, .release (.service 0)]).service 0 ⟨1, 1, 1⟩
    (by decide +kernel)
  simp at this

end ArmState
end UseCount
