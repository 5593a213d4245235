-- SUMMARY: The keepalive thread and the acknowledgements of remote uses, over sends that may fail.
import Ampi.Linux.Completion
import Ampi.Parties

/-!
# Keep-alive

A REMOTE_USE message is counted in `ka_use_count` until the keepalive thread takes it up,
then in `ka_use_ack_count` until a call of `vchiq_use_internal` takes it from there and
acknowledges it with REMOTE_USE_ACTIVE. Any caller may send the acknowledgements of any use.

One step is what happens between two points at which another thread may run: the exchange of
a counter, a turn of a loop, a send. A call may fail before it comes to the acknowledgements,
and `queue_message` may fail. The counters and the variables have 32 bits; a loop
`while (uc--)` has as many turns as the value of `uc` without its sign.
-/

namespace KeepAlive

/-- Where a call of `vchiq_use_internal` stands. -/
inductive CallPc where
  | idle
  /-- Before the acknowledgements. -/
  | entered
  /-- In the loop, with `ack_cnt`. -/
  | acking (ackCnt : BitVec 32)
  deriving DecidableEq, Repr

/-- The acknowledgements that a call holds. -/
def CallPc.held : CallPc → Nat
  | .acking ackCnt => ackCnt.toNat
  | _ => 0

/-- Where `vchiq_keepalive_thread_func` stands in its loop. -/
inductive ThreadPc where
  /-- In `wait_for_completion_interruptible (&arm_state->ka_evt)`. -/
  | wait
  | takeRelease
  | takeUse (rc : BitVec 32)
  /-- `while (uc--)`. -/
  | issuing (uc rc : BitVec 32)
  /-- In `vchiq_use_service`. -/
  | calling (uc rc : BitVec 32)
  /-- `while (rc--)`. -/
  | releasing (rc : BitVec 32)
  deriving DecidableEq, Repr

namespace ThreadPc

/-- The uses that the thread has read and not yet issued. -/
def uses : ThreadPc → Nat
  | .issuing uc _ | .calling uc _ => uc.toNat
  | _ => 0

/-- The releases that the thread has read and not yet issued. -/
def releases : ThreadPc → Nat
  | .takeUse rc | .issuing _ rc | .calling _ rc | .releasing rc => rc.toNat
  | _ => 0

/-- The thread reads the releases first, so each of their uses has been read by the time
that it releases. -/
def Ordered (pc : ThreadPc) (usesIssued releasesIssued kaUseCount : Nat) : Prop :=
  match pc with
  | .wait | .takeRelease => releasesIssued ≤ usesIssued
  | .takeUse rc => releasesIssued ≤ usesIssued ∧ releasesIssued + rc.toNat ≤ usesIssued + kaUseCount
  | .issuing uc rc | .calling uc rc =>
    releasesIssued ≤ usesIssued ∧ releasesIssued + rc.toNat ≤ usesIssued + uc.toNat
  | .releasing rc => releasesIssued + rc.toNat ≤ usesIssued

theorem Ordered.le {pc : ThreadPc} {usesIssued releasesIssued kaUseCount : Nat}
    (h : pc.Ordered usesIssued releasesIssued kaUseCount) : releasesIssued ≤ usesIssued := by
  cases pc with
  | wait | takeRelease => exact h
  | takeUse | issuing | calling => exact h.1
  | releasing rc => exact Nat.le_of_add_right_le h

/-- More uses arrive. -/
theorem Ordered.mono {pc : ThreadPc} {usesIssued releasesIssued kaUseCount : Nat}
    (h : pc.Ordered usesIssued releasesIssued kaUseCount) :
    pc.Ordered usesIssued releasesIssued (kaUseCount + 1) := by
  cases pc with
  | takeUse rc => exact ⟨h.1, h.2.trans (Nat.le_succ _)⟩
  | _ => exact h

end ThreadPc

/-- The counters, the threads, and what has gone over the transport so far. The call with
index `none` is the one of the keepalive thread. -/
structure State (κ : Type*) where
  kaUseCount : BitVec 32 := 0#32
  kaReleaseCount : BitVec 32 := 0#32
  kaUseAckCount : BitVec 32 := 0#32
  kaEvt : Completion := {}
  thread : ThreadPc := .wait
  call : Option κ → CallPc := fun _ => .idle
  usesReceived : Nat := 0
  releasesReceived : Nat := 0
  activesSent : Nat := 0
  usesIssued : Nat := 0
  releasesIssued : Nat := 0

inductive Event (κ : Type*) where
  | remoteUse
  | remoteRelease
  | thread
  /-- A caller starts `vchiq_use_internal`. -/
  | use (k : κ)
  /-- A call goes on, and what it calls succeeds or not. -/
  | call (k : Option κ) (success : Bool)

variable {κ : Type*} [DecidableEq κ]

namespace State

def setCall (s : State κ) (k : Option κ) (pc : CallPc) : State κ :=
  { s with call := Function.update s.call k pc }

/-- The turns of `vchiq_keepalive_thread_func`. -/
def threadStep (s : State κ) : State κ :=
  match s.thread with
  | .wait =>
    match s.kaEvt.waitForCompletion with
    | (_, .yields) => s
    | (kaEvt, .returned _) => { s with kaEvt, thread := .takeRelease }
  | .takeRelease => { s with kaReleaseCount := 0#32, thread := .takeUse s.kaReleaseCount }
  | .takeUse rc => { s with kaUseCount := 0#32, thread := .issuing s.kaUseCount rc }
  | .issuing uc rc =>
    if uc = 0#32 then { s with thread := .releasing rc }
    else
      { s with
        kaUseAckCount := s.kaUseAckCount + 1#32
        usesIssued := s.usesIssued + 1
        thread := .calling (uc - 1#32) rc }.setCall none .entered
  | .calling uc rc => if s.call none = .idle then { s with thread := .issuing uc rc } else s
  | .releasing rc =>
    if rc = 0#32 then { s with thread := .wait }
    else { s with releasesIssued := s.releasesIssued + 1, thread := .releasing (rc - 1#32) }

/-- The rest of `vchiq_use_internal`, from its waits on. -/
def callStep (s : State κ) (k : Option κ) (success : Bool) : State κ :=
  match s.call k with
  | .idle => s
  | .entered =>
    if success then { s with kaUseAckCount := 0#32 }.setCall k (.acking s.kaUseAckCount)
    else s.setCall k .idle
  | .acking ackCnt =>
    if ackCnt = 0#32 then s.setCall k .idle
    else if success then
      { s with activesSent := s.activesSent + 1 }.setCall k (.acking (ackCnt - 1#32))
    else { s with kaUseAckCount := s.kaUseAckCount + ackCnt }.setCall k .idle

def step (s : State κ) : Event κ → State κ
  | .remoteUse =>
    { s with
      kaUseCount := s.kaUseCount + 1#32
      kaEvt := s.kaEvt.complete
      usesReceived := s.usesReceived + 1 }
  | .remoteRelease =>
    { s with
      kaReleaseCount := s.kaReleaseCount + 1#32
      kaEvt := s.kaEvt.complete
      releasesReceived := s.releasesReceived + 1 }
  | .thread => s.threadStep
  | .use k => if s.call (some k) = .idle then s.setCall (some k) .entered else s
  | .call k success => s.callStep k success

abbrev run : State κ → List (Event κ) → State κ := Machine.run step

/-- A release comes after its use. -/
def preceded (s : State κ) : Event κ → Bool
  | .remoteRelease => s.releasesReceived < s.usesReceived
  | _ => true

/-- `ka_use_count` and `ka_use_ack_count` do not come to more than `INT_MAX` in this step. -/
def fits (s : State κ) : Event κ → Bool
  | .remoteUse => s.kaUseCount.toNat + 1 < 2 ^ 31
  | .thread =>
    match s.thread with
    | .issuing uc _ => uc ≠ 0#32 → s.kaUseAckCount.toNat + 1 < 2 ^ 31
    | _ => true
  | .call k success =>
    match s.call k with
    | .acking ackCnt => success = false → s.kaUseAckCount.toNat + ackCnt.toNat < 2 ^ 31
    | _ => true
  | _ => true

variable [Fintype κ]

/-- The acknowledgements that running calls hold. -/
def held (s : State κ) : Nat := Parties.total CallPc.held s.call

/-- Every use received is acknowledged, to be acknowledged or to be taken up, and the thread
has not released more than it has used. -/
structure Accounted (s : State κ) : Prop where
  uses : s.activesSent + s.kaUseAckCount.toInt + s.held + (s.kaUseCount.toInt + s.thread.uses) =
    s.usesReceived
  releases : s.releasesIssued ≤ s.usesIssued

/-- What holds in every state. -/
structure Inv (s : State κ) : Prop where
  uses : s.activesSent + s.kaUseAckCount.toNat + s.held + (s.kaUseCount.toNat + s.thread.uses) =
    s.usesReceived
  issued : s.usesIssued + s.thread.uses + s.kaUseCount.toNat = s.usesReceived
  released : s.releasesIssued + s.thread.releases + s.kaReleaseCount.toNat ≤ s.releasesReceived
  preceded : s.releasesReceived ≤ s.usesReceived
  order : s.thread.Ordered s.usesIssued s.releasesIssued s.kaUseCount.toNat
  own : (∀ uc rc, s.thread ≠ .calling uc rc) → s.call none = .idle
  useFits : s.kaUseCount.toNat < 2 ^ 31
  ackFits : s.kaUseAckCount.toNat < 2 ^ 31

theorem toNat_add_of_fits {c d : BitVec 32} (h : c.toNat + d.toNat < 2 ^ 31) :
    (c + d).toNat = c.toNat + d.toNat := by
  rw [BitVec.toNat_add, Nat.mod_eq_of_lt (by omega)]

theorem toNat_add_one_le (c : BitVec 32) : (c + 1#32).toNat ≤ c.toNat + 1 := by
  rw [BitVec.toNat_add]
  exact Nat.mod_le _ _

theorem toNat_sub_one {c : BitVec 32} (h : c ≠ 0#32) : (c - 1#32).toNat + 1 = c.toNat := by
  have hlt := c.isLt
  have hpos : c.toNat ≠ 0 := fun h0 => h (BitVec.eq_of_toNat_eq h0)
  simp only [BitVec.toNat_sub, BitVec.toNat_ofNat]
  omega

theorem toInt_eq {c : BitVec 32} (h : c.toNat < 2 ^ 31) : c.toInt = c.toNat :=
  BitVec.toInt_eq_toNat_of_lt (by omega)

namespace Inv

variable {s : State κ}

omit [Fintype κ] in
theorem call_setCall_of_ne {k k' : Option κ} (pc : CallPc) (h : k' ≠ k) :
    (s.setCall k pc).call k' = s.call k' :=
  Function.update_of_ne h ..

/-- A call moves. -/
theorem held_setCall (s : State κ) (k : Option κ) (pc : CallPc) :
    (s.setCall k pc).held + (s.call k).held = s.held + pc.held :=
  Parties.total_update CallPc.held s.call k pc

theorem threadStep (h : Inv s) (hfits : s.fits .thread) : Inv s.threadStep := by
  obtain ⟨huses, hissued, hreleased, hpreceded, horder, hown, huseFits, hackFits⟩ := id h
  have hzero : (0#32).toNat = 0 := rfl
  unfold State.threadStep
  cases hs : s.thread with
  | wait =>
    dsimp only
    split
    · exact h
    · rw [hs] at huses hissued hreleased horder
      exact ⟨huses, hissued, hreleased, hpreceded, horder, fun _ => hown (by simp [hs]), huseFits,
        hackFits⟩
  | takeRelease =>
    rw [hs] at huses hissued hreleased horder
    simp only [ThreadPc.uses, ThreadPc.releases] at huses hissued hreleased
    refine ⟨huses, hissued, ?_, hpreceded, ⟨horder, ?_⟩, fun _ => hown (by simp [hs]), huseFits,
      hackFits⟩
    · simp only [ThreadPc.releases]
      omega
    · -- every release received has its use, issued or still in the counter
      change s.releasesIssued + s.kaReleaseCount.toNat ≤ s.usesIssued + s.kaUseCount.toNat
      omega
  | takeUse rc =>
    rw [hs] at huses hissued hreleased horder
    simp only [ThreadPc.uses, ThreadPc.releases] at huses hissued hreleased
    refine ⟨?_, ?_, hreleased, hpreceded, horder, fun _ => hown (by simp [hs]), by simp, hackFits⟩
    · change s.activesSent + s.kaUseAckCount.toNat + s.held + (0 + s.kaUseCount.toNat) =
        s.usesReceived
      omega
    · change s.usesIssued + s.kaUseCount.toNat + 0 = s.usesReceived
      omega
  | issuing uc rc =>
    rw [hs] at huses hissued hreleased horder
    obtain ⟨hle, hrest⟩ := horder
    simp only [ThreadPc.uses, ThreadPc.releases] at huses hissued hreleased
    have hidle : s.call none = .idle := hown (by simp [hs])
    dsimp only
    split
    next huc =>
      rw [huc] at huses hissued hrest
      refine ⟨?_, ?_, hreleased, hpreceded, ?_, fun _ => hidle, huseFits, hackFits⟩
      · change s.activesSent + s.kaUseAckCount.toNat + s.held + (s.kaUseCount.toNat + 0) =
          s.usesReceived
        omega
      · change s.usesIssued + 0 + s.kaUseCount.toNat = s.usesReceived
        omega
      · change s.releasesIssued + rc.toNat ≤ s.usesIssued
        omega
    next huc =>
      have hheld := held_setCall s none .entered
      simp only [hidle, CallPc.held] at hheld
      simp only [fits, hs, decide_eq_true_eq] at hfits
      have hack : (s.kaUseAckCount + 1#32).toNat = s.kaUseAckCount.toNat + 1 :=
        toNat_add_of_fits (hfits huc)
      have hpred := toNat_sub_one huc
      refine ⟨?_, ?_, hreleased, hpreceded, ⟨?_, ?_⟩, fun hno => absurd rfl (hno (uc - 1#32) rc),
        huseFits, ?_⟩
      · change s.activesSent + (s.kaUseAckCount + 1#32).toNat + (s.setCall none .entered).held +
          (s.kaUseCount.toNat + (uc - 1#32).toNat) = s.usesReceived
        omega
      · change s.usesIssued + 1 + (uc - 1#32).toNat + s.kaUseCount.toNat = s.usesReceived
        omega
      · exact hle.trans (Nat.le_succ _)
      · change s.releasesIssued + rc.toNat ≤ s.usesIssued + 1 + (uc - 1#32).toNat
        omega
      · change (s.kaUseAckCount + 1#32).toNat < 2 ^ 31
        exact hack ▸ hfits huc
  | calling uc rc =>
    dsimp only
    split
    · next hidle =>
      rw [hs] at huses hissued hreleased horder
      exact ⟨huses, hissued, hreleased, hpreceded, horder, fun _ => hidle, huseFits, hackFits⟩
    · exact h
  | releasing rc =>
    rw [hs] at huses hissued hreleased horder
    simp only [ThreadPc.uses, ThreadPc.releases] at huses hissued hreleased
    change s.releasesIssued + rc.toNat ≤ s.usesIssued at horder
    have hidle : s.call none = .idle := hown (by simp [hs])
    dsimp only
    split
    · refine ⟨huses, hissued, ?_, hpreceded, ?_, fun _ => hidle, huseFits, hackFits⟩
      · change s.releasesIssued + 0 + s.kaReleaseCount.toNat ≤ s.releasesReceived
        omega
      · change s.releasesIssued ≤ s.usesIssued
        omega
    next hrc =>
      have hpred := toNat_sub_one hrc
      refine ⟨huses, hissued, ?_, hpreceded, ?_, fun _ => hidle, huseFits, hackFits⟩
      · change s.releasesIssued + 1 + (rc - 1#32).toNat + s.kaReleaseCount.toNat ≤
          s.releasesReceived
        omega
      · change s.releasesIssued + 1 + (rc - 1#32).toNat ≤ s.usesIssued
        omega

omit [DecidableEq κ] in
/-- A step that leaves the thread and its counters alone. -/
theorem acks (h : Inv s) {s' : State κ} (hthread : s'.thread = s.thread)
    (huse : s'.kaUseCount = s.kaUseCount) (hrelease : s'.kaReleaseCount = s.kaReleaseCount)
    (hreceived : s'.usesReceived = s.usesReceived)
    (hreleased : s'.releasesReceived = s.releasesReceived)
    (hissued : s'.usesIssued = s.usesIssued) (hreleases : s'.releasesIssued = s.releasesIssued)
    (hsum : s'.activesSent + s'.kaUseAckCount.toNat + s'.held =
      s.activesSent + s.kaUseAckCount.toNat + s.held)
    (hown : s.call none = .idle → s'.call none = .idle)
    (hfits : s'.kaUseAckCount.toNat < 2 ^ 31) : Inv s' := by
  refine ⟨?_, ?_, ?_, ?_, ?_, ?_, huse ▸ h.useFits, hfits⟩
  · rw [hsum, hthread, huse, hreceived]
    exact h.uses
  · rw [hthread, huse, hreceived, hissued]
    exact h.issued
  · rw [hthread, hrelease, hreleased, hreleases]
    exact h.released
  · rw [hreceived, hreleased]
    exact h.preceded
  · rw [hthread, hreleases, hissued, huse]
    exact h.order
  · rw [hthread]
    exact fun hno => hown (h.own hno)

theorem callStep (h : Inv s) {k : Option κ} {success : Bool} (hfits : s.fits (.call k success)) :
    Inv (s.callStep k success) := by
  have hheld (pc : CallPc) := held_setCall s k pc
  have hown {pc : CallPc} (hk : s.call k ≠ .idle) (hidle : s.call none = .idle) :
      (s.setCall k pc).call none = .idle := by
    rwa [call_setCall_of_ne]
    rintro rfl
    exact hk hidle
  unfold State.callStep
  cases hs : s.call k with
  | idle => exact h
  | entered =>
    simp only [hs, CallPc.held] at hheld
    dsimp only
    split
    · refine h.acks rfl rfl rfl rfl rfl rfl rfl ?_ (hown (by simp [hs])) (Nat.two_pow_pos 31)
      have hnew : (s.setCall k (.acking s.kaUseAckCount)).held + 0 =
        s.held + s.kaUseAckCount.toNat := hheld _
      change s.activesSent + 0 + (s.setCall k (.acking s.kaUseAckCount)).held = _
      omega
    · refine h.acks rfl rfl rfl rfl rfl rfl rfl ?_ (hown (by simp [hs])) h.ackFits
      have hnew : (s.setCall k .idle).held + 0 = s.held + 0 := hheld _
      change s.activesSent + s.kaUseAckCount.toNat + (s.setCall k .idle).held = _
      omega
  | acking ackCnt =>
    simp only [hs, CallPc.held] at hheld
    simp only [fits, hs, decide_eq_true_eq] at hfits
    have hidle : (s.setCall k .idle).held + ackCnt.toNat = s.held + 0 := hheld _
    have hnext : (s.setCall k (.acking (ackCnt - 1#32))).held + ackCnt.toNat =
      s.held + (ackCnt - 1#32).toNat := hheld _
    dsimp only
    split
    next hzero =>
      rw [hzero] at hidle
      refine h.acks rfl rfl rfl rfl rfl rfl rfl ?_ (hown (by simp [hs])) h.ackFits
      change s.activesSent + s.kaUseAckCount.toNat + (s.setCall k .idle).held = _
      exact congrArg (_ + ·) hidle
    next hne =>
      have hpred := toNat_sub_one hne
      split
      · refine h.acks rfl rfl rfl rfl rfl rfl rfl ?_ (hown (by simp [hs])) h.ackFits
        change s.activesSent + 1 + s.kaUseAckCount.toNat +
          (s.setCall k (.acking (ackCnt - 1#32))).held = _
        omega
      next hfail =>
        -- what has not been sent goes back
        have hback : (s.kaUseAckCount + ackCnt).toNat = s.kaUseAckCount.toNat + ackCnt.toNat :=
          toNat_add_of_fits (hfits (by simpa using hfail))
        refine h.acks rfl rfl rfl rfl rfl rfl rfl ?_ (hown (by simp [hs])) ?_
        · change s.activesSent + (s.kaUseAckCount + ackCnt).toNat + (s.setCall k .idle).held = _
          omega
        · change (s.kaUseAckCount + ackCnt).toNat < 2 ^ 31
          exact hback ▸ hfits (by simpa using hfail)

theorem step (h : Inv s) {e : Event κ} (he : s.preceded e) (hfits : s.fits e) :
    Inv (s.step e) := by
  cases e with
  | remoteUse =>
    obtain ⟨huses, hissued, hreleased, hpreceded, horder, hown, huseFits, hackFits⟩ := h
    have hfits : s.kaUseCount.toNat + 1 < 2 ^ 31 := by simpa [fits] using hfits
    have huse : (s.kaUseCount + 1#32).toNat = s.kaUseCount.toNat + 1 := toNat_add_of_fits hfits
    refine ⟨?_, ?_, hreleased, ?_, ?_, hown, ?_, hackFits⟩
    · change s.activesSent + s.kaUseAckCount.toNat + s.held +
        ((s.kaUseCount + 1#32).toNat + s.thread.uses) = s.usesReceived + 1
      omega
    · change s.usesIssued + s.thread.uses + (s.kaUseCount + 1#32).toNat = s.usesReceived + 1
      omega
    · change s.releasesReceived ≤ s.usesReceived + 1
      omega
    · change s.thread.Ordered s.usesIssued s.releasesIssued (s.kaUseCount + 1#32).toNat
      exact huse ▸ horder.mono
    · change (s.kaUseCount + 1#32).toNat < 2 ^ 31
      exact huse ▸ hfits
  | remoteRelease =>
    obtain ⟨huses, hissued, hreleased, hpreceded, horder, hown, huseFits, hackFits⟩ := h
    have hle := toNat_add_one_le s.kaReleaseCount
    have he : s.releasesReceived < s.usesReceived := by simpa [State.preceded] using he
    refine ⟨huses, hissued, ?_, he, horder, hown, huseFits, hackFits⟩
    change s.releasesIssued + s.thread.releases + (s.kaReleaseCount + 1#32).toNat ≤
      s.releasesReceived + 1
    omega
  | thread => exact h.threadStep hfits
  | use k =>
    unfold State.step
    dsimp only
    split
    · next hidle =>
      have hheld := held_setCall s (some k) .entered
      simp only [hidle, CallPc.held] at hheld
      refine h.acks rfl rfl rfl rfl rfl rfl rfl ?_ (fun hnone => ?_) h.ackFits
      · change s.activesSent + s.kaUseAckCount.toNat + (s.setCall (some k) .entered).held = _
        omega
      · rwa [call_setCall_of_ne _ (by simp)]
    · exact h
  | call k success => exact h.callStep hfits

omit [DecidableEq κ] in
theorem init : Inv ({} : State κ) := by
  refine ⟨?_, rfl, le_rfl, le_rfl, le_rfl, fun _ => rfl, Nat.two_pow_pos 31, Nat.two_pow_pos 31⟩
  change 0 + 0 + Parties.total CallPc.held (fun _ : Option κ => .idle) + (0 + 0) = 0
  simp [Parties.total, CallPc.held]

omit [DecidableEq κ] in
theorem accounted (h : Inv s) : s.Accounted := by
  refine ⟨?_, h.order.le⟩
  rw [toInt_eq h.useFits, toInt_eq h.ackFits]
  exact_mod_cast h.uses

end Inv

/-- Acknowledgements are conserved as long as the counters of uses do not overflow, and
releases stay behind uses. -/
theorem run_accounted (es : List (Event κ))
    (hes : Machine.Along State.step (fun s e => s.preceded e ∧ s.fits e) ({} : State κ) es) :
    (State.run {} es).Accounted := by
  have hinv : Inv (State.run {} es) :=
    hes.invariant (I := Inv) (fun _ _ hs he => hs.step he.1 he.2) .init
  exact hinv.accounted

/-- A use and its release arrive; the acknowledgement fails and is sent by another caller. -/
theorem run_accounted_resent :
    (State.run {} [.remoteUse, .remoteRelease, .thread, .thread, .thread, .thread,
      .call none true, .call none false, .use (), .call (some ()) true, .call (some ()) true,
      .thread, .thread, .thread] : State Unit).Accounted :=
  run_accounted _ (by decide +kernel)

omit [Fintype κ] in
/-- The thread is not scheduled while uses arrive. -/
theorem run_remoteUse_replicate (n : Nat) :
    State.run {} (.replicate n .remoteUse) =
      ({ kaUseCount := .ofNat 32 n, kaEvt := ⟨.ofNat 32 n⟩, usesReceived := n } : State κ) := by
  induction n with
  | zero => rfl
  | succ n ih =>
    have hlast : State.run {} (.replicate (n + 1) .remoteUse) =
        (State.run {} (.replicate n .remoteUse) : State κ).step .remoteUse := by
      rw [List.replicate_succ']
      exact Machine.run_append ..
    rw [hlast, ih]
    simp [State.step, Completion.complete, BitVec.ofNat_add]

/-- `2^31` uses arrive before the thread takes up the first one. -/
theorem not_run_accounted :
    ¬ ∀ es : List (Event Unit), Machine.Along State.step (preceded · ·) ({} : State Unit) es →
      (State.run {} es).Accounted := by
  intro h
  have huses := (h (.replicate (2 ^ 31) .remoteUse) ?_).uses
  · rw [run_remoteUse_replicate] at huses
    revert huses
    decide +kernel
  · have hall : ∀ e ∈ List.replicate (2 ^ 31) (Event.remoteUse (κ := Unit)), e = .remoteUse :=
      fun _ he => List.eq_of_mem_replicate he
    exact (Machine.along_of_forall_mem State.step hall).strengthen (I := fun _ => True)
      (fun _ _ _ he => ⟨by rw [he]; rfl, trivial⟩) trivial

end State

end KeepAlive
