-- SUMMARY: The synchronous channel is a place for one message, exactly as long as no poll comes within a wait.
import Ampi.Vchiq.Sync

/-!
# Runs of the synchronous channel

Who may touch the slot is passed on with the two events. A poll within a wait gives a permit
that is left over, and the next wait returns without having been signalled.
-/

/-! ## An event as a permit -/

namespace RemoteEvent

variable {r : RemoteEvent} {token : Bool} {w : Wait} {pc : Option Wait}

/-- What an event is, if it stands for `token` permits, while a thread waits for it. -/
def Ok (r : RemoteEvent) (token : Bool) : Option Wait → Prop
  | none | some .testFired | some .arm => r.armed = false ∧ r.fired.toNat + r.count = token.toNat
  | some .retestFired => r.armed = true ∧ r.fired.toNat + r.count = token.toNat
  | some .down =>
    r.armed = true ∧ r.fired.toNat + r.count = token.toNat ∨ token = true ∧ r = ⟨true, false, 1⟩
  | some .readCount => token = true ∧ r.count = 1 ∧ r.armed = !r.fired
  | some (.writeCount count) => token = true ∧ count = 1 ∧ r.count = 1 ∧ r.armed = !r.fired
  | some .disarm => token = true ∧ r.count = 0
  | some .clearFired => token = true ∧ r.count = 0 ∧ r.armed = false

/-- The flag or the count is the whole of the permit. -/
theorem token_of_fired {count : Nat} (h : true.toNat + count = token.toNat) :
    token = true ∧ count = 0 := by
  have hone : true.toNat = 1 := rfl
  have hle := token.toNat_le
  exact ⟨Bool.toNat_eq_one.1 (by omega), by omega⟩

theorem token_of_count {fired : Bool} {count : Nat} (h : fired.toNat + count = token.toNat)
    (hcount : count ≠ 0) : token = true ∧ count = 1 ∧ fired = false := by
  have hle := token.toNat_le
  exact ⟨Bool.toNat_eq_one.1 (by omega), by omega, Bool.toNat_eq_zero.1 (by omega)⟩

/-- The wait goes on with the same permit. -/
theorem Ok.wait (h : r.Ok token (some w)) {w' : Wait} (hw : (r.wait w).2 = some w') :
    (r.wait w).1.Ok token (some w') := by
  obtain ⟨fired, armed, count⟩ := r
  cases w with
  | testFired =>
    obtain rfl := Option.some.inj hw
    obtain ⟨harmed, hsum⟩ := h
    cases fired with
    | false => exact ⟨harmed, hsum⟩
    | true =>
      obtain ⟨htoken, hcount⟩ := token_of_fired hsum
      exact ⟨htoken, hcount, harmed⟩
  | arm =>
    obtain rfl := Option.some.inj hw
    exact ⟨rfl, h.2⟩
  | retestFired =>
    obtain rfl := Option.some.inj hw
    cases fired with
    | false => exact .inl h
    | true => exact token_of_fired h.2
  | down =>
    obtain rfl := Option.some.inj hw
    dsimp only [RemoteEvent.wait]
    split
    · exact h
    next hcount =>
      rcases h with ⟨rfl, hsum⟩ | ⟨htoken, heq⟩
      · obtain ⟨htoken, hone, rfl⟩ := token_of_count hsum hcount
        exact ⟨htoken, hone, rfl⟩
      · cases heq
        exact ⟨htoken, rfl, rfl⟩
  | readCount =>
    obtain rfl := Option.some.inj hw
    obtain ⟨htoken, hcount, harmed⟩ := h
    exact ⟨htoken, hcount, hcount, harmed⟩
  | writeCount c =>
    obtain rfl := Option.some.inj hw
    obtain ⟨htoken, rfl, -⟩ := h
    exact ⟨htoken, rfl⟩
  | disarm =>
    obtain rfl := Option.some.inj hw
    exact ⟨h.1, h.2, rfl⟩
  | clearFired => cases hw

/-- A wait that is over has used the permit up. -/
theorem Ok.wait_none (h : r.Ok token (some w)) (hw : (r.wait w).2 = none) :
    token = true ∧ (r.wait w).1.Ok false none := by
  cases w with
  | clearFired => exact ⟨h.1, h.2.2, by simp [RemoteEvent.wait, h.2.1]⟩
  | _ => simp [RemoteEvent.wait] at hw

theorem Ok.poll (h : r.Ok token pc) (ht : r.Timely pc) : r.poll.Ok token pc := by
  obtain ⟨fired, armed, count⟩ := r
  cases fired with
  | false => simpa [RemoteEvent.poll] using h
  | true =>
    cases armed with
    | false => simpa [RemoteEvent.poll] using h
    | true =>
      obtain rfl : pc = some .down := ht rfl rfl
      cases token <;> simp_all [Ok, RemoteEvent.poll, signalLocal]

theorem Ok.signal (h : r.Ok false pc) : r.signal.Ok true pc := by
  obtain ⟨fired, armed, count⟩ := r
  rcases pc with _ | w
  · simp_all [Ok, RemoteEvent.signal]
  · cases w <;> simp_all [Ok, RemoteEvent.signal]

/-- What an event looks like that a poll has come too early or too late for. -/
theorem Ok.of_not_timely (h : r.Ok token pc) (ht : ¬ r.Timely pc) :
    token = true ∧ r = ⟨true, true, 0⟩ ∧ (pc = some .retestFired ∨ pc = some .disarm) := by
  obtain ⟨fired, armed, count⟩ := r
  have hfired : fired = true := by
    by_contra hfalse
    exact ht fun hf => absurd hf hfalse
  have harmed : armed = true := by
    by_contra hfalse
    exact ht fun _ ha => absurd ha hfalse
  have hdown : pc ≠ some .down := fun hpc => ht fun _ _ => hpc
  subst hfired harmed
  rcases pc with _ | w
  · simp [Ok] at h
  · cases w with
    | retestFired => cases token <;> simp_all [Ok]
    | disarm => simp_all [Ok]
    | down => exact absurd rfl hdown
    | _ => simp_all [Ok]

end RemoteEvent

namespace Sync

open Slots

/-! ## Who may touch the slot -/

/-- Past its wait. -/
def Sender.writes : Sender → Bool
  | .idle | .wait .. => false
  | _ => true

def Receiver.has : Receiver → Bool
  | .wait _ => false
  | _ => true

def Releaser.has : Releaser → Bool
  | .idle => false
  | _ => true

/-- How much of its message a thread has written. -/
def Sender.Written (slot : Packet) : Sender → Prop
  | .writeSize m => slot.data = m.data
  | .writeMsgid m => slot.data = m.data ∧ slot.size = m.size
  | .signal m => slot = m
  | _ => True

/-- Steps of the threads alone are clean. -/
def Event.IsThread : Event → Bool
  | .send _ | .sender | .receiver => true
  | _ => false

namespace State

/-- What has been sent and the sync thread has not yet read, if the trigger stands for
`trigger` permits. -/
def pending (s : State) (trigger : Bool) : List Packet :=
  if trigger ∨ s.receiver = .readHeader then [s.slot] else []

/-- The events stand for `release` and `trigger` permits. -/
structure Invariant (s : State) (release trigger : Bool) : Prop where
  syncRelease : s.syncRelease.Ok release s.sender.waiting
  syncTrigger : s.syncTrigger.Ok trigger s.receiver.waiting
  /-- The slot is in one place. -/
  once : release.toNat + s.sender.writes.toNat + trigger.toNat + s.receiver.has.toNat +
    s.holder.has.toNat + s.closer.has.toNat + s.dropped = 1
  sent : s.sent = s.received ++ s.pending trigger
  held : s.holder = .holds → s.received.getLast? = some s.slot
  written : s.sender.Written s.slot

variable {s : State} {release trigger : Bool}

namespace Invariant

theorem init : Invariant {} true false := by
  refine ⟨⟨rfl, rfl⟩, ⟨rfl, rfl⟩, rfl, rfl, ?_, trivial⟩
  intro h
  cases h

theorem intact (h : s.Invariant release trigger) : s.Intact := by
  refine ⟨h.sent ▸ List.prefix_append _ _, ?_, h.held⟩
  rw [h.sent, List.length_append]
  have hle : (s.pending trigger).length ≤ 1 := by
    unfold pending
    split <;> simp
  omega

/-- While the slot is somewhere else, nobody waits for its contents. -/
theorem pending_eq_nil (ht : trigger = false) (hr : s.receiver ≠ .readHeader) :
    s.pending trigger = [] := by simp [pending, ht, hr]

theorem send (h : s.Invariant release trigger) (hidle : s.sender = .idle) (m : Packet) :
    Invariant { s with sender := .wait .testFired m } release trigger where
  syncRelease := by simpa [hidle, Sender.waiting, RemoteEvent.Ok] using h.syncRelease
  syncTrigger := h.syncTrigger
  once := by simpa [hidle, Sender.writes] using h.once
  sent := h.sent
  held := h.held
  written := trivial

/-- While a thread writes, the slot is nowhere else. -/
theorem of_writes (h : s.Invariant release trigger) (hw : s.sender.writes = true) :
    release = false ∧ trigger = false ∧ s.receiver.has = false ∧ s.holder.has = false ∧
      s.closer.has = false ∧ s.dropped = 0 := by
  have honce := h.once
  rw [hw, Bool.toNat_true] at honce
  exact ⟨Bool.toNat_eq_zero.1 (by omega), Bool.toNat_eq_zero.1 (by omega),
    Bool.toNat_eq_zero.1 (by omega), Bool.toNat_eq_zero.1 (by omega),
    Bool.toNat_eq_zero.1 (by omega), by omega⟩

/-- While the receiver's side has the message, nothing is signalled and no thread writes. -/
theorem of_has (h : s.Invariant release trigger)
    (hhas : s.receiver.has = true ∨ s.holder.has = true ∨ s.closer.has = true) :
    release = false ∧ trigger = false ∧ s.sender.writes = false ∧ s.dropped = 0 := by
  have honce := h.once
  have hpos : 1 ≤ s.receiver.has.toNat + s.holder.has.toNat + s.closer.has.toNat := by
    rcases hhas with hhas | hhas | hhas <;> rw [hhas, Bool.toNat_true] <;> omega
  exact ⟨Bool.toNat_eq_zero.1 (by omega), Bool.toNat_eq_zero.1 (by omega),
    Bool.toNat_eq_zero.1 (by omega), by omega⟩

/-- A thread writes on. -/
theorem write (h : s.Invariant release trigger) (hw : s.sender.writes = true)
    {slot : Packet} {sender : Sender} (hwaiting : s.sender.waiting = none)
    (hsender : sender.waiting = none) (hw' : sender.writes = true)
    (hwritten : sender.Written slot) :
    Invariant { s with slot, sender } release trigger := by
  obtain ⟨-, rfl, hreceiver, hholder, -⟩ := h.of_writes hw
  have hread : s.receiver ≠ .readHeader := by
    intro hr
    rw [hr] at hreceiver
    cases hreceiver
  refine ⟨?_, h.syncTrigger, ?_, ?_, ?_, hwritten⟩
  · rw [hsender, ← hwaiting]
    exact h.syncRelease
  · rw [hw', ← hw]
    exact h.once
  · have hsent := h.sent
    rw [pending_eq_nil rfl hread] at hsent
    rw [pending_eq_nil rfl (by exact hread)]
    exact hsent
  · intro hholds
    have hholds' : s.holder = .holds := hholds
    rw [hholds'] at hholder
    cases hholder

theorem senderStep (h : s.Invariant release trigger) :
    ∃ release trigger, s.senderStep.Invariant release trigger := by
  unfold State.senderStep
  cases hs : s.sender with
  | idle => exact ⟨_, _, h⟩
  | wait pc m =>
    dsimp only
    have hrelease : s.syncRelease.Ok release (some pc) := by
      simpa [hs, Sender.waiting] using h.syncRelease
    cases hwait : (s.syncRelease.wait pc).2 with
    | none =>
      obtain ⟨rfl, hnone⟩ := hrelease.wait_none hwait
      refine ⟨false, trigger, by simpa [Sender.waiting] using hnone, h.syncTrigger, ?_, h.sent,
        h.held, trivial⟩
      have honce := h.once
      simp only [hs, Sender.writes] at honce
      simpa [Sender.writes] using honce
    | some pc' =>
      refine ⟨release, trigger, by simpa [Sender.waiting] using hrelease.wait hwait,
        h.syncTrigger, ?_, h.sent, h.held, trivial⟩
      have honce := h.once
      simp only [hs, Sender.writes] at honce
      simpa [Sender.writes] using honce
  | writeData m =>
    exact ⟨_, _, h.write (by rw [hs]; rfl) (by rw [hs]; rfl) rfl rfl rfl⟩
  | writeSize m =>
    have hwritten : s.slot.data = m.data := by simpa [hs, Sender.Written] using h.written
    exact ⟨_, _, h.write (by rw [hs]; rfl) (by rw [hs]; rfl) rfl rfl ⟨hwritten, rfl⟩⟩
  | writeMsgid m =>
    have hwritten : s.slot.data = m.data ∧ s.slot.size = m.size := by
      simpa [hs, Sender.Written] using h.written
    refine ⟨_, _, h.write (by rw [hs]; rfl) (by rw [hs]; rfl) rfl rfl ?_⟩
    obtain ⟨msgid, size, data⟩ := m
    obtain ⟨hdata, hsize⟩ := hwritten
    simp_all [Sender.Written]
  | signal m =>
    obtain ⟨rfl, rfl, hreceiver, hholder, hcloser, hdropped⟩ := h.of_writes (by rw [hs]; rfl)
    have hslot : s.slot = m := by simpa [hs, Sender.Written] using h.written
    have hread : s.receiver ≠ .readHeader := by
      intro hr
      rw [hr] at hreceiver
      cases hreceiver
    refine ⟨false, true, ?_, h.syncTrigger.signal, ?_, ?_, h.held, trivial⟩
    · simpa [hs, Sender.waiting] using h.syncRelease
    · simp [Sender.writes, hreceiver, hholder, hcloser, hdropped]
    · have hsent := h.sent
      rw [pending_eq_nil rfl hread, List.append_nil] at hsent
      simp [pending, hsent, hslot]

/-- Somebody who has the message marks the slot as free. -/
theorem pad (h : s.Invariant release trigger) {receiver : Receiver} {holder closer : Releaser}
    (hhas : s.receiver.has = true ∨ s.holder.has = true ∨ s.closer.has = true)
    (hold : s.receiver ≠ .readHeader) (hnew : receiver ≠ .readHeader)
    (hwaiting : receiver.waiting = s.receiver.waiting) (hholder : holder ≠ .holds)
    (hsum : receiver.has.toNat + holder.has.toNat + closer.has.toNat =
      s.receiver.has.toNat + s.holder.has.toNat + s.closer.has.toNat) :
    Invariant { s.pad with receiver, holder, closer } release trigger := by
  obtain ⟨-, rfl, hwrites, -⟩ := h.of_has hhas
  refine ⟨h.syncRelease, ?_, ?_, ?_, fun hholds => absurd hholds hholder, ?_⟩
  · rw [hwaiting]
    exact h.syncTrigger
  · have honce := h.once
    dsimp only [State.pad]
    omega
  · have hsent := h.sent
    rw [pending_eq_nil rfl hold] at hsent
    rw [pending_eq_nil rfl hnew]
    exact hsent
  · cases hs : s.sender with
    | idle => simp [State.pad, hs, Sender.Written]
    | wait pc m => simp [State.pad, hs, Sender.Written]
    | _ =>
      rw [hs] at hwrites
      cases hwrites

/-- Somebody who has the message hands the slot back. -/
theorem signalRelease (h : s.Invariant release trigger) {receiver : Receiver}
    {holder closer : Releaser}
    (hhas : s.receiver.has = true ∨ s.holder.has = true ∨ s.closer.has = true)
    (hold : s.receiver ≠ .readHeader) (hnew : receiver ≠ .readHeader)
    (htrigger : s.syncTrigger.Ok false receiver.waiting)
    (hholder : holder = .holds → s.holder = .holds)
    (hsum : receiver.has.toNat + holder.has.toNat + closer.has.toNat + 1 =
      s.receiver.has.toNat + s.holder.has.toNat + s.closer.has.toNat) :
    Invariant { s.signalRelease with receiver, holder, closer } true trigger := by
  obtain ⟨rfl, rfl, -⟩ := h.of_has hhas
  refine ⟨h.syncRelease.signal, htrigger, ?_, ?_, fun hholds => h.held (hholder hholds),
    h.written⟩
  · have honce := h.once
    rw [Bool.toNat_false] at honce
    dsimp only [State.signalRelease]
    rw [Bool.toNat_true, Bool.toNat_false]
    omega
  · have hsent := h.sent
    rw [pending_eq_nil rfl hold] at hsent
    rw [pending_eq_nil rfl hnew]
    exact hsent

theorem handle (h : s.Invariant release trigger) (hr : s.receiver = .readHeader) :
    s.handle.Invariant release trigger := by
  obtain ⟨rfl, rfl, hwrites, -⟩ := h.of_has (.inl (by rw [hr]; rfl))
  have honce := h.once
  have hsent : s.sent = s.received ++ [s.slot] := by simpa [pending, hr] using h.sent
  have hok : s.syncTrigger.Ok false none := by
    simpa [hr, Receiver.waiting] using h.syncTrigger
  rw [hr] at honce
  have hholder : s.holder.has = false := by
    apply Bool.toNat_eq_zero.1
    simp only [Receiver.has, Bool.toNat_true] at honce
    omega
  unfold State.handle
  dsimp only
  split
  · refine ⟨h.syncRelease, hok, honce, by simpa [pending] using hsent, fun hholds => ?_,
      h.written⟩
    rw [show s.holder = .holds from hholds] at hholder
    cases hholder
  · refine ⟨h.syncRelease, hok, ?_, by simpa [pending] using hsent, fun _ => by simp, h.written⟩
    rw [hholder] at honce
    simp only [Receiver.has, Releaser.has] at honce ⊢
    rw [Bool.toNat_true, Bool.toNat_false] at honce ⊢
    omega
  · refine ⟨h.syncRelease, hok, ?_, by simpa [pending] using hsent, fun hholds => ?_, h.written⟩
    · simp only [Receiver.has] at honce ⊢
      rw [Bool.toNat_true] at honce
      rw [Bool.toNat_false]
      omega
    · rw [show s.holder = .holds from hholds] at hholder
      cases hholder

theorem receiverStep (h : s.Invariant release trigger) :
    ∃ release trigger, s.receiverStep.Invariant release trigger := by
  unfold State.receiverStep
  cases hr : s.receiver with
  | wait pc =>
    dsimp only
    have htrigger : s.syncTrigger.Ok trigger (some pc) := by
      simpa [hr, Receiver.waiting] using h.syncTrigger
    have honce := h.once
    have hsent := h.sent
    simp only [hr, Receiver.has] at honce
    cases hwait : (s.syncTrigger.wait pc).2 with
    | none =>
      obtain ⟨rfl, hnone⟩ := htrigger.wait_none hwait
      refine ⟨release, false, h.syncRelease, by simpa [Receiver.waiting] using hnone, ?_, ?_,
        h.held, h.written⟩
      · simp only [Option.elim, Receiver.has]
        rw [Bool.toNat_true, Bool.toNat_false] at honce ⊢
        omega
      · simpa [pending] using hsent
    | some pc' =>
      refine ⟨release, trigger, h.syncRelease,
        by simpa [Receiver.waiting] using htrigger.wait hwait, honce, ?_, h.held, h.written⟩
      simpa [pending, hr] using hsent
  | readHeader => exact ⟨_, _, h.handle hr⟩
  | pad =>
    refine ⟨_, _, h.pad (.inl (by rw [hr]; rfl)) (by simp [hr]) (by simp) (by rw [hr]; rfl) ?_ ?_⟩
    · intro hholds
      have honce := h.once
      rw [hr, show s.holder = .holds from hholds] at honce
      simp [Receiver.has, Releaser.has] at honce
      omega
    · rw [hr]
      rfl
  | signal =>
    refine ⟨_, _, h.signalRelease (.inl (by rw [hr]; rfl)) (by simp [hr]) (by simp) ?_ id ?_⟩
    · obtain ⟨-, rfl, -⟩ := h.of_has (.inl (by rw [hr]; rfl))
      simpa [hr, Receiver.waiting, RemoteEvent.Ok] using h.syncTrigger
    · rw [hr]
      simp only [Receiver.has, State.signalRelease]
      rw [Bool.toNat_true, Bool.toNat_false]
      omega

/-- The message is with one of the three. -/
theorem has_le (h : s.Invariant release trigger) :
    s.receiver.has.toNat + s.holder.has.toNat + s.closer.has.toNat ≤ 1 := by
  have honce := h.once
  omega

theorem receiver_ne (h : s.Invariant release trigger)
    (hhas : s.holder.has = true ∨ s.closer.has = true) : s.receiver ≠ .readHeader := by
  intro hr
  have hle := h.has_le
  rw [hr] at hle
  simp only [Receiver.has, Bool.toNat_true] at hle
  rcases hhas with hhas | hhas <;> rw [hhas, Bool.toNat_true] at hle <;> omega

theorem holder_ne (h : s.Invariant release trigger) (hhas : s.closer.has = true) :
    s.holder ≠ .holds := by
  intro hholds
  have hle := h.has_le
  rw [hholds, hhas] at hle
  simp only [Releaser.has, Bool.toNat_true] at hle
  omega

theorem holderStep (h : s.Invariant release trigger) :
    ∃ release trigger, s.holderStep.Invariant release trigger := by
  unfold State.holderStep
  cases hs : s.holder with
  | idle => exact ⟨_, _, h⟩
  | holds => exact ⟨_, _, h⟩
  | pad =>
    have hhas : s.holder.has = true := by rw [hs]; rfl
    have hread := h.receiver_ne (.inl hhas)
    refine ⟨_, _, h.pad (.inr (.inl hhas)) hread hread rfl (by simp) ?_⟩
    rw [hhas]
    rfl
  | signal =>
    have hhas : s.holder.has = true := by rw [hs]; rfl
    have hread := h.receiver_ne (.inl hhas)
    obtain ⟨-, rfl, -⟩ := h.of_has (.inr (.inl hhas))
    refine ⟨_, _, h.signalRelease (.inr (.inl hhas)) hread hread h.syncTrigger (by simp) ?_⟩
    rw [hhas]
    simp only [Releaser.has, State.signalRelease]
    rw [Bool.toNat_true, Bool.toNat_false]
    omega

theorem closerStep (h : s.Invariant release trigger) :
    ∃ release trigger, s.closerStep.Invariant release trigger := by
  unfold State.closerStep
  cases hs : s.closer with
  | idle => exact ⟨_, _, h⟩
  | holds => exact ⟨_, _, h⟩
  | pad =>
    have hhas : s.closer.has = true := by rw [hs]; rfl
    have hread := h.receiver_ne (.inr hhas)
    refine ⟨_, _, h.pad (.inr (.inr hhas)) hread hread rfl (h.holder_ne hhas) ?_⟩
    rw [hhas]
    rfl
  | signal =>
    have hhas : s.closer.has = true := by rw [hs]; rfl
    have hread := h.receiver_ne (.inr hhas)
    obtain ⟨-, rfl, -⟩ := h.of_has (.inr (.inr hhas))
    refine ⟨_, _, h.signalRelease (.inr (.inr hhas)) hread hread h.syncTrigger id ?_⟩
    rw [hhas]
    simp only [Releaser.has, State.signalRelease]
    rw [Bool.toNat_true, Bool.toNat_false]

theorem startRelease (h : s.Invariant release trigger) (hholds : s.holder = .holds) :
    Invariant { s with holder := .pad } release trigger where
  syncRelease := h.syncRelease
  syncTrigger := h.syncTrigger
  once := by
    have honce := h.once
    rw [hholds] at honce
    exact honce
  sent := h.sent
  held := by simp
  written := h.written

/-- A service is closed that holds the message. -/
theorem close (h : s.Invariant release trigger) (hidle : s.closer = .idle)
    (hholds : s.holder = .holds) :
    Invariant { s with closer := .pad, holder := .idle } release trigger where
  syncRelease := h.syncRelease
  syncTrigger := h.syncTrigger
  once := by
    have honce := h.once
    rw [hholds, hidle] at honce
    simp only [Releaser.has] at honce ⊢
    omega
  sent := h.sent
  held := by simp
  written := h.written

theorem step (h : s.Invariant release trigger) {e : Event} (he : s.Clean e) :
    ∃ release trigger, (s.step e).Invariant release trigger := by
  unfold State.step
  cases e with
  | send m =>
    dsimp only
    split
    next hidle => exact ⟨_, _, h.send hidle m⟩
    · exact ⟨_, _, h⟩
  | sender => exact h.senderStep
  | pollRelease =>
    exact ⟨_, _, h.syncRelease.poll he, h.syncTrigger, h.once, h.sent, h.held, h.written⟩
  | receiver => exact h.receiverStep
  | pollTrigger =>
    exact ⟨_, _, h.syncRelease, h.syncTrigger.poll he, h.once, h.sent, h.held, h.written⟩
  | release port =>
    dsimp only
    split
    next hrelease => exact ⟨_, _, h.startRelease (he hrelease.2).1⟩
    · exact ⟨_, _, h⟩
  | holder => exact h.holderStep
  | close port =>
    dsimp only
    split
    next hclose =>
      have hholds : s.holder = .holds := he hclose.2
      rw [if_pos hholds]
      exact ⟨_, _, h.close hclose.1 hholds⟩
    · exact ⟨_, _, h⟩
  | closer => exact h.closerStep
  | services services => exact ⟨_, _, h.1, h.2, h.3, h.4, h.5, h.6⟩

end Invariant

variable {es fs : List Event}

theorem run_invariant (hes : Machine.Along State.step Clean {} es) :
    ∃ release trigger, (run {} es).Invariant release trigger :=
  Machine.Along.invariant (I := fun s => ∃ release trigger, s.Invariant release trigger)
    (fun _ _ ⟨_, _, h⟩ he => h.step he) hes ⟨_, _, Invariant.init⟩

/-- The slot is a place for one message: each is found once and in order, and stays until its
service is done with it. -/
theorem run_intact (hes : Machine.Along State.step Clean {} es) : (run {} es).Intact := by
  obtain ⟨_, _, h⟩ := run_invariant hes
  exact h.intact

/-- From port 2 to port 3. -/
def message : Packet := ⟨Turnover.makeMsg msgData 2 3, 1, [7]⟩

/-- On port 3. -/
def service (srvstate : SrvState) : Event :=
  .services fun port => if port = 3 then some ⟨srvstate, 2, true, 0, 0⟩ else none

/-- The sync thread waits when a message is sent; it is delivered, and released. -/
def releasedRun : List Event :=
  service .opensync :: List.replicate 4 Event.receiver ++ Event.send message ::
    List.replicate 12 Event.sender ++ Event.pollTrigger :: List.replicate 7 Event.receiver ++
    [Event.release 3, .holder, .holder]

theorem run_intact_released : (run {} releasedRun).Intact := run_intact (by decide +kernel)

/-! ## Messages left in the slot -/

theorem step_sent (e : Event) :
    (s.step e).sent = s.sent ∨ e = .sender ∧ ∃ m, s.sender = .signal m := by
  unfold State.step
  cases e with
  | sender =>
    cases hs : s.sender with
    | signal m => exact .inr ⟨rfl, m, rfl⟩
    | _ =>
      left
      dsimp only
      unfold State.senderStep
      rw [hs]
  | receiver =>
    left
    dsimp only
    unfold State.receiverStep State.handle
    split
    · rfl
    · dsimp only
      split <;> rfl
    · rfl
    · rfl
  | holder =>
    left
    dsimp only
    unfold State.holderStep
    split <;> rfl
  | closer =>
    left
    dsimp only
    unfold State.closerStep
    split <;> rfl
  | _ =>
    left
    dsimp only
    try split
    all_goals rfl

theorem dropped_le (e : Event) : s.dropped ≤ (s.step e).dropped := by
  unfold State.step
  cases e with
  | sender =>
    dsimp only
    unfold State.senderStep
    split <;> exact le_rfl
  | receiver =>
    dsimp only
    unfold State.receiverStep State.handle
    split
    · exact le_rfl
    · dsimp only
      split
      · exact le_rfl
      · exact le_rfl
      · exact Nat.le_succ _
    · exact le_rfl
    · exact le_rfl
  | holder =>
    dsimp only
    unfold State.holderStep
    split <;> exact le_rfl
  | closer =>
    dsimp only
    unfold State.closerStep
    split <;> exact le_rfl
  | _ =>
    dsimp only
    try split
    all_goals exact le_rfl

/-- A message that `sync_func` leaves in the slot is the last one that is ever sent. -/
theorem run_dropped (hes : Machine.Along State.step Clean {} (es ++ fs))
    (hdropped : (run {} es).dropped ≠ 0) : (run {} (es ++ fs)).sent = (run {} es).sent := by
  obtain ⟨hes, hfs⟩ := Machine.along_append.1 hes
  obtain ⟨release, trigger, h⟩ := run_invariant hes
  rw [run, Machine.run_append]
  refine Machine.Along.const (I := fun s => s.dropped ≠ 0 ∧ ∃ release trigger,
    s.Invariant release trigger) State.sent ?_ hfs ⟨hdropped, _, _, h⟩
  rintro s e ⟨hdropped, release, trigger, h⟩ he
  have hle := s.dropped_le e
  refine ⟨⟨by omega, h.step he⟩, (s.step_sent e).resolve_right ?_⟩
  rintro ⟨-, m, hs⟩
  exact hdropped (h.of_writes (by rw [hs]; rfl)).2.2.2.2.2

/-- The service is not synchronous yet. -/
def droppedRun : List Event :=
  service .open :: .send message :: .replicate 12 .sender ++ .replicate 3 .receiver

theorem run_dropped_open :
    (run {} (droppedRun ++ .send message :: .replicate 4 .sender)).sent =
      (run {} droppedRun).sent :=
  run_dropped (by decide +kernel) (by decide +kernel)

/-! ## Polls within a wait -/

theorem along_isThread (hfs : ∀ e ∈ fs, e.IsThread) : Machine.Along State.step Clean s fs := by
  induction fs generalizing s with
  | nil => trivial
  | cons e fs ih =>
    refine ⟨?_, ih fun e' he' => hfs e' (List.mem_cons_of_mem _ he')⟩
    have he := hfs e (List.mem_cons_self ..)
    cases e with
    | pollRelease | pollTrigger | release port | close port => cases he
    | _ => trivial

/-- The steps of a sender from the end of a wait on, and of another one after it. -/
def overrun (m : Packet) : List Event :=
  .replicate 6 .sender ++ .send m :: .replicate 12 .sender

/-- With a permit left over a second message is written over the first. -/
theorem run_overrun (m m' : Packet) (hsender : s.sender = .wait .disarm m)
    (hrelease : s.syncRelease = ⟨true, false, 1⟩) :
    (run s (overrun m')).sent = s.sent ++ [m] ++ [m'] ∧
      (run s (overrun m')).received = s.received := by
  obtain ⟨slot, syncRelease, syncTrigger, services, sender, receiver, holder, closer, sent,
    received, dropped⟩ := s
  cases hsender
  cases hrelease
  exact ⟨rfl, rfl⟩

namespace Invariant

theorem pollRelease_overruns (h : s.Invariant release trigger)
    (ht : ¬ s.syncRelease.Timely s.sender.waiting) :
    ∃ fs, (∀ e ∈ fs, e.IsThread) ∧ ¬ (run (s.step .pollRelease) fs).Intact := by
  obtain ⟨-, hr, hpc⟩ := h.syncRelease.of_not_timely ht
  have hahead : s.received.length ≤ s.sent.length := h.intact.inOrder.length_le
  have hover : ∀ s' : State, s'.sent = s.sent → s'.received = s.received →
      ∀ m, s'.sender = .wait .disarm m → s'.syncRelease = ⟨true, false, 1⟩ →
        ¬ (run s' (overrun s.slot)).Intact := by
    intro s' hsent hreceived m hsender hrelease hintact
    obtain ⟨hsent', hreceived'⟩ := run_overrun m s.slot hsender hrelease
    have hone := hintact.oneAhead
    rw [hsent', hreceived', hsent, hreceived] at hone
    simp at hone
    omega
  have hpoll : s.syncRelease.poll = ⟨true, false, 1⟩ := by rw [hr]; rfl
  cases hs : s.sender with
  | wait pc m =>
    simp only [hs, Sender.waiting, Option.some.injEq] at hpc
    rcases hpc with rfl | rfl
    · refine ⟨.sender :: overrun s.slot, by simp [overrun, Event.IsThread], ?_⟩
      have hstep : (s.step .pollRelease).step .sender =
          { s with syncRelease := ⟨true, false, 1⟩, sender := .wait .disarm m } := by
        simp [State.step, State.senderStep, hs, hpoll, RemoteEvent.wait]
      rw [run, Machine.run_cons, hstep]
      exact hover _ rfl rfl m rfl rfl
    · exact ⟨overrun s.slot, by simp [overrun, Event.IsThread], hover _ rfl rfl m hs hpoll⟩
  | _ => simp [hs, Sender.waiting] at hpc

end Invariant

@[simp] theorem handle_received : s.handle.received = s.received ++ [s.slot] := by
  unfold State.handle
  dsimp only
  split <;> rfl

@[simp] theorem handle_sent : s.handle.sent = s.sent := by
  unfold State.handle
  dsimp only
  split <;> rfl

@[simp] theorem handle_syncTrigger : s.handle.syncTrigger = s.syncTrigger := by
  unfold State.handle
  dsimp only
  split <;> rfl

theorem handle_receiver : s.handle.receiver = .pad ∨ s.handle.receiver = .wait .testFired := by
  unfold State.handle
  dsimp only
  split
  · exact .inl rfl
  · exact .inr rfl
  · exact .inr rfl

/-- With a permit left over the sync thread looks into the slot again. -/
theorem run_reread (hreceiver : s.receiver = .wait .testFired)
    (htrigger : s.syncTrigger = ⟨false, false, 1⟩) :
    (run s (.replicate 9 .receiver)).received = s.received ++ [s.slot] ∧
      (run s (.replicate 9 .receiver)).sent = s.sent := by
  have hread : run s (.replicate 8 .receiver) =
      { s with receiver := .readHeader, syncTrigger := ⟨false, false, 0⟩ } := by
    obtain ⟨slot, syncRelease, syncTrigger, services, sender, receiver, holder, closer, sent,
      received, dropped⟩ := s
    cases hreceiver
    cases htrigger
    rfl
  have hlast : run s (.replicate 9 .receiver) =
      (run s (.replicate 8 .receiver)).step .receiver := by
    rw [List.replicate_succ']
    exact Machine.run_append ..
  rw [hlast, hread]
  exact ⟨handle_received, handle_sent⟩

/-- Once it has read the header, the sync thread waits again, the same permit left over. -/
theorem run_handle (hreceiver : s.receiver = .readHeader)
    (htrigger : s.syncTrigger = ⟨false, false, 1⟩) :
    ∃ k, (run s (.replicate k .receiver)).receiver = .wait .testFired ∧
      (run s (.replicate k .receiver)).syncTrigger = ⟨false, false, 1⟩ ∧
      (run s (.replicate k .receiver)).received = s.received ++ [s.slot] ∧
      (run s (.replicate k .receiver)).sent = s.sent := by
  have hstep : s.step .receiver = s.handle := by
    unfold State.step State.receiverStep
    rw [hreceiver]
  rcases s.handle_receiver with hpad | hwait
  · refine ⟨3, ?_⟩
    have hrun : run s (.replicate 3 .receiver) =
        { s.handle.pad.signalRelease with receiver := .wait .testFired } := by
      simp only [List.replicate, run, Machine.run_cons, Machine.run_nil, hstep]
      simp only [State.step, State.receiverStep, hpad, State.pad, State.signalRelease]
    rw [hrun]
    exact ⟨rfl, handle_syncTrigger.trans htrigger, handle_received, handle_sent⟩
  · refine ⟨1, ?_⟩
    have hrun : run s (.replicate 1 .receiver) = s.handle := hstep
    rw [hrun]
    exact ⟨hwait, handle_syncTrigger.trans htrigger, handle_received, handle_sent⟩

/-- The sync thread reads the slot twice. -/
theorem run_twice (hreceiver : s.receiver = .wait .disarm)
    (htrigger : s.syncTrigger = ⟨true, false, 1⟩) :
    ∃ k, s.received.length + 2 = (run s (.replicate k .receiver)).received.length ∧
      (run s (.replicate k .receiver)).sent = s.sent := by
  have hread : run s (.replicate 2 .receiver) =
      { s with receiver := .readHeader, syncTrigger := ⟨false, false, 1⟩ } := by
    obtain ⟨slot, syncRelease, syncTrigger, services, sender, receiver, holder, closer, sent,
      received, dropped⟩ := s
    cases hreceiver
    cases htrigger
    rfl
  obtain ⟨k, hwait, hleft, hreceived, hsent⟩ :=
    run_handle (s := run s (.replicate 2 .receiver)) (by rw [hread]) (by rw [hread])
  obtain ⟨hreceived', hsent'⟩ := run_reread hwait hleft
  refine ⟨2 + k + 9, ?_⟩
  rw [List.replicate_add, List.replicate_add, run, Machine.run_append, Machine.run_append,
    hreceived', hreceived, hsent', hsent, hread]
  simp

namespace Invariant

theorem pollTrigger_rereads (h : s.Invariant release trigger)
    (ht : ¬ s.syncTrigger.Timely s.receiver.waiting) :
    ∃ fs, (∀ e ∈ fs, e.IsThread) ∧ ¬ (run (s.step .pollTrigger) fs).Intact := by
  obtain ⟨rfl, hr, hpc⟩ := h.syncTrigger.of_not_timely ht
  have hsent : s.sent.length = s.received.length + 1 := by simp [h.sent, pending]
  have htwice : ∀ s' : State, s'.sent = s.sent → s'.received = s.received →
      s'.receiver = .wait .disarm → s'.syncTrigger = ⟨true, false, 1⟩ →
        ∃ k, ¬ (run s' (.replicate k .receiver)).Intact := by
    intro s' hsent' hreceived' hreceiver htrigger
    obtain ⟨k, hlength, hsame⟩ := run_twice hreceiver htrigger
    refine ⟨k, fun hintact => ?_⟩
    have hle := hintact.inOrder.length_le
    rw [hsame, ← hlength, hsent', hreceived'] at hle
    omega
  have hpoll : s.syncTrigger.poll = ⟨true, false, 1⟩ := by rw [hr]; rfl
  cases hs : s.receiver with
  | wait pc =>
    simp only [hs, Receiver.waiting, Option.some.injEq] at hpc
    rcases hpc with rfl | rfl
    · have hstep : (s.step .pollTrigger).step .receiver =
          { s with syncTrigger := ⟨true, false, 1⟩, receiver := .wait .disarm } := by
        simp [State.step, State.receiverStep, hs, hpoll, RemoteEvent.wait]
      obtain ⟨k, hk⟩ := htwice ((s.step .pollTrigger).step .receiver) (by rw [hstep])
        (by rw [hstep]) (by rw [hstep]) (by rw [hstep])
      exact ⟨.receiver :: .replicate k .receiver, by simp [Event.IsThread], hk⟩
    · obtain ⟨k, hk⟩ := htwice (s.step .pollTrigger) rfl rfl hs hpoll
      exact ⟨.replicate k .receiver, by simp [Event.IsThread], hk⟩
  | _ => simp [hs, Receiver.waiting] at hpc

end Invariant

/-- A poll leaves the channel intact for good exactly if it does not find its event fired and
armed within a wait, outside `down`. -/
theorem run_poll_iff (hes : Machine.Along State.step Clean {} es) {e : Event}
    (he : e = .pollRelease ∨ e = .pollTrigger) :
    (∀ fs, Machine.Along State.step Clean ((run {} es).step e) fs →
      (run ((run {} es).step e) fs).Intact) ↔ (run {} es).Clean e := by
  obtain ⟨release, trigger, h⟩ := run_invariant hes
  constructor
  · intro hall
    by_contra hclean
    have hbad : ∃ fs, (∀ e ∈ fs, e.IsThread) ∧ ¬ (run ((run {} es).step e) fs).Intact := by
      rcases he with rfl | rfl
      · exact h.pollRelease_overruns hclean
      · exact h.pollTrigger_rereads hclean
    obtain ⟨fs, hfs, hbroken⟩ := hbad
    exact hbroken (hall fs (along_isThread hfs))
  · intro hclean fs hfs
    have hrun : (run {} (es ++ e :: fs)).Intact :=
      run_intact (Machine.along_append.2 ⟨hes, hclean, hfs⟩)
    rwa [run, Machine.run_append, Machine.run_cons] at hrun

/-- The message is sent between the setting of `armed` and the second test of `fired`. -/
def armedRun : List Event :=
  .replicate 2 .receiver ++ .send message :: .replicate 12 .sender

theorem run_poll_iff_armed :
    (∀ fs, Machine.Along State.step Clean ((run {} armedRun).step .pollTrigger) fs →
      (run ((run {} armedRun).step .pollTrigger) fs).Intact) ↔
    (run {} armedRun).Clean .pollTrigger :=
  run_poll_iff (by decide +kernel) (.inr rfl)

end State
end Sync
