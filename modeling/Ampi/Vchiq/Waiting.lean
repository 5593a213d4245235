-- SUMMARY: Senders that wait for the quota of their service: when none of them is forgotten.
import Ampi.Vchiq.Quotas

/-!
# Waiting for quota

A sender waits in `down` on the `quota_event` of its service while the count of messages is
equal to its quota, or while the message needs another slot and the count of slots is equal to
its. A permit wakes one sender. It is not passed on, so it is lost to the others when the one
that takes it does not need it, or needs less than it makes room for.
-/

namespace Closing

open Slots

/-! ## Positions -/

namespace Books

variable {b b' : Books} {call call' : Call} {port : Nat}

/-- The ring is not about to come round to the slot of the last message of the service. -/
def Apart (b : Books) (port : Nat) : Prop :=
  let previous := (b.accounts port).previousTxIndex
  0 ≤ previous → ((b.localTxPos.toNat : Int) - 4096 * previous) % 2 ^ 32 < 2 ^ 32 - 3 * 4096

/-- The stream has gone on by two slots at most. -/
def Later (b b' : Books) : Prop :=
  ∃ d ≤ 8192, b'.localTxPos = b.localTxPos + .ofNat d

theorem txEndIndex_toNat (hfits : call.Fits) :
    b.txEndIndex call =
      ((b.localTxPos.toNat + call.stride.toNat - 1) % 2 ^ 32 / 4096 : Nat) := by
  have hpos : 0 < call.stride.toNat := UInt32.lt_iff_toNat_lt.1 hfits.1
  have hone : (1 : UInt32) = .ofNat 1 := rfl
  have hlast : b.localTxPos + call.stride - 1 =
      .ofNat (b.localTxPos.toNat + call.stride.toNat - 1) := by
    rw [hone, UInt32.ofNat_sub (by omega), UInt32.ofNat_add, UInt32.ofNat_toNat,
      UInt32.ofNat_toNat]
  rw [txEndIndex, hlast, txIndex_ofNat]
  congr 1
  omega

/-- A message that needs another slot still does so when the stream has gone on. -/
theorem Later.txEndIndex_ne (h : b.Later b') (hapart : b.Apart port) (hfits : call.Fits)
    (hne : b.txEndIndex call ≠ (b.accounts port).previousTxIndex) :
    b'.txEndIndex call ≠ (b.accounts port).previousTxIndex := by
  obtain ⟨d, hd, hpos⟩ := h
  have hstride : 0 < call.stride.toNat := UInt32.lt_iff_toNat_lt.1 hfits.1
  have hle : call.stride.toNat ≤ 4096 := UInt32.le_iff_toNat_le.1 hfits.2
  rw [txEndIndex_toNat hfits] at hne ⊢
  rw [hpos, UInt32.toNat_add, UInt32.toNat_ofNat']
  unfold Apart at hapart
  dsimp only at hapart
  generalize (b.accounts port).previousTxIndex = previous at *
  omega

theorem later_moved (b : Books) (call : Call) : b.Later (b.moved call) := by
  have hlt := Nat.mod_lt b.localTxPos.toNat (show 0 < 4096 by omega)
  have hspace := slotSpace b.localTxPos.toNat
  rw [UInt32.ofNat_toNat] at hspace
  unfold Later moved
  dsimp only
  rw [hspace]
  split
  · exact ⟨4096 - b.localTxPos.toNat % 4096, by omega, rfl⟩
  · exact ⟨0, by omega, (UInt32.add_zero _).symm⟩

theorem sent_localTxPos (b : Books) (call : Call) :
    (b.sent call).localTxPos = b.localTxPos + call.stride := by
  unfold sent
  split <;> rfl

theorem later_sent (b : Books) (hfits : call.Fits) : b.Later (b.sent call) := by
  have hle : call.stride.toNat ≤ 4096 := UInt32.le_iff_toNat_le.1 hfits.2
  exact ⟨call.stride.toNat, by omega, by rw [sent_localTxPos, UInt32.ofNat_toNat]⟩

theorem later_moved_sent (b : Books) (hfits : call.Fits) :
    b.Later ((b.moved call).sent call) := by
  have hle : call.stride.toNat ≤ 4096 := UInt32.le_iff_toNat_le.1 hfits.2
  have hlt := Nat.mod_lt b.localTxPos.toNat (show 0 < 4096 by omega)
  have hspace := slotSpace b.localTxPos.toNat
  rw [UInt32.ofNat_toNat] at hspace
  unfold Later
  rw [sent_localTxPos, moved]
  dsimp only
  rw [hspace]
  split
  · refine ⟨4096 - b.localTxPos.toNat % 4096 + call.stride.toNat, by omega, ?_⟩
    rw [UInt32.ofNat_add, UInt32.ofNat_toNat, UInt32.add_assoc]
  · exact ⟨call.stride.toNat, by omega, by rw [UInt32.ofNat_toNat]⟩

theorem quotaStalled_iff : b.quotaStalled call port = true ↔
    (b.accounts port).messageUseCount = (b.accounts port).messageQuota ∨
      b.txEndIndex call ≠ (b.accounts port).previousTxIndex ∧
        (b.accounts port).slotUseCount = (b.accounts port).slotQuota :=
  decide_eq_true_iff

/-- Nothing is entered for the service. -/
theorem Later.quotaStalled (h : b.Later b') (hapart : b.Apart port) (hfits : call.Fits)
    (haccount : b'.accounts port = b.accounts port) (hstalled : b.quotaStalled call port) :
    b'.quotaStalled call port := by
  rw [quotaStalled_iff] at hstalled ⊢
  rw [haccount]
  exact hstalled.imp_right (And.imp_left (h.txEndIndex_ne hapart hfits))

/-- A message of the same service that passes where another does not is put into the slot of
the last one, so that the other has to wait as before. -/
theorem Later.quotaStalled_sent (h : b.Later (b'.sent call')) (hapart : b.Apart port)
    (hfits : call.Fits) (haccounts : b'.accounts = b.accounts)
    (hend : b'.txEndIndex call' = b.txEndIndex call') (hport : call'.msg = .data port)
    (hpassed : b.quotaStalled call' port = false) (hstalled : b.quotaStalled call port) :
    (b'.sent call').quotaStalled call port := by
  have hpassed : ¬b.quotaStalled call' port = true := by simp [hpassed]
  rw [quotaStalled_iff, not_or, not_and] at hpassed
  rw [quotaStalled_iff] at hstalled
  obtain ⟨hmessage, hslot⟩ := hpassed
  obtain ⟨hne, hfull⟩ := hstalled.resolve_left hmessage
  have hlast : b.txEndIndex call' = (b.accounts port).previousTxIndex := by
    by_contra hother
    exact hslot hother hfull
  have haccount : (b'.sent call').accounts port =
      { b.accounts port with messageUseCount := (b.accounts port).messageUseCount + 1 } := by
    have hindex : State.txIndex (b'.localTxPos + call'.stride - 1) =
        (b.accounts port).previousTxIndex := hend.trans hlast
    unfold sent
    rw [hport]
    dsimp only
    unfold countData
    dsimp only
    rw [Function.update_self, haccounts, hindex]
    simp [Account.count]
  rw [quotaStalled_iff, haccount]
  exact .inr ⟨h.txEndIndex_ne hapart hfits hne, hfull⟩

/-- What a message that is put leaves stalled. -/
theorem Later.quotaStalled_put (h : b.Later (b'.sent call')) (hapart : b.Apart port)
    (hfits : call.Fits) (haccounts : b'.accounts = b.accounts)
    (hend : b'.txEndIndex call' = b.txEndIndex call')
    (hpassed : call'.msg = .data port → b.quotaStalled call' port = false)
    (hstalled : b.quotaStalled call port) : (b'.sent call').quotaStalled call port := by
  by_cases hport : call'.msg = .data port
  · exact h.quotaStalled_sent hapart hfits haccounts hend hport (hpassed hport) hstalled
  · refine h.quotaStalled hapart hfits ?_ hstalled
    unfold sent
    split
    · next p hp =>
      have hne : port ≠ p := by
        rintro rfl
        exact hport hp
      exact (Function.update_of_ne hne ..).trans (congrFun haccounts port)
    · exact congrFun haccounts port

end Books

namespace State

variable {ι : Type*} [DecidableEq ι]

/-! ## The property -/

/-- A sender of the service has to wait with its message. -/
def Waits (s : State ι) (call : Call) (port : Nat) : Prop :=
  s.quotaStalled call port ∧ s.closing port = false

/-- A signal to the senders of the service is under way. -/
def Signals (s : State ι) (port : Nat) : Prop := ∃ j, s.pc j = .markLock port

/-- A sender that waits without a permit has to, or will be woken. -/
def NoneForgotten (s : State ι) : Prop :=
  ∀ i call port, s.pc i = .quotaWait call port → (s.quotas port).quotaEvent = 0 →
    s.Waits call port ∨ s.Signals port

/-- The senders of a service that wait have to, `i` apart, or will be woken. -/
def OthersWait (s : State ι) (i : ι) (port : Nat) : Prop :=
  ∀ j ≠ i, ∀ call, s.pc j = .quotaWait call port → s.Waits call port ∨ s.Signals port

/-- Some sender of the service waits. -/
def SomeWaits (s : State ι) (port : Nat) : Prop := ∃ i call, s.pc i = .quotaWait call port

/-- With senders of the service that wait, the count of its `quota_event` does not come round
to zero. -/
def HasRoom (s : State ι) (port ups : Nat) : Prop :=
  s.SomeWaits port → (s.quotas port).quotaEvent.toNat + ups < 2 ^ 32

/-- The sender comes to the second loop with `permits` to be had there. It waits only while
the service is not closing, and takes the last of them only from senders that have to wait. -/
def LeavesOthers (s : State ι) (i : ι) (call : Call) (port permits : Nat) : Prop :=
  s.quotaStalled call port →
    (permits = 0 → s.closing port = false ∨ s.Signals port) ∧
      (0 < permits → (s.closing port ∨ s.srvstate port ≠ .open → permits = 1) →
        s.OthersWait i port)

/-- No permit is taken that another sender of the service could go on with, and none waits
when the service is closing. A message for which a slot was missing is put while its service
still has room for it, if others wait. A quota is set, with others waiting, while the other
count is within its quota, and no service is added at a port whose senders wait. The event has
room for the permits, two at most for each message of a slot that comes back. -/
def passesOn (s : State ι) : Event ι → Prop
  | .queueMessage i call =>
    ∀ port, call.msg = .data port → s.pc i = .idle → s.locked = false → s.closing port = false →
      s.dataStalled call = false → s.LeavesOthers i call port (s.quotas port).quotaEvent.toNat
  | .resume i =>
    match s.pc i with
    | .sendLock call =>
      ∀ port, call.msg = .data port → s.locked = false → s.closing port = false →
        s.dataStalled call = false → s.LeavesOthers i call port (s.quotas port).quotaEvent.toNat
    | .dataWait call port =>
      s.dataQuotaEvent ≠ 0 → s.locked = false → s.dataStalled call = false →
        s.LeavesOthers i call port (s.quotas port).quotaEvent.toNat
    | .dataLock call port =>
      s.locked = false → s.dataStalled call = false →
        s.LeavesOthers i call port (s.quotas port).quotaEvent.toNat
    | .quotaWait call port =>
      ((s.quotas port).quotaEvent = 1 → s.OthersWait i port) ∧
        ((s.quotas port).quotaEvent ≠ 0 → s.closing port = false → s.locked = false →
          s.srvstate port = .open →
            s.LeavesOthers i call port ((s.quotas port).quotaEvent - 1).toNat)
    | .quotaLock call port =>
      s.locked = false → s.srvstate port = .open →
        s.LeavesOthers i call port (s.quotas port).quotaEvent.toNat
    | .slotWait call =>
      ∀ port, call.msg = .data port → 0 < s.slotAvailable → s.SomeWaits port →
        s.quotaStalled call port = false
    | .markLock port => s.HasRoom port 1
    | _ => True
  | .mark _ port _ => s.HasRoom port 1
  | .freeSlot ports => ∀ port, s.HasRoom port (2 * ports.length)
  | .setSlotQuota port _ =>
    s.HasRoom port 1 ∧
      (s.SomeWaits port → (s.quotas port).messageUseCount ≤ (s.quotas port).messageQuota)
  | .setMessageQuota port _ =>
    s.HasRoom port 1 ∧
      (s.SomeWaits port → (s.quotas port).slotUseCount ≤ (s.quotas port).slotQuota)
  | .addService port _ => ¬s.SomeWaits port
  | _ => True

/-- The ring has not come round while a sender waits. -/
def Apart (s : State ι) : Prop := ∀ port, s.SomeWaits port → s.books.Apart port

/-- No sender is forgotten, `i` apart. -/
def Attended (s : State ι) (i : ι) : Prop :=
  ∀ j ≠ i, ∀ call port, s.pc j = .quotaWait call port → (s.quotas port).quotaEvent = 0 →
    s.Waits call port ∨ s.Signals port

variable {s t u : State ι} {i : ι} {call : Call} {port : Nat} {pc : Pc}

theorem signals_goto (hi : ∀ port, u.pc i ≠ .markLock port) (h : u.Signals port) :
    (u.goto i pc).Signals port := by
  obtain ⟨j, hj⟩ := h
  have hji : j ≠ i := by
    rintro rfl
    exact hi port hj
  exact ⟨j, by rw [goto_of_ne hji, hj]⟩

/-- A thread that is not marking goes on, or waits because it has to. -/
theorem noneForgotten_goto (h : u.Attended i) (hi : ∀ port, u.pc i ≠ .markLock port)
    (hwait : ∀ call port, pc = .quotaWait call port → (u.quotas port).quotaEvent = 0 →
      u.Waits call port ∨ u.Signals port) : (u.goto i pc).NoneForgotten := by
  intro j call port hj hzero
  by_cases hji : j = i
  · subst hji
    rw [goto_self] at hj
    exact (hwait call port hj hzero).imp_right (signals_goto hi)
  · rw [goto_of_ne hji] at hj
    exact (h j hji call port hj hzero).imp_right (signals_goto hi)

/-- The thread has entered with the mutex, and no other sender has been forgotten. -/
structure Serving (s t : State ι) (i : ι) : Prop where
  fits : ∀ j call port, s.pc j = .quotaWait call port → call.Fits
  apart : s.Apart
  moves : ∀ port, s.pc i ≠ .markLock port
  books : t.books = s.books
  pc : t.pc = s.pc
  closing : t.closing = s.closing
  attended : t.Attended i

namespace Serving

omit [DecidableEq ι] in
theorem waits_iff (h : Serving s t i) : t.Waits call port ↔ s.Waits call port := by
  rw [Waits, Waits, ← quotaStalled_books, h.books, quotaStalled_books, h.closing]

omit [DecidableEq ι] in
theorem signals_iff (h : Serving s t i) : t.Signals port ↔ s.Signals port := by
  rw [Signals, Signals, h.pc]

/-- The thread goes on, and what has been put leaves the others stalled. -/
theorem goOn (h : Serving s t i) {u : State ι} (hpc : u.pc = t.pc)
    (hclosing : u.closing = t.closing)
    (hevents : ∀ port, (u.quotas port).quotaEvent = (t.quotas port).quotaEvent)
    (hstalled : ∀ port call, call.Fits → s.SomeWaits port → s.books.quotaStalled call port →
      u.books.quotaStalled call port)
    (hgo : ∀ call port, pc ≠ .quotaWait call port) : (u.goto i pc).NoneForgotten := by
  refine noneForgotten_goto (fun j hji call port hj hzero => ?_)
    (fun port => by rw [hpc, h.pc]; exact h.moves port)
    fun call port heq => absurd heq (hgo call port)
  rw [hpc] at hj
  rw [hevents] at hzero
  rcases h.attended j hji call port hj hzero with ⟨hwaits, hopen⟩ | hsignals
  · rw [h.pc] at hj
    rw [← quotaStalled_books, h.books] at hwaits
    refine .inl ⟨?_, hclosing ▸ hopen⟩
    exact hstalled port call (h.fits j call port hj) ⟨j, call, hj⟩ hwaits
  · exact .inr (by rw [Signals, hpc]; exact hsignals)

/-- The thread leaves without a message. -/
theorem leave (h : Serving s t i) {u : State ι} (hpc : u.pc = t.pc)
    (hclosing : u.closing = t.closing)
    (hquotas : u.quotas = t.quotas) (hbooks : u.books = t.books)
    (hgo : ∀ call port, pc ≠ .quotaWait call port) : (u.goto i pc).NoneForgotten :=
  h.goOn hpc hclosing (fun _ => hquotas ▸ rfl)
    (fun _ _ _ _ hstalled => hbooks ▸ h.books.symm ▸ hstalled) hgo

omit [DecidableEq ι] in
theorem events_put (s : State ι) (call : Call) :
    (s.put call).closing = s.closing ∧
      ∀ port, ((s.put call).quotas port).quotaEvent = (s.quotas port).quotaEvent := by
  unfold put
  split
  case h_1 p _ =>
    unfold countData
    dsimp only
    refine ⟨by split <;> rfl, fun port => ?_⟩
    have hsame (t : State ι) (q : Quota) (ht : t.quotas = s.quotas)
        (hq : q.quotaEvent = (s.quotas p).quotaEvent) :
        ((t.setQuota p q).quotas port).quotaEvent = (s.quotas port).quotaEvent := by
      by_cases hport : port = p
      · subst hport
        exact (congrArg Quota.quotaEvent (Function.update_self ..)).trans hq
      · rw [← ht]
        exact congrArg Quota.quotaEvent (Function.update_of_ne hport ..)
    apply hsame
    · split <;> rfl
    · split <;> rfl
  all_goals exact ⟨rfl, fun _ => rfl⟩

/-- The message is put. -/
theorem reserved (h : Serving s t i) {u : State ι} (hpc : u.pc = t.pc)
    (hclosing : u.closing = t.closing) (hquotas : u.quotas = t.quotas)
    (hstalled : ∀ port call', call'.Fits → s.SomeWaits port → s.books.quotaStalled call' port →
      (u.books.sent call).quotaStalled call' port) : (u.reserved i call).NoneForgotten := by
  have hput := Entered.books_put { u with localTxPos := u.localTxPos + call.stride } call
  obtain ⟨hopen, hevents⟩ := events_put { u with localTxPos := u.localTxPos + call.stride } call
  have hbooks := books_sent u call
  have hgo {pc : Pc} (v : State ι)
      (hv : v.pc = (put { u with localTxPos := u.localTxPos + call.stride } call).pc)
      (hvclosing : v.closing =
        (put { u with localTxPos := u.localTxPos + call.stride } call).closing)
      (hvquotas : v.quotas = (put { u with localTxPos := u.localTxPos + call.stride } call).quotas)
      (hvbooks : v.books = u.books.sent call) (hgo : ∀ call port, pc ≠ .quotaWait call port) :
      (v.goto i pc).NoneForgotten := by
    refine h.goOn (hv.trans (hput.1.trans hpc)) (hvclosing.trans (hopen.trans hclosing)) ?_ ?_ hgo
    · intro port
      rw [hvquotas, hevents]
      exact congrArg (fun quotas => (quotas port).quotaEvent) hquotas
    · rw [hvbooks]
      exact hstalled
  unfold State.reserved append
  split
  · exact hgo _ rfl rfl rfl hbooks (by simp)
  · exact hgo { put _ call with locked := false } rfl rfl rfl hbooks (by simp)

/-- A message that may be put, at once or behind a wait for a slot. -/
theorem reserve (h : Serving s t i) (hfits : call.Fits)
    (hpassed : ∀ port, call.msg = .data port → s.quotaStalled call port = false) :
    (t.reserve i call).NoneForgotten := by
  have hmoved : State.books { t with localTxPos := t.messagePos call } = s.books.moved call := by
    rw [books_moved, h.books]
  have hplaced (port : Nat) (call' : Call) (hfits' : call'.Fits) (hsome : s.SomeWaits port)
      (hstalled : s.books.quotaStalled call' port) :
      (s.books.moved call).quotaStalled call' port :=
    (Books.later_moved s.books call).quotaStalled (h.apart port hsome) hfits' rfl hstalled
  have hreserved (v : State ι) (hpc : v.pc = t.pc) (hclosing : v.closing = t.closing)
      (hquotas : v.quotas = t.quotas) (hbooks : v.books = s.books.moved call) :
      (v.reserved i call).NoneForgotten := by
    refine h.reserved hpc hclosing hquotas fun port call' hfits' hsome hstalled => ?_
    rw [hbooks]
    exact (Books.later_moved_sent s.books hfits).quotaStalled_put (h.apart port hsome) hfits' rfl
      (Books.txEndIndex_moved hfits) (fun hport => hpassed port hport) hstalled
  unfold State.reserve
  dsimp only
  split
  case isTrue =>
    split
    case h_1 =>
      split
      case isTrue =>
        refine h.goOn (u := { t with localTxPos := t.messagePos call }) rfl rfl (fun _ => rfl) ?_
          (by simp)
        rwa [hmoved]
      case isFalse =>
        unfold noSpace
        split
        case isTrue =>
          refine h.goOn (u := { t with localTxPos := t.messagePos call }) rfl rfl (fun _ => rfl) ?_
            (by simp)
          rwa [hmoved]
        case isFalse =>
          refine h.goOn (u := { t with localTxPos := t.messagePos call, locked := false }) rfl rfl
            (fun _ => rfl) ?_ (by simp)
          have hbooks : State.books { t with localTxPos := t.messagePos call, locked := false } =
              s.books.moved call := hmoved
          rwa [hbooks]
    case h_2 => exact hreserved _ rfl rfl rfl hmoved
  case isFalse => exact hreserved _ rfl rfl rfl hmoved

omit [DecidableEq ι] in
/-- Permits are there for the senders of the service, or none of the others needs one. -/
theorem setPermits (h : Serving s t i) (port : Nat) (quotaEvent : UInt32)
    (hothers : quotaEvent = 0 → s.OthersWait i port) :
    Serving s (t.setQuota port { t.quotas port with quotaEvent }) i := by
  refine ⟨h.fits, h.apart, h.moves, (books_setPermits ..).trans h.books, h.pc, h.closing, ?_⟩
  have hentered : (t.setQuota port { t.quotas port with quotaEvent }).books = t.books :=
    books_setPermits ..
  intro j hji call p hj hzero
  have hwaits : (t.setQuota port { t.quotas port with quotaEvent }).Waits call p ↔
      s.Waits call p := by
    rw [Waits, Waits, ← quotaStalled_books, hentered, h.books, quotaStalled_books]
    exact and_congr_right fun _ => by rw [← h.closing]; rfl
  rw [hwaits]
  by_cases hp : p = port
  · subst hp
    have hpermits : quotaEvent = 0 :=
      (congrArg Quota.quotaEvent (Function.update_self ..)).symm.trans hzero
    have hj : s.pc j = .quotaWait call p := h.pc ▸ hj
    exact (hothers hpermits j hji call hj).imp_right h.signals_iff.2
  · have hpermits : (t.quotas p).quotaEvent = 0 :=
      (congrArg Quota.quotaEvent (Function.update_of_ne hp ..)).symm.trans hzero
    exact (h.attended j hji call p hj hpermits).imp_left h.waits_iff.1

theorem unlock (h : Serving s t i) : (t.unlock i).NoneForgotten :=
  h.leave (u := { t with locked := false }) rfl rfl rfl rfl (by simp)

omit [DecidableEq ι] in
theorem setPermits_self {quotaEvent : UInt32} (h : (t.quotas port).quotaEvent = quotaEvent) :
    t.setQuota port { t.quotas port with quotaEvent } = t := by
  subst h
  rw [setQuota, Function.update_eq_self]

/-- The sender begins to wait. -/
theorem wait (h : Serving s t i) (hwait : t.Waits call port ∨ t.Signals port) :
    ({ t with locked := false }.goto i (.quotaWait call port)).NoneForgotten := by
  refine noneForgotten_goto h.attended (fun p => ?_) fun call' port' heq _ => ?_
  · rw [h.pc]
    exact h.moves p
  · cases heq
    exact hwait

/-- A sender that is stalled takes all permits and waits. -/
theorem quotaLoop_of_open (h : Serving s t i) (hothers : s.OthersWait i port)
    (hstalled : s.quotaStalled call port) (hclosing : s.closing port = false)
    (hopen : t.srvstate port = .open) (permits : Nat) :
    (t.quotaLoop i call port permits).NoneForgotten := by
  induction permits with
  | zero =>
    have hnone := h.setPermits port 0 fun _ => hothers
    have hwaits := hnone.waits_iff.2 ⟨hstalled, hclosing⟩
    unfold State.quotaLoop
    dsimp only
    rw [if_pos hwaits.1]
    exact hnone.wait (.inl hwaits)
  | succ permits ih =>
    have hwaits := h.waits_iff.2 ⟨hstalled, hclosing⟩
    unfold State.quotaLoop
    rw [if_pos hwaits.1, if_neg (by simp [hwaits.2, hopen])]
    exact ih

theorem checkQuota (h : Serving s t i) (hport : call.msg = .data port) (hfits : call.Fits)
    (hstate : t.srvstate = s.srvstate)
    (hleaves : s.LeavesOthers i call port (t.quotas port).quotaEvent.toNat) :
    (t.checkQuota i call port).NoneForgotten := by
  have hself : UInt32.ofNat (t.quotas port).quotaEvent.toNat = (t.quotas port).quotaEvent :=
    UInt32.ofNat_toNat
  have hstalled : t.quotaStalled call port = s.quotaStalled call port := by
    rw [← quotaStalled_books, h.books, quotaStalled_books]
  have hreserve (hpass : s.quotaStalled call port = false) :
      (t.reserve i call).NoneForgotten := by
    refine h.reserve hfits fun p hp => ?_
    obtain rfl : port = p := Msg.data.inj (hport.symm.trans hp)
    exact hpass
  unfold State.checkQuota
  cases hpermits : (t.quotas port).quotaEvent.toNat with
  | zero =>
    rw [hpermits] at hself
    have hnone : (t.quotas port).quotaEvent = 0 := hself.symm
    unfold State.quotaLoop
    dsimp only
    rw [setPermits_self hnone, hstalled]
    cases hwait : s.quotaStalled call port with
    | false => exact hreserve hwait
    | true =>
      refine h.wait (((hleaves hwait).1 hpermits).imp (fun hopen => ?_) h.signals_iff.2)
      exact h.waits_iff.2 ⟨hwait, hopen⟩
  | succ permits =>
    rw [hpermits] at hself
    unfold State.quotaLoop
    rw [setPermits_self hself.symm, hstalled]
    cases hwait : s.quotaStalled call port with
    | false => exact hreserve hwait
    | true =>
      have hothers := (hleaves hwait).2 (by omega)
      rw [hpermits] at hothers
      rw [if_pos rfl]
      split
      case isTrue hclosed =>
        refine (h.setPermits port (.ofNat permits) fun hlast => hothers fun _ => ?_).unlock
        have hlt := (t.quotas port).quotaEvent.toNat_lt
        have hlast := congrArg UInt32.toNat hlast
        rw [UInt32.toNat_ofNat', UInt32.toNat_zero, Nat.mod_eq_of_lt (by omega)] at hlast
        exact congrArg (· + 1) hlast
      case isFalse hopen =>
        simp only [Bool.or_eq_true, decide_eq_true_eq, not_or, Bool.not_eq_true, not_not] at hopen
        have hclosing : s.closing port = false := h.closing ▸ hopen.1
        refine h.quotaLoop_of_open (hothers fun hclosed => ?_) hwait hclosing hopen.2 permits
        rw [hclosing, ← hstate] at hclosed
        exact absurd hopen.2 (hclosed.resolve_left Bool.false_ne_true)

omit [DecidableEq ι] in
theorem setDataPermits (h : Serving s t i) (dataQuotaEvent : UInt32) :
    Serving s { t with dataQuotaEvent } i :=
  ⟨h.fits, h.apart, h.moves, h.books, h.pc, h.closing, h.attended⟩

theorem dataLoop (h : Serving s t i) (hport : call.msg = .data port) (hfits : call.Fits)
    (hstate : t.srvstate = s.srvstate)
    (hleaves : s.dataStalled call = false →
      s.LeavesOthers i call port (t.quotas port).quotaEvent.toNat) (permits : Nat) :
    (t.dataLoop i call port permits).NoneForgotten := by
  have hstalled (dataQuotaEvent : UInt32) :
      State.dataStalled { t with dataQuotaEvent } call = s.dataStalled call := by
    rw [← dataStalled_books, (h.setDataPermits dataQuotaEvent).books, dataStalled_books]
  induction permits with
  | zero =>
    unfold State.dataLoop
    dsimp only
    rw [hstalled]
    split
    case isTrue =>
      exact h.leave (u := { t with dataQuotaEvent := 0, locked := false }) rfl rfl rfl rfl (by simp)
    case isFalse hpass =>
      exact (h.setDataPermits 0).checkQuota hport hfits hstate (hleaves (by simpa using hpass))
  | succ permits ih =>
    unfold State.dataLoop
    split
    case isTrue => exact ih
    case isFalse hpass =>
      have hpass : s.dataStalled call = false := by
        rw [← hstalled t.dataQuotaEvent]
        simpa using hpass
      exact (h.setDataPermits _).checkQuota hport hfits hstate (hleaves hpass)

theorem dataLocked (h : Serving s t i) (hport : call.msg = .data port) (hfits : call.Fits)
    (hstate : t.srvstate = s.srvstate)
    (hleaves : s.dataStalled call = false →
      s.LeavesOthers i call port (t.quotas port).quotaEvent.toNat) :
    (t.dataLocked i call port).NoneForgotten := by
  unfold State.dataLocked
  split
  case isTrue hpass =>
    refine (h.setDataPermits _).checkQuota hport hfits hstate (hleaves ?_)
    rw [← dataStalled_books, ← h.books, dataStalled_books, dataStalled]
    rcases hpass with heq | hlt
    · simp [heq]
    · have hne : t.dataUseCount ≠ t.dataQuota := by
        rintro heq
        rw [heq] at hlt
        exact absurd hlt (by simp)
      simp [hne]
  case isFalse => exact h.dataLoop hport hfits hstate hleaves _

theorem quotaLocked (h : Serving s t i) (hport : call.msg = .data port) (hfits : call.Fits)
    (hstate : t.srvstate = s.srvstate)
    (hleaves : s.srvstate port = .open →
      s.LeavesOthers i call port (t.quotas port).quotaEvent.toNat) :
    (t.quotaLocked i call port).NoneForgotten := by
  unfold State.quotaLocked
  split
  case isTrue => exact h.unlock
  case isFalse hopen =>
    refine h.checkQuota hport hfits hstate (hleaves ?_)
    rw [← hstate]
    simpa using hopen

theorem sendLocked (h : Serving s t i) (hfits : call.Fits) (hstate : t.srvstate = s.srvstate)
    (hleaves : ∀ port, call.msg = .data port → s.closing port = false →
      s.dataStalled call = false → s.LeavesOthers i call port (t.quotas port).quotaEvent.toNat) :
    (t.sendLocked i call).NoneForgotten := by
  unfold State.sendLocked
  split
  case h_1 port hport =>
    split
    case isTrue => exact h.unlock
    case isFalse hopen =>
      have hopen : s.closing port = false := by
        rw [← h.closing]
        simpa using hopen
      exact h.dataLoop hport hfits hstate (hleaves port hport hopen) _
  case h_2 hother => exact h.reserve hfits fun port hport => absurd hport (hother port)

end Serving

/-! ## Steps -/

omit [DecidableEq ι] in
theorem NoneForgotten.attended (h : s.NoneForgotten) (i : ι) : s.Attended i := fun j _ => h j

omit [DecidableEq ι] in
/-- Nothing that the waiting senders see has changed. -/
theorem NoneForgotten.same (h : s.NoneForgotten) (hpc : t.pc = s.pc)
    (hclosing : t.closing = s.closing) (hquotas : t.quotas = s.quotas)
    (hbooks : t.books = s.books) : t.NoneForgotten := by
  intro i call port hi hzero
  rw [hpc] at hi
  rw [hquotas] at hzero
  rw [Waits, Signals, ← quotaStalled_books, hbooks, quotaStalled_books, hclosing, hpc]
  exact h i call port hi hzero

/-- A thread looks at `slot_mutex`. -/
theorem NoneForgotten.lock (h : u.Attended i) (hi : ∀ port, u.pc i ≠ .markLock port)
    {wait : Pc} {next : State ι → State ι} (hout : ∀ call port, wait ≠ .quotaWait call port)
    (hnext : u.locked = false → (next { u with locked := true }).NoneForgotten) :
    (u.lock i wait next).NoneForgotten := by
  unfold State.lock
  split
  case isTrue => exact noneForgotten_goto h hi fun call port heq => absurd heq (hout call port)
  case isFalse hfree => exact hnext (by simpa using hfree)

/-- A count that does not come round is zero only when it is left alone. -/
theorem up_eq_zero {count : UInt32} {ups : Nat} (hroom : count.toNat + ups < 2 ^ 32)
    (hzero : count + .ofNat ups = 0) : count = 0 ∧ ups = 0 := by
  have hsum := congrArg UInt32.toNat hzero
  have hups : ups % 2 ^ 32 = ups := Nat.mod_eq_of_lt (by omega)
  rw [UInt32.toNat_add, UInt32.toNat_ofNat', hups, Nat.mod_eq_of_lt hroom, UInt32.toNat_zero,
    Nat.add_eq_zero_iff] at hsum
  exact ⟨UInt32.toNat_inj.1 hsum.1, hsum.2⟩

/-- A thread that goes on with `slot_mutex` given back is no sender that waits. -/
theorem HasRoom.unlock {ups : Nat} (h : s.HasRoom port ups) (hpc : u.pc = s.pc)
    (hquotas : u.quotas = s.quotas) : (u.unlock i).HasRoom port ups := by
  rintro ⟨j, call, hj⟩
  have hji : j ≠ i := by
    rintro rfl
    rw [State.unlock, goto_self] at hj
    cases hj
  rw [State.unlock, goto_of_ne hji] at hj
  have hquota : (u.unlock i).quotas port = s.quotas port := congrFun hquotas port
  rw [hquota]
  exact h ⟨j, call, hpc ▸ hj⟩

omit [DecidableEq ι] in
/-- The end of `mark_service_closing_internal` leaves a permit. -/
theorem noneForgotten_markEnd (hroom : s.HasRoom port 1)
    (h : ∀ i call p, p ≠ port → s.pc i = .quotaWait call p →
      (s.quotas p).quotaEvent = 0 → s.Waits call p ∨ s.Signals p) :
    (s.markEnd port).NoneForgotten := by
  intro i call p hi hzero
  by_cases hp : p = port
  · subst hp
    have hself : (s.markEnd p).quotas p =
        { s.quotas p with quotaEvent := (s.quotas p).quotaEvent + 1 } := Function.update_self ..
    rw [hself] at hzero
    exact absurd (up_eq_zero (hroom ⟨i, call, hi⟩) hzero).2 Nat.one_ne_zero
  · have hquota : (s.markEnd port).quotas p = s.quotas p := Function.update_of_ne hp ..
    rw [hquota] at hzero
    have hbooks : (s.markEnd port).books = s.books := books_setPermits s port _
    rw [Waits, ← quotaStalled_books, hbooks, quotaStalled_books]
    exact h i call p hp hi hzero

/-- Recycling ups the event of a service, or leaves its senders stalled. -/
structure Recycled (ups : Nat) (q q' : Quota) : Prop where
  events : q'.quotaEvent = q.quotaEvent + .ofNat ups
  slot : ups = 0 → q'.slotUseCount = q.slotUseCount ∧ q'.slotQuota = q.slotQuota ∧
    q'.previousTxIndex = q.previousTxIndex
  message : ups = 0 → q.messageUseCount = q.messageQuota → q'.messageUseCount = q'.messageQuota

theorem Recycled.refl (q : Quota) : Recycled 0 q q :=
  ⟨(UInt32.add_zero _).symm, fun _ => ⟨rfl, rfl, rfl⟩, fun _ h => h⟩

theorem Recycled.trans {ups ups' : Nat} {q q' q'' : Quota} (h : Recycled ups q q')
    (h' : Recycled ups' q' q'') : Recycled (ups + ups') q q'' := by
  refine ⟨?_, fun hnone => ?_, fun hnone hfull => ?_⟩
  · rw [h'.events, h.events, UInt32.ofNat_add, UInt32.add_assoc]
  · obtain ⟨hslot, hquota, hindex⟩ := h.slot (by omega)
    obtain ⟨hslot', hquota', hindex'⟩ := h'.slot (by omega)
    exact ⟨hslot'.trans hslot, hquota'.trans hquota, hindex'.trans hindex⟩
  · exact h'.message (by omega) (h.message (by omega) hfull)

theorem recycled_freeMessage (q : Quota) : ∃ ups ≤ 1, Recycled ups q q.freeMessage := by
  unfold Quota.freeMessage
  by_cases hfull : q.messageUseCount = q.messageQuota
  · simp only [hfull, if_true]
    exact ⟨1, Nat.le_refl _, rfl, nofun, nofun⟩
  · simp only [hfull, if_false]
    exact ⟨0, Nat.zero_le _, (UInt32.add_zero _).symm, fun _ => ⟨rfl, rfl, rfl⟩,
      fun _ h => absurd h hfull⟩

theorem recycled_freeSlot (q : Quota) : ∃ ups ≤ 1, Recycled ups q q.freeSlot := by
  unfold Quota.freeSlot
  split
  · exact ⟨1, Nat.le_refl _, rfl, nofun, nofun⟩
  · exact ⟨0, Nat.zero_le _, .refl q⟩

/-- One message of a slot that comes back. -/
theorem recycled_message (found : List Nat) (quotas : Nat → Quota) (p port : Nat) :
    ∃ ups ≤ 2, Recycled ups (quotas port) (Function.update quotas p
      (if p ∈ found then (quotas p).freeMessage else (quotas p).freeMessage.freeSlot) port) := by
  by_cases hp : port = p
  · subst hp
    rw [Function.update_self]
    obtain ⟨ups, hups, hmessage⟩ := recycled_freeMessage (quotas port)
    split
    case isTrue => exact ⟨ups, by omega, hmessage⟩
    case isFalse =>
      obtain ⟨ups', hups', hslot⟩ := recycled_freeSlot (quotas port).freeMessage
      exact ⟨ups + ups', by omega, hmessage.trans hslot⟩
  · rw [Function.update_of_ne hp]
    exact ⟨0, Nat.zero_le _, .refl _⟩

theorem recycled_freeMessages (found : List Nat) (quotas : Nat → Quota) (ports : List Nat)
    (port : Nat) :
    ∃ ups ≤ 2 * ports.length,
      Recycled ups (quotas port) (freeMessages found quotas ports port) := by
  induction ports generalizing found quotas with
  | nil => exact ⟨0, Nat.le_refl _, .refl _⟩
  | cons p ports ih =>
    obtain ⟨ups, hups, hmessage⟩ := recycled_message found quotas p port
    obtain ⟨ups', hups', hrest⟩ := ih (p :: found) (Function.update quotas p
      (if p ∈ found then (quotas p).freeMessage else (quotas p).freeMessage.freeSlot))
    rw [List.length_cons]
    exact ⟨ups + ups', by omega, hmessage.trans hrest⟩

theorem NoneForgotten.freeSlot (h : s.NoneForgotten) {ports : List Nat}
    (hroom : ∀ port, s.HasRoom port (2 * ports.length)) :
    (s.step (.freeSlot ports)).NoneForgotten := by
  intro i call port hi hzero
  obtain ⟨ups, hups, hrecycled⟩ := recycled_freeMessages [] s.quotas ports port
  have hlt := hroom port ⟨i, call, hi⟩
  have hcount : (s.quotas port).quotaEvent + .ofNat ups = 0 := hrecycled.events.symm.trans hzero
  obtain ⟨hnone, rfl⟩ := up_eq_zero (by omega) hcount
  refine (h i call port hi hnone).imp (And.imp_left fun hwaits => ?_) id
  obtain ⟨hslot, hquota, hindex⟩ := hrecycled.slot rfl
  rw [← quotaStalled_books, Books.quotaStalled_iff] at hwaits ⊢
  refine hwaits.imp (hrecycled.message rfl) fun ⟨hne, hfull⟩ => ?_
  have hne : s.txEndIndex call ≠ (s.quotas port).previousTxIndex := hne
  have hfull : (s.quotas port).slotUseCount = (s.quotas port).slotQuota := hfull
  rw [← hindex] at hne
  rw [← hslot, ← hquota] at hfull
  exact ⟨hne, hfull⟩

omit [DecidableEq ι] in
/-- The quotas of one service are set, with a permit if senders of it wait. -/
theorem NoneForgotten.setQuota (h : s.NoneForgotten) {q : Quota}
    (hpermit : s.SomeWaits port → q.quotaEvent ≠ 0) : (s.setQuota port q).NoneForgotten := by
  intro i call p hi hzero
  by_cases hp : p = port
  · subst hp
    have hself : (s.setQuota p q).quotas p = q := Function.update_self ..
    rw [hself] at hzero
    exact absurd hzero (hpermit ⟨i, call, hi⟩)
  · have hother : (s.setQuota port q).quotas p = s.quotas p := Function.update_of_ne hp ..
    rw [hother] at hzero
    refine (h i call p hi hzero).imp_left (And.imp_left fun hwaits => ?_)
    unfold quotaStalled
    rw [hother]
    exact hwaits

omit [DecidableEq ι] in
theorem NoneForgotten.reopen (h : s.NoneForgotten) (port : Nat) :
    (s.reopen port).NoneForgotten := by
  intro i call p hi hzero
  refine (h i call p hi hzero).imp_left (And.imp_right fun hopen => ?_)
  by_cases hp : p = port
  · subst hp
    exact Function.update_self ..
  · exact (Function.update_of_ne hp ..).trans hopen

theorem NoneForgotten.mark (h : s.NoneForgotten) (hroom : s.HasRoom port 1) (i : ι)
    (shThread : Bool) : (s.step (.mark i port shThread)).NoneForgotten := by
  unfold State.step
  dsimp only
  split
  case isTrue hready =>
    have hi (p : Nat) : s.pc i ≠ .markLock p := by
      intro hmark
      rw [hmark] at hready
      simp at hready
    -- only the senders of the service that is closing see it
    have hothers (j : ι) (call : Call) (p : Nat) (hp : p ≠ port)
        (hj : s.pc j = .quotaWait call p) (hzero : (s.quotas p).quotaEvent = 0) :
        Waits { s with closing := Function.update s.closing port true } call p ∨
          s.Signals p := by
      refine (h j call p hj hzero).imp_left (And.imp_right fun hopen => ?_)
      exact (Function.update_of_ne hp ..).trans hopen
    split
    case isTrue => exact noneForgotten_markEnd hroom hothers
    case isFalse =>
      unfold State.lock
      split
      case isTrue =>
        intro j call p hj hzero
        by_cases hji : j = i
        · subst hji
          rw [goto_self] at hj
          cases hj
        · rw [goto_of_ne hji] at hj
          by_cases hp : p = port
          · subst hp
            exact .inr ⟨i, goto_self ..⟩
          · exact (hothers j call p hp hj hzero).imp_right (signals_goto hi)
      case isFalse =>
        have hunlocked := hroom.unlock (i := i) (u := { s with
          closing := Function.update s.closing port true, locked := true }) rfl rfl
        refine noneForgotten_markEnd hunlocked fun j call p hp hj hzero => ?_
        by_cases hji : j = i
        · subst hji
          rw [unlock, goto_self] at hj
          cases hj
        · rw [unlock, goto_of_ne hji] at hj
          exact (hothers j call p hp hj hzero).imp_right (signals_goto hi)
  case isFalse => exact h

/-- No sender is forgotten, and the threads are as they are in a run. -/
structure Heedful (s : State ι) : Prop where
  held : ∃ owner, s.Held owner
  none : s.NoneForgotten

namespace Heedful

omit [DecidableEq ι] in
theorem fits (h : s.Heedful) (j : ι) (call : Call) (port : Nat)
    (hj : s.pc j = .quotaWait call port) : call.Fits := by
  obtain ⟨owner, hheld⟩ := h.held
  have hproper := hheld.proper j
  rw [hj] at hproper
  exact hproper.2

omit [DecidableEq ι] in
theorem serving (h : s.Heedful) (hapart : s.Apart) (hi : ∀ port, s.pc i ≠ .markLock port) :
    Serving s { s with locked := true } i :=
  ⟨h.fits, hapart, hi, rfl, rfl, rfl, h.none.attended i⟩

theorem resume (h : s.Heedful) (hapart : s.Apart) (hok : s.passesOn (.resume i)) :
    (s.resume i).NoneForgotten := by
  obtain ⟨owner, hheld⟩ := h.held
  have hproper := hheld.proper i
  have hattended := h.none.attended i
  unfold passesOn at hok
  dsimp only at hok
  unfold State.resume
  cases hs : s.pc i with
  | idle | holds => exact h.none
  | holdLock =>
    have hi (p : Nat) : s.pc i ≠ .markLock p := by simp [hs]
    exact NoneForgotten.lock hattended hi (by simp) fun _ =>
      (h.serving hapart hi).leave rfl rfl rfl rfl (by simp)
  | sendLock call =>
    have hi (p : Nat) : s.pc i ≠ .markLock p := by simp [hs]
    rw [hs] at hproper hok
    exact NoneForgotten.lock hattended hi (by simp) fun hfree =>
      (h.serving hapart hi).sendLocked hproper rfl fun port hport => hok port hport hfree
  | dataWait call port =>
    have hi (p : Nat) : s.pc i ≠ .markLock p := by simp [hs]
    rw [hs] at hproper hok
    dsimp only at hok ⊢
    split
    case isTrue => exact h.none
    case isFalse hevent =>
      refine NoneForgotten.lock (u := { s with dataQuotaEvent := s.dataQuotaEvent - 1 }) hattended
        hi (by simp) fun hfree => ?_
      exact ((h.serving hapart hi).setDataPermits (s.dataQuotaEvent - 1)).dataLocked hproper.1
        hproper.2 rfl (hok hevent hfree)
  | dataLock call port =>
    have hi (p : Nat) : s.pc i ≠ .markLock p := by simp [hs]
    rw [hs] at hproper hok
    exact NoneForgotten.lock hattended hi (by simp) fun hfree =>
      (h.serving hapart hi).dataLocked hproper.1 hproper.2 rfl (hok hfree)
  | quotaWait call port =>
    have hi (p : Nat) : s.pc i ≠ .markLock p := by simp [hs]
    rw [hs] at hproper hok
    dsimp only at hok ⊢
    obtain ⟨hlast, hleaves⟩ := hok
    split
    case isTrue => exact h.none
    case isFalse hevent =>
      have hone (hzero : (s.quotas port).quotaEvent - 1 = 0) : (s.quotas port).quotaEvent = 1 := by
        rw [← UInt32.sub_add_cancel (s.quotas port).quotaEvent 1, hzero]
        rfl
      have htaken := (h.serving hapart hi).setPermits port ((s.quotas port).quotaEvent - 1)
        fun hzero => hlast (hone hzero)
      split
      case isTrue => exact htaken.leave (u := s.setQuota port _) rfl rfl rfl rfl (by simp)
      case isFalse hclosing =>
        have hclosing : s.closing port = false := by simpa [State.setQuota] using hclosing
        refine NoneForgotten.lock (u := s.setQuota port _) htaken.attended hi (by simp)
          fun hfree => ?_
        refine htaken.quotaLocked hproper.1 hproper.2 rfl fun hopen => ?_
        have hpermits : ((s.setQuota port { s.quotas port with
            quotaEvent := (s.quotas port).quotaEvent - 1 }).quotas port).quotaEvent =
            (s.quotas port).quotaEvent - 1 :=
          congrArg Quota.quotaEvent (Function.update_self (β := fun _ => Quota) port _ s.quotas)
        have hleaves := hleaves hevent hclosing hfree hopen
        rw [← hpermits] at hleaves
        exact hleaves
  | quotaLock call port =>
    have hi (p : Nat) : s.pc i ≠ .markLock p := by simp [hs]
    rw [hs] at hproper hok
    exact NoneForgotten.lock hattended hi (by simp) fun hfree =>
      (h.serving hapart hi).quotaLocked hproper.1 hproper.2 rfl (hok hfree)
  | slotWait call =>
    have hi (p : Nat) : s.pc i ≠ .markLock p := by simp [hs]
    rw [hs] at hproper hok
    dsimp only at hok ⊢
    split
    case h_1 => exact h.none
    case h_2 slotAvailable havailable =>
      refine (h.serving hapart hi).reserved (u := { s with slotAvailable }) rfl rfl rfl
        fun p call' hfits hsome hstalled => ?_
      exact (Books.later_sent s.books hproper).quotaStalled_put (hapart p hsome) hfits rfl rfl
        (fun hport => hok p hport (by omega) hsome) hstalled
  | markLock port =>
    rw [hs] at hok
    dsimp only
    unfold State.lock
    split
    case isTrue =>
      rw [State.goto, ← hs, Function.update_eq_self]
      exact h.none
    case isFalse =>
      refine noneForgotten_markEnd (hok.unlock (u := { s with locked := true }) rfl rfl)
        fun j call p hp hj hzero => ?_
      by_cases hji : j = i
      · subst hji
        rw [unlock, goto_self] at hj
        cases hj
      · rw [unlock, goto_of_ne hji] at hj
        refine (h.none j call p hj hzero).imp_right fun hmarking => ?_
        obtain ⟨k, hk⟩ := hmarking
        have hki : k ≠ i := by
          rintro rfl
          exact hp (Pc.markLock.inj (hk.symm.trans hs))
        exact ⟨k, by rw [unlock, goto_of_ne hki]; exact hk⟩

/-- What a step preserves. -/
theorem step (h : s.Heedful) {e : Event ι} (he : e.Fits) (hok : s.passesOn e) (hapart : s.Apart) :
    (s.step e).Heedful := by
  obtain ⟨owner, hheld⟩ := h.held
  refine ⟨(hheld.step he).2, ?_⟩
  have hattended (i : ι) := h.none.attended i
  cases e with
  | queueMessage i call =>
    unfold State.step
    dsimp only
    split
    case isTrue hproper =>
      split
      case h_1 hs =>
        have hi (p : Nat) : s.pc i ≠ .markLock p := by simp [hs]
        split
        case isTrue => exact h.none
        case isFalse =>
          exact NoneForgotten.lock (hattended i) hi (by simp) fun hfree =>
            (h.serving hapart hi).sendLocked he rfl fun port hport => hok port hport hs hfree
      case h_2 hs =>
        have hi (p : Nat) : s.pc i ≠ .markLock p := by simp [hs]
        split
        case isTrue hflags =>
          have hserving : Serving s s i :=
            ⟨h.fits, hapart, hi, rfl, rfl, rfl, hattended i⟩
          refine hserving.reserve he fun port hport => ?_
          rw [Bool.and_eq_true] at hflags
          simp [Call.proper, hport, hflags.1] at hproper
        case isFalse => exact h.none
      case h_3 => exact h.none
    case isFalse => exact h.none
  | mark i port shThread => exact h.none.mark hok i shThread
  | resume i => exact h.resume hapart hok
  | takeMutex i =>
    unfold State.step
    dsimp only
    split
    case h_1 hs =>
      have hi (p : Nat) : s.pc i ≠ .markLock p := by simp [hs]
      exact NoneForgotten.lock (hattended i) hi (by simp) fun _ =>
        (h.serving hapart hi).leave rfl rfl rfl rfl (by simp)
    case h_2 => exact h.none
  | giveMutex i =>
    unfold State.step
    dsimp only
    split
    case h_1 hs =>
      have hi (p : Nat) : s.pc i ≠ .markLock p := by simp [hs]
      have hgiven : (s.unlock i).NoneForgotten :=
        noneForgotten_goto (u := { s with locked := false }) (hattended i) hi (by simp)
      exact hgiven.same rfl rfl rfl rfl
    case h_2 => exact h.none
  | pauseSent =>
    unfold State.step
    dsimp only
    split
    · exact h.none.same rfl rfl rfl rfl
    · exact h.none
  | paused => exact h.none.same rfl rfl rfl rfl
  | freeSlot ports => exact h.none.freeSlot hok
  | setState port srvstate => exact h.none.same rfl rfl rfl rfl
  | listen port => exact h.none.reopen port
  | addService port srvstate =>
    have hadded (q : Quota) : ((s.setQuota port q).reopen port).NoneForgotten :=
      (h.none.setQuota fun hsome => absurd hsome hok).reopen port
    exact (hadded _).same rfl rfl rfl rfl
  | setSlotQuota port value =>
    unfold State.step State.setSlotQuota
    dsimp only
    split
    · refine h.none.setQuota fun hsome hzero => ?_
      simp only [hok.2 hsome, if_true] at hzero
      exact absurd (up_eq_zero (hok.1 hsome) hzero).2 Nat.one_ne_zero
    · exact h.none
  | setMessageQuota port value =>
    unfold State.step State.setMessageQuota
    dsimp only
    split
    · refine h.none.setQuota fun hsome hzero => ?_
      simp only [hok.2 hsome, if_true] at hzero
      exact absurd (up_eq_zero (hok.1 hsome) hzero).2 Nat.one_ne_zero
    · exact h.none

end Heedful

/-- No sender is forgotten in any run in which permits go to senders that need them, and
neither the ring nor the count of an event comes round while one waits. -/
theorem run_noneForgotten (slotHandler : ι) (slots : Nat) (es : List (Event ι))
    (hes : Machine.Along step (fun s e => e.Fits ∧ s.passesOn e ∧ s.Apart)
      (boot slotHandler slots) es) :
    (run (boot slotHandler slots) es).NoneForgotten := by
  have hboot : (boot slotHandler slots).Heedful :=
    ⟨⟨none, held_boot slotHandler slots⟩, fun _ _ _ h => (by cases h)⟩
  have hrun : (run (boot slotHandler slots) es).Heedful :=
    hes.invariant (I := Heedful) (fun _ _ hs he => hs.step he.1 he.2.1 he.2.2) hboot
  exact hrun.none

/-- Two senders wait when the slot handler closes their service. The first is woken and returns;
the second is not. -/
def closedWaiting : List (Event (Option Bool)) :=
  [.addService 0 .opening, .setState 0 .open, .setMessageQuota 0 1,
    .queueMessage (some false) ⟨.data 0, 16, true, false, false⟩,
    .queueMessage (some false) ⟨.data 0, 16, true, false, false⟩,
    .queueMessage (some true) ⟨.data 0, 16, true, false, false⟩,
    .mark none 0 true, .resume (some false)]

theorem forgotten_closedWaiting : ¬(run (boot none 4) closedWaiting).NoneForgotten := by
  intro h
  have hwait : (run (boot none 4) closedWaiting).pc (some true) =
      .quotaWait ⟨.data 0, 16, true, false, false⟩ 0 := by decide +kernel
  have hnone : ((run (boot none 4) closedWaiting).quotas 0).quotaEvent = 0 := by decide +kernel
  have hclosing : (run (boot none 4) closedWaiting).closing 0 = true := by decide +kernel
  have hunmarked : ∀ j, (run (boot none 4) closedWaiting).pc j ≠ .markLock 0 := by decide +kernel
  rcases h _ _ _ hwait hnone with ⟨-, hopen⟩ | ⟨j, hj⟩
  · cases hclosing.symm.trans hopen
  · exact hunmarked j hj

/-- A single sender is woken by a slot that comes back. -/
theorem run_noneForgotten_recycled :
    (run (boot () 4) [.addService 0 .opening, .setState 0 .open, .setMessageQuota 0 1,
      .queueMessage () ⟨.data 0, 16, true, false, false⟩,
      .queueMessage () ⟨.data 0, 16, true, false, false⟩, .freeSlot [0],
      .resume ()]).NoneForgotten := by
  have hidle (s : State Unit) (h : s.pc () = .idle) (port : Nat) : ¬s.SomeWaits port := by
    rintro ⟨i, call, hi⟩
    cases h.symm.trans hi
  have hleaves (s : State Unit) {call : Call} {port permits : Nat} (h : s.closing port = false) :
      s.LeavesOthers () call port permits :=
    fun _ => ⟨fun _ => .inl h, fun _ _ i hi => absurd rfl hi⟩
  have hwaiting (s : State Unit) (h : s.pc () = .quotaWait ⟨.data 0, 16, true, false, false⟩ 0)
      (hzero : s.books.Apart 0) : s.Apart := by
    rintro port ⟨i, call, hi⟩
    cases h.symm.trans hi
    exact hzero
  have hfits : Call.Fits ⟨.data 0, 16, true, false, false⟩ := ⟨by decide, by decide⟩
  have hroom (s : State Unit) (h : s.pc () = .quotaWait ⟨.data 0, 16, true, false, false⟩ 0)
      (hzero : (s.quotas 0).quotaEvent = 0) (port : Nat) : s.HasRoom port 2 := by
    rintro ⟨i, call, hi⟩
    cases h.symm.trans hi
    rw [hzero]
    decide
  apply run_noneForgotten
  refine ⟨⟨trivial, hidle _ rfl 0, fun port h => absurd h (hidle _ rfl port)⟩,
    ⟨trivial, trivial, fun port h => absurd h (hidle _ rfl port)⟩,
    ⟨trivial, ⟨fun h => absurd h (hidle _ rfl 0), fun h => absurd h (hidle _ rfl 0)⟩,
      fun port h => absurd h (hidle _ rfl port)⟩,
    ⟨hfits, fun port _ _ _ hopen _ => hleaves _ hopen,
      fun port h => absurd h (hidle _ (by decide +kernel) port)⟩,
    ⟨hfits, fun port _ _ _ hopen _ => hleaves _ hopen,
      fun port h => absurd h (hidle _ (by decide +kernel) port)⟩,
    ⟨trivial, hroom _ (by decide +kernel) (by decide +kernel), hwaiting _ (by decide +kernel) ?_⟩,
    ⟨trivial, ?_, hwaiting _ (by decide +kernel) ?_⟩, trivial⟩
  · intro _
    decide +kernel
  · refine ⟨fun _ i hi => absurd rfl hi, fun _ hopen _ _ => hleaves _ hopen⟩
  · intro _
    decide +kernel

end State

end Closing
