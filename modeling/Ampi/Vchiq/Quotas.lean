-- SUMMARY: When the data quota and the quotas of the services bound the counts of use.
import Ampi.Vchiq.Accounting
import Mathlib

/-!
# Quotas

A sender is let pass when its count is not equal to its quota, so a bound that holds before
the message holds behind it only if nothing has happened since the test: the count has not
been taken up by another sender, nor the quota been taken down to it.
-/

namespace Closing

open Slots

/-! ## Entries in the books -/

theorem txIndex_ofNat (P : Nat) : State.txIndex (.ofNat P) = (P / 4096 % 2 ^ 20 : Nat) := by
  have hsize : slotSize.toNat = 4096 := rfl
  rw [State.txIndex, slotQueueIndexFromPos, UInt32.toNat_div, hsize, UInt32.toNat_ofNat']
  congr 1
  omega

namespace Books

variable {b : Books} {call : Call} {port : Nat}

/-- The slot that a message ends in is found without the padding. -/
theorem txEndIndex_moved (h : call.Fits) : (b.moved call).txEndIndex call = b.txEndIndex call := by
  obtain ⟨hpos, hle⟩ := h
  have hpos : 0 < call.stride.toNat := UInt32.lt_iff_toNat_lt.1 hpos
  have hle : call.stride.toNat ≤ 4096 := UInt32.le_iff_toNat_le.1 hle
  have hlast (P : Nat) : UInt32.ofNat P + call.stride - 1 = .ofNat (P + call.stride.toNat - 1) := by
    have hone : (1 : UInt32) = .ofNat 1 := rfl
    rw [hone, UInt32.ofNat_sub (by omega), UInt32.ofNat_add, UInt32.ofNat_toNat]
  have hspace := slotSpace b.localTxPos.toNat
  have hlt := Nat.mod_lt b.localTxPos.toNat (show 0 < 4096 by omega)
  rw [UInt32.ofNat_toNat] at hspace
  unfold txEndIndex moved
  dsimp only
  rw [hspace]
  split
  · next hgt =>
    have hgt := UInt32.lt_iff_toNat_lt.1 hgt
    rw [UInt32.toNat_ofNat'] at hgt
    nth_rewrite 1 [← UInt32.ofNat_toNat (x := b.localTxPos)]
    rw [← UInt32.ofNat_add, hlast, txIndex_ofNat]
    nth_rewrite 3 [← UInt32.ofNat_toNat (x := b.localTxPos)]
    rw [hlast, txIndex_ofNat]
    congr 1
    omega
  · rfl

/-- There is room for the message among the slots for DATA. -/
def DataRoom (b : Books) (call : Call) : Prop :=
  b.txEndIndex call = b.previousDataIndex ∨ b.dataUseCount < b.dataQuota

/-- There is room for the message within the quota of its service. -/
def Room (b : Books) (call : Call) (port : Nat) : Prop :=
  (b.accounts port).messageUseCount < (b.accounts port).messageQuota ∧
    (b.txEndIndex call = (b.accounts port).previousTxIndex ∨
      (b.accounts port).slotUseCount < (b.accounts port).slotQuota)

/-- The counts of the service are within its quotas. -/
structure Within (b : Books) (port : Nat) : Prop where
  slot : (b.accounts port).slotUseCount ≤ (b.accounts port).slotQuota
  message : (b.accounts port).messageUseCount ≤ (b.accounts port).messageQuota

theorem dataRoom_of_not_stalled (hb : b.dataUseCount ≤ b.dataQuota)
    (h : b.dataStalled call = false) : b.DataRoom call := by
  by_cases heq : b.txEndIndex call = b.previousDataIndex
  · exact .inl heq
  · refine .inr (UInt16.lt_of_le_of_ne hb fun hfull => ?_)
    simp [dataStalled, heq, hfull] at h

theorem room_of_not_stalled (hb : b.Within port) (h : b.quotaStalled call port = false) :
    b.Room call port := by
  simp only [quotaStalled, decide_eq_false_iff_not, not_or, not_and] at h
  refine ⟨UInt16.lt_of_le_of_ne hb.message h.1, ?_⟩
  by_cases heq : b.txEndIndex call = (b.accounts port).previousTxIndex
  · exact .inl heq
  · exact .inr (UInt16.lt_of_le_of_ne hb.slot (h.2 heq))

theorem uint16_succ_le {a b : UInt16} (h : a < b) : a + 1 ≤ b := by
  have hlt := UInt16.lt_iff_toNat_lt.1 h
  have hmax := b.toNat_lt
  rw [UInt16.le_iff_toNat_le, UInt16.toNat_add, UInt16.toNat_one]
  omega

theorem dataUseCount_sent (hb : b.dataUseCount ≤ b.dataQuota)
    (hroom : ∀ port, call.msg = .data port → b.DataRoom call) :
    (b.sent call).dataUseCount ≤ (b.sent call).dataQuota := by
  unfold sent
  split
  · next port hport =>
    unfold countData
    dsimp only
    split
    · next hne =>
      exact uint16_succ_le ((hroom port hport).resolve_left hne)
    · exact hb
  · exact hb

theorem within_sent (hb : ∀ port, b.Within port)
    (hroom : ∀ port, call.msg = .data port → b.Room call port) (port : Nat) :
    (b.sent call).Within port := by
  unfold sent
  split
  · next p hp =>
    obtain ⟨hmessage, hslot⟩ := hroom p hp
    by_cases hport : port = p
    · subst hport
      unfold countData Account.count
      constructor <;> dsimp only <;> rw [Function.update_self] <;> split
      · next hne => exact uint16_succ_le (hslot.resolve_left hne)
      · exact (hb port).slot
      · exact uint16_succ_le hmessage
      · exact uint16_succ_le hmessage
    · have hsame : (countData { b with localTxPos := b.localTxPos + call.stride } p).accounts port =
          b.accounts port := Function.update_of_ne hport ..
      exact ⟨hsame ▸ (hb port).slot, hsame ▸ (hb port).message⟩
  · exact ⟨(hb port).slot, (hb port).message⟩

theorem uint16_pred_le (a : UInt16) : (if 0 < a then a - 1 else a) ≤ a := by
  split
  · next h =>
    have hpos : 0 < a.toNat := UInt16.lt_iff_toNat_lt.1 h
    have hone : (1 : UInt16) ≤ a := by
      rw [UInt16.le_iff_toNat_le, UInt16.toNat_one]
      exact hpos
    rw [UInt16.le_iff_toNat_le, UInt16.toNat_sub_of_le _ _ hone]
    exact Nat.sub_le ..
  · exact UInt16.le_refl _

/-- Recycling takes counts down and leaves the rest. -/
structure Account.Freed (a a' : Account) : Prop where
  slotQuota : a'.slotQuota = a.slotQuota
  slotUseCount : a'.slotUseCount ≤ a.slotUseCount
  messageQuota : a'.messageQuota = a.messageQuota
  messageUseCount : a'.messageUseCount ≤ a.messageUseCount
  previousTxIndex : a'.previousTxIndex = a.previousTxIndex

theorem Account.Freed.refl (a : Account) : Account.Freed a a :=
  ⟨rfl, UInt16.le_refl _, rfl, UInt16.le_refl _, rfl⟩

theorem Account.Freed.trans {a a' a'' : Account} (h : Account.Freed a a')
    (h' : Account.Freed a' a'') : Account.Freed a a'' :=
  ⟨h'.slotQuota.trans h.slotQuota, UInt16.le_trans h'.slotUseCount h.slotUseCount,
    h'.messageQuota.trans h.messageQuota, UInt16.le_trans h'.messageUseCount h.messageUseCount,
    h'.previousTxIndex.trans h.previousTxIndex⟩

theorem freed_freeMessage (a : Account) : Account.Freed a a.freeMessage :=
  ⟨rfl, UInt16.le_refl _, rfl, uint16_pred_le _, rfl⟩

theorem freed_freeSlot (a : Account) : Account.Freed a a.freeSlot := by
  unfold Closing.Account.freeSlot
  split
  · next h =>
    have hle := uint16_pred_le a.slotUseCount
    rw [if_pos h] at hle
    exact ⟨rfl, hle, rfl, UInt16.le_refl _, rfl⟩
  · exact .refl a

theorem freed_freeMessages (found : List Nat) (accounts : Nat → Account) (ports : List Nat)
    (port : Nat) : Account.Freed (accounts port) (freeMessages found accounts ports port) := by
  induction ports generalizing found accounts with
  | nil => exact .refl _
  | cons p ports ih =>
    refine .trans ?_ (ih ..)
    by_cases hp : port = p
    · subst hp
      rw [Function.update_self]
      split
      · exact freed_freeMessage _
      · exact (freed_freeMessage _).trans (freed_freeSlot _)
    · rw [Function.update_of_ne hp]
      exact .refl _

theorem dataUseCount_freeSlot (ports : List Nat) :
    (b.freeSlot ports).dataUseCount ≤ b.dataUseCount := by
  unfold freeSlot
  dsimp only
  have hle := uint16_pred_le b.dataUseCount
  by_cases h : 0 < b.dataUseCount
  · rw [if_pos h] at hle
    split
    · exact hle
    · exact UInt16.le_refl _
  · rw [if_neg fun hboth => h hboth.2]
    exact UInt16.le_refl _

end Books

namespace State

variable {ι : Type*} [DecidableEq ι]

/-! ## The data quota -/

/-- The data quota holds, and will when the sender that waits for a slot has sent. -/
structure DataBound (s : State ι) : Prop where
  held : ∃ owner, s.Held owner
  bound : s.books.dataUseCount ≤ s.books.dataQuota
  room : ∀ i call port, s.pc i = .slotWait call → call.msg = .data port → s.books.DataRoom call

namespace DataBound

variable {s s' : State ι}

omit [DecidableEq ι] in
/-- An entry that leaves the data quota and its count alone. -/
theorem same (h : s.DataBound) (hheld : ∃ owner, s'.Held owner)
    (hpos : s'.books.localTxPos = s.books.localTxPos)
    (hquota : s'.books.dataQuota = s.books.dataQuota)
    (hcount : s'.books.dataUseCount ≤ s.books.dataUseCount)
    (hindex : s'.books.previousDataIndex = s.books.previousDataIndex)
    (hwait : ∀ i call, s'.pc i = .slotWait call → s.pc i = .slotWait call) : s'.DataBound := by
  refine ⟨hheld, ?_, fun i call port hs hport => ?_⟩
  · rw [hquota]
    exact UInt16.le_trans hcount h.bound
  · have hroom := h.room i call port (hwait i call hs) hport
    unfold Books.DataRoom Books.txEndIndex at hroom ⊢
    rw [hpos, hquota, hindex]
    exact hroom.imp_right (UInt16.lt_of_le_of_lt hcount)

theorem step (h : s.DataBound) {e : Event ι} (he : e.Fits) (hre : s.rechecks e) :
    (s.step e).DataBound := by
  obtain ⟨owner, hheld⟩ := h.held
  obtain ⟨hturn, hheld'⟩ := hheld.step he
  have hroom {call : Call} (hpassed : s.Passed (s.rechecks e) call) (port : Nat)
      (hport : call.msg = .data port) : (s.books.moved call).DataRoom call := by
    have hstalled := (hpassed.quotas port hport).2 hre
    have hroom := Books.dataRoom_of_not_stalled h.bound hstalled
    rw [Books.DataRoom, Books.txEndIndex_moved hpassed.fits]
    exact hroom
  cases hturn with
  | still hbooks hwait =>
    exact h.same hheld' (by rw [hbooks]) (by rw [hbooks]) (hbooks ▸ UInt16.le_refl _)
      (by rw [hbooks]) hwait
  | place call hnone hpassed hbooks hplace hwait =>
    refine ⟨hheld', hbooks ▸ h.bound, fun i call' port hs hport => ?_⟩
    obtain rfl := hwait i call' hs
    rw [hbooks]
    exact hroom hpassed port hport
  | send call hnone hpassed hbooks hnone' =>
    refine ⟨hheld', ?_, fun i call' port hs => absurd hs (hnone' i call')⟩
    rw [hbooks]
    exact Books.dataUseCount_sent h.bound (hroom hpassed)
  | sendWaiting i call hs hbooks hnone' =>
    refine ⟨hheld', ?_, fun i call' port hs => absurd hs (hnone' i call')⟩
    rw [hbooks]
    exact Books.dataUseCount_sent h.bound fun port hport => h.room i call port hs hport
  | freeSlot ports hbooks hpc =>
    refine h.same hheld' (by rw [hbooks]; rfl) (by rw [hbooks]; rfl) ?_ (by rw [hbooks]; rfl)
      fun i call hs => hpc ▸ hs
    rw [hbooks]
    exact Books.dataUseCount_freeSlot ports
  | addService port srvstate _ hbooks hpc =>
    exact h.same hheld' (by rw [hbooks]; rfl) (by rw [hbooks]; rfl) (hbooks ▸ UInt16.le_refl _)
      (by rw [hbooks]; rfl) fun i call hs => hpc ▸ hs
  | setSlotQuota port value _ hbooks hpc =>
    unfold Books.setSlotQuota at hbooks
    dsimp only at hbooks
    split at hbooks <;>
      exact h.same hheld' (by rw [hbooks]) (by rw [hbooks]) (hbooks ▸ UInt16.le_refl _)
        (by rw [hbooks]) fun i call hs => hpc ▸ hs
  | setMessageQuota port value _ hbooks hpc =>
    unfold Books.setMessageQuota at hbooks
    dsimp only at hbooks
    split at hbooks <;>
      exact h.same hheld' (by rw [hbooks]) (by rw [hbooks]) (hbooks ▸ UInt16.le_refl _)
        (by rw [hbooks]) fun i call hs => hpc ▸ hs

end DataBound

omit [DecidableEq ι] in
theorem held_boot (slotHandler : ι) (slots : Nat) : (boot slotHandler slots).Held none :=
  ⟨fun _ h => (by cases h), fun _ => rfl, fun _ => trivial⟩

/-- DATA keeps to its quota in every run in which no sender comes back from the wait for the
quota of its service to find that DATA has no slot left. -/
theorem dataUseCount_le_dataQuota (slotHandler : ι) (slots : Nat) (es : List (Event ι))
    (hes : Machine.Along step (fun s e => e.Fits ∧ s.rechecks e) (boot slotHandler slots) es) :
    (run (boot slotHandler slots) es).dataUseCount ≤
      (run (boot slotHandler slots) es).dataQuota := by
  have hboot : (boot slotHandler slots).DataBound :=
    ⟨⟨none, held_boot slotHandler slots⟩, UInt16.zero_le, fun _ _ _ h => (by cases h)⟩
  have hrun : (run (boot slotHandler slots) es).DataBound :=
    hes.invariant (I := DataBound) (fun _ _ hs he => hs.step he.1 he.2) hboot
  exact hrun.bound

/-- A message of service 1 fills the slot while one of service 0 waits for its quota of
messages, behind the test of the data quota. -/
def overtaken : List (Event Bool) :=
  [.addService 0 .opening, .setState 0 .open, .addService 1 .opening, .setState 1 .open,
    .setSlotQuota 0 2, .setMessageQuota 0 1,
    .queueMessage false ⟨.data 0, 16, true, false, false⟩,
    .queueMessage false ⟨.data 0, 16, true, false, false⟩,
    .queueMessage true ⟨.data 1, 4080, true, false, false⟩,
    .setMessageQuota 0 2, .resume false]

theorem dataUseCount_overtaken :
    ¬(run (boot true 2) overtaken).dataUseCount ≤ (run (boot true 2) overtaken).dataQuota := by
  decide +kernel

/-- Without the message of service 1 the slot has room. -/
theorem dataUseCount_le_dataQuota_resumed :
    (run (boot true 2 : State Bool) (overtaken.take 8 ++ overtaken.drop 9)).dataUseCount ≤
      (run (boot true 2 : State Bool) (overtaken.take 8 ++ overtaken.drop 9)).dataQuota := by
  apply dataUseCount_le_dataQuota
  simp only [overtaken, List.take, List.drop, List.cons_append, List.nil_append, Machine.Along,
    Event.Fits, Call.Fits]
  decide +kernel

/-! ## The quotas of the services -/

/-- A service that is added finds its port's counts within the default quotas, and a quota is
not taken down to its count while a sender of the service that needs more waits for a slot. -/
def leavesRoom (s : State ι) : Event ι → Prop
  | .addService port _ =>
    let q := s.quotas port
    q.slotUseCount ≤ s.defaultSlotQuota ∧ q.messageUseCount ≤ s.defaultMessageQuota ∧
      ∀ i call, s.pc i = .slotWait call → call.msg = .data port →
        q.messageUseCount < s.defaultMessageQuota ∧
          (q.slotUseCount ≠ 0 ∧ s.txEndIndex call = q.previousTxIndex ∨
            q.slotUseCount < s.defaultSlotQuota)
  | .setSlotQuota port value =>
    let q := s.quotas port
    ∀ i call, s.pc i = .slotWait call → call.msg = .data port →
      s.txEndIndex call ≠ q.previousTxIndex →
        optionValue value s.defaultSlotQuota ≠ q.slotUseCount.toNat
  | .setMessageQuota port value =>
    let q := s.quotas port
    ∀ i call, s.pc i = .slotWait call → call.msg = .data port →
      optionValue value s.defaultMessageQuota ≠ q.messageUseCount.toNat
  | _ => True

/-- The quotas of all services hold, and will when the sender that waits for a slot has
sent. -/
structure QuotaBound (s : State ι) : Prop where
  held : ∃ owner, s.Held owner
  within : ∀ port, s.books.Within port
  room : ∀ i call port, s.pc i = .slotWait call → call.msg = .data port → s.books.Room call port

namespace QuotaBound

variable {s s' : State ι} {port : Nat}

omit [DecidableEq ι] in
/-- An entry in the account of one service. -/
theorem change (h : s.QuotaBound) (hheld : ∃ owner, s'.Held owner) {a : Account}
    (hbooks : s'.books = { s.books with accounts := Function.update s.books.accounts port a })
    (hpc : s'.pc = s.pc) (hslot : a.slotUseCount ≤ a.slotQuota)
    (hmessage : a.messageUseCount ≤ a.messageQuota)
    (hroom : ∀ i call, s.pc i = .slotWait call → call.msg = .data port →
      a.messageUseCount < a.messageQuota ∧
        (s.txEndIndex call = a.previousTxIndex ∨ a.slotUseCount < a.slotQuota)) :
    s'.QuotaBound := by
  have hself : s'.books.accounts port = a := by
    rw [hbooks]
    exact Function.update_self ..
  have hother {p : Nat} (hp : p ≠ port) : s'.books.accounts p = s.books.accounts p := by
    rw [hbooks]
    exact Function.update_of_ne hp ..
  have hend (call : Call) : s'.books.txEndIndex call = s.books.txEndIndex call := by
    rw [hbooks]
    rfl
  refine ⟨hheld, fun p => ?_, fun i call p hs hport => ?_⟩ <;> by_cases hp : p = port
  · subst hp
    exact ⟨hself ▸ hslot, hself ▸ hmessage⟩
  · exact ⟨hother hp ▸ (h.within p).slot, hother hp ▸ (h.within p).message⟩
  · subst hp
    have hroom := hroom i call (hpc ▸ hs) hport
    rw [Books.Room, hself, hend]
    exact hroom
  · rw [Books.Room, hother hp, hend]
    exact h.room i call p (hpc ▸ hs) hport

omit [DecidableEq ι] in
/-- A quota that is taken is at least the count, and fits its type. -/
theorem optionValue_toNat {value : Int} {default count : UInt16}
    (h : count.toNat ≤ optionValue value default ∧ optionValue value default < 65535) :
    ((UInt16.ofNat (optionValue value default).toNat).toNat : Int) = optionValue value default := by
  rw [UInt16.toNat_ofNat']
  omega

omit [DecidableEq ι] in
theorem le_optionValue {value : Int} {default count : UInt16}
    (h : count.toNat ≤ optionValue value default ∧ optionValue value default < 65535) :
    count ≤ UInt16.ofNat (optionValue value default).toNat := by
  have hvalue := optionValue_toNat h
  rw [UInt16.le_iff_toNat_le]
  omega

omit [DecidableEq ι] in
theorem lt_optionValue {value : Int} {default count : UInt16}
    (h : count.toNat ≤ optionValue value default ∧ optionValue value default < 65535)
    (hne : optionValue value default ≠ count.toNat) :
    count < UInt16.ofNat (optionValue value default).toNat := by
  have hvalue := optionValue_toNat h
  rw [UInt16.lt_iff_toNat_lt]
  omega

omit [DecidableEq ι] in
theorem still (h : s.QuotaBound) (hheld : ∃ owner, s'.Held owner) (hbooks : s'.books = s.books)
    (hwait : ∀ i call, s'.pc i = .slotWait call → s.pc i = .slotWait call) : s'.QuotaBound :=
  ⟨hheld, hbooks ▸ h.within, fun i call port hs hport =>
    hbooks ▸ h.room i call port (hwait i call hs) hport⟩

omit [DecidableEq ι] in
theorem addService (h : s.QuotaBound) (hheld : ∃ owner, s'.Held owner)
    (hbooks : s'.books = s.books.addService port) (hpc : s'.pc = s.pc) {srvstate : SrvState}
    (hok : s.leavesRoom (.addService port srvstate)) : s'.QuotaBound := by
  obtain ⟨hslot, hmessage, hroom⟩ := hok
  by_cases hzero : (s.books.accounts port).slotUseCount = 0
  · rw [Books.addService] at hbooks
    simp only [hzero, if_true] at hbooks
    refine h.change hheld hbooks hpc UInt16.zero_le hmessage fun i call hs hport => ?_
    obtain ⟨hmessage, hslot⟩ := hroom i call hs hport
    have hzero : (s.quotas port).slotUseCount = 0 := hzero
    rw [hzero] at hslot
    exact ⟨hmessage, .inr (hslot.resolve_left fun hboth => hboth.1 rfl)⟩
  · rw [Books.addService] at hbooks
    simp only [hzero, if_false] at hbooks
    refine h.change hheld hbooks hpc hslot hmessage fun i call hs hport => ?_
    obtain ⟨hmessage, hslot⟩ := hroom i call hs hport
    exact ⟨hmessage, hslot.imp_left And.right⟩

omit [DecidableEq ι] in
theorem setSlotQuota (h : s.QuotaBound) (hheld : ∃ owner, s'.Held owner) {value : Int}
    (hbooks : s'.books = s.books.setSlotQuota port value) (hpc : s'.pc = s.pc)
    (hok : s.leavesRoom (.setSlotQuota port value)) : s'.QuotaBound := by
  unfold Books.setSlotQuota at hbooks
  dsimp only at hbooks
  split at hbooks
  · next hvalue =>
    refine h.change hheld hbooks hpc (le_optionValue hvalue) (h.within port).message
      fun i call hs hport => ?_
    obtain ⟨hmessage, -⟩ := h.room i call port hs hport
    by_cases hend : s.txEndIndex call = (s.quotas port).previousTxIndex
    · exact ⟨hmessage, .inl hend⟩
    · exact ⟨hmessage, .inr (lt_optionValue hvalue (hok i call hs hport hend))⟩
  · exact h.still hheld hbooks fun _ _ hs => hpc ▸ hs

omit [DecidableEq ι] in
theorem setMessageQuota (h : s.QuotaBound) (hheld : ∃ owner, s'.Held owner) {value : Int}
    (hbooks : s'.books = s.books.setMessageQuota port value) (hpc : s'.pc = s.pc)
    (hok : s.leavesRoom (.setMessageQuota port value)) : s'.QuotaBound := by
  unfold Books.setMessageQuota at hbooks
  dsimp only at hbooks
  split at hbooks
  · next hvalue =>
    refine h.change hheld hbooks hpc (h.within port).slot (le_optionValue hvalue)
      fun i call hs hport => ?_
    obtain ⟨-, hslot⟩ := h.room i call port hs hport
    exact ⟨lt_optionValue hvalue (hok i call hs hport), hslot⟩
  · exact h.still hheld hbooks fun _ _ hs => hpc ▸ hs

theorem step (h : s.QuotaBound) {e : Event ι} (he : e.Fits) (hok : s.leavesRoom e) :
    (s.step e).QuotaBound := by
  obtain ⟨owner, hheld⟩ := h.held
  obtain ⟨hturn, hheld'⟩ := hheld.step he
  have hroom {call : Call} (hpassed : s.Passed (s.rechecks e) call) (port : Nat)
      (hport : call.msg = .data port) : (s.books.moved call).Room call port := by
    have hstalled := (hpassed.quotas port hport).1
    have hroom := Books.room_of_not_stalled (h.within port) hstalled
    rw [Books.Room, Books.txEndIndex_moved hpassed.fits]
    exact hroom
  have hmoved (call : Call) (port : Nat) : (s.books.moved call).Within port :=
    ⟨(h.within port).slot, (h.within port).message⟩
  cases hturn with
  | still hbooks hwait => exact h.still hheld' hbooks hwait
  | place call hnone hpassed hbooks hplace hwait =>
    refine ⟨hheld', fun port => ?_, fun i call' port hs hport => ?_⟩
    · rw [hbooks]
      exact hmoved call port
    · obtain rfl := hwait i call' hs
      rw [hbooks]
      exact hroom hpassed port hport
  | send call hnone hpassed hbooks hnone' =>
    refine ⟨hheld', ?_, fun i call' port hs => absurd hs (hnone' i call')⟩
    rw [hbooks]
    exact Books.within_sent (hmoved call) (hroom hpassed)
  | sendWaiting i call hs hbooks hnone' =>
    refine ⟨hheld', ?_, fun i call' port hs => absurd hs (hnone' i call')⟩
    rw [hbooks]
    exact Books.within_sent h.within fun port hport => h.room i call port hs hport
  | freeSlot ports hbooks hpc =>
    have hfreed (port : Nat) := Books.freed_freeMessages [] s.books.accounts ports port
    refine ⟨hheld', fun port => ?_, fun i call port hs hport => ?_⟩
    · rw [hbooks]
      obtain ⟨hslotQuota, hslot, hmessageQuota, hmessage, -⟩ := hfreed port
      refine ⟨?_, ?_⟩
      · exact hslotQuota.symm ▸ UInt16.le_trans hslot (h.within port).slot
      · exact hmessageQuota.symm ▸ UInt16.le_trans hmessage (h.within port).message
    · rw [hbooks]
      obtain ⟨hslotQuota, hslot, hmessageQuota, hmessage, hindex⟩ := hfreed port
      obtain ⟨hmessageRoom, hslotRoom⟩ := h.room i call port (hpc ▸ hs) hport
      refine ⟨hmessageQuota.symm ▸ UInt16.lt_of_le_of_lt hmessage hmessageRoom, ?_⟩
      rcases hslotRoom with heq | hlt
      · exact .inl (heq.trans hindex.symm)
      · exact .inr (hslotQuota.symm ▸ UInt16.lt_of_le_of_lt hslot hlt)
  | addService port srvstate heq hbooks hpc =>
    subst heq
    exact h.addService hheld' hbooks hpc hok
  | setSlotQuota port value heq hbooks hpc =>
    subst heq
    exact h.setSlotQuota hheld' hbooks hpc hok
  | setMessageQuota port value heq hbooks hpc =>
    subst heq
    exact h.setMessageQuota hheld' hbooks hpc hok

end QuotaBound

/-- Every service keeps to its quotas in every run in which its port is not taken over with
more in use than the default quotas allow, and no quota is taken down to what is in use
under a sender that waits for a slot. -/
theorem use_le_quota (slotHandler : ι) (slots : Nat) (es : List (Event ι))
    (hes : Machine.Along step (fun s e => e.Fits ∧ s.leavesRoom e) (boot slotHandler slots) es)
    (port : Nat) :
    ((run (boot slotHandler slots) es).quotas port).slotUseCount ≤
        ((run (boot slotHandler slots) es).quotas port).slotQuota ∧
      ((run (boot slotHandler slots) es).quotas port).messageUseCount ≤
        ((run (boot slotHandler slots) es).quotas port).messageQuota := by
  have hboot : (boot slotHandler slots).QuotaBound :=
    ⟨⟨none, held_boot slotHandler slots⟩, fun _ => ⟨UInt16.zero_le, UInt16.zero_le⟩,
      fun _ _ _ h => (by cases h)⟩
  have hrun : (run (boot slotHandler slots) es).QuotaBound :=
    hes.invariant (I := QuotaBound) (fun _ _ hs he => hs.step he.1 he.2) hboot
  exact ⟨(hrun.within port).slot, (hrun.within port).message⟩

/-- A service with a larger quota than the default uses three slots; its port is taken over
while the peer still has them. -/
def takenOver : List (Event Bool) :=
  [.addService 0 .opening, .setState 0 .open, .setSlotQuota 0 3,
    .queueMessage false ⟨.data 0, 4096, true, false, false⟩,
    .queueMessage false ⟨.data 0, 4096, true, false, false⟩,
    .queueMessage false ⟨.data 0, 4096, true, false, false⟩,
    .mark true 0 true, .setState 0 .free, .addService 0 .opening]

theorem slotUseCount_takenOver :
    ¬((run (boot true 4) takenOver).quotas 0).slotUseCount ≤
      ((run (boot true 4) takenOver).quotas 0).slotQuota := by
  decide +kernel

/-- The port is taken over when the peer has given the slots back. -/
theorem use_le_quota_takenOver :
    let es := takenOver.take 8 ++ [.freeSlot [0], .addService 0 .opening]
    ((run (boot true 4) es).quotas 0).slotUseCount ≤ ((run (boot true 4) es).quotas 0).slotQuota ∧
      ((run (boot true 4) es).quotas 0).messageUseCount ≤
        ((run (boot true 4) es).quotas 0).messageQuota := by
  intro es
  have hnone (s : State Bool) (h : ∀ i, (s.pc i).inside = false) (i : Bool) (call : Call) :
      s.pc i ≠ .slotWait call := by
    intro hs
    have hi := h i
    rw [hs] at hi
    cases hi
  have hfits : Call.Fits ⟨.data 0, 4096, true, false, false⟩ := ⟨by decide, by decide⟩
  apply use_le_quota
  refine ⟨⟨trivial, by decide, by decide, fun i call h => ?_⟩, ⟨trivial, trivial⟩,
    ⟨trivial, fun i call h => ?_⟩, ⟨hfits, trivial⟩, ⟨hfits, trivial⟩, ⟨hfits, trivial⟩,
    ⟨trivial, trivial⟩, ⟨trivial, trivial⟩, ⟨trivial, trivial⟩,
    ⟨trivial, by decide +kernel, by decide +kernel, fun i call h => ?_⟩, trivial⟩
  all_goals exact absurd h (hnone _ (by decide +kernel) i call)

end State

end Closing
