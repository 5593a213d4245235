-- SUMMARY: The counts behind the quotas as books of their own, and what a step enters in them.
import Ampi.Vchiq.Closing

/-!
# Accounting

The counts behind the quotas change where a DATA message is put into the stream, where a
slot is recycled, and where a service is added or has its quotas set. The books are these
counts alone, with what the tests of the quotas compare them to; threads, permits and the
states of services are left to the system.

A message is put with `slot_mutex` held, at once or behind the wait for a slot, and after
the tests of both quotas; behind the wait for the quota of its service, only that one has
been tested again.
-/

namespace Closing

open Slots

/-! ## Books -/

/-- The counts of a service. -/
structure Account where
  slotQuota : UInt16
  slotUseCount : UInt16
  messageQuota : UInt16
  messageUseCount : UInt16
  previousTxIndex : Int

namespace Account

/-- A DATA message that ends at `txEndIndex`. -/
def count (a : Account) (txEndIndex : Int) : Account :=
  let a := { a with messageUseCount := a.messageUseCount + 1 }
  if txEndIndex ≠ a.previousTxIndex then
    { a with previousTxIndex := txEndIndex, slotUseCount := a.slotUseCount + 1 }
  else a

def freeMessage (a : Account) : Account :=
  { a with
    messageUseCount := if 0 < a.messageUseCount then a.messageUseCount - 1 else a.messageUseCount }

def freeSlot (a : Account) : Account :=
  if 0 < a.slotUseCount then { a with slotUseCount := a.slotUseCount - 1 } else a

end Account

def Quota.account (q : Quota) : Account where
  slotQuota := q.slotQuota
  slotUseCount := q.slotUseCount
  messageQuota := q.messageQuota
  messageUseCount := q.messageUseCount
  previousTxIndex := q.previousTxIndex

structure Books where
  localTxPos : UInt32
  dataQuota : UInt16
  dataUseCount : UInt16
  previousDataIndex : Int
  defaultSlotQuota : UInt16
  defaultMessageQuota : UInt16
  accounts : Nat → Account

namespace Books

def txEndIndex (b : Books) (call : Call) : Int := State.txIndex (b.localTxPos + call.stride - 1)

def dataStalled (b : Books) (call : Call) : Bool :=
  b.txEndIndex call ≠ b.previousDataIndex ∧ b.dataUseCount = b.dataQuota

def quotaStalled (b : Books) (call : Call) (port : Nat) : Bool :=
  let a := b.accounts port
  a.messageUseCount = a.messageQuota ∨
    b.txEndIndex call ≠ a.previousTxIndex ∧ a.slotUseCount = a.slotQuota

/-- The message starts at its position. -/
def moved (b : Books) (call : Call) : Books :=
  let slotSpace := slotSize - (b.localTxPos &&& slotMask)
  { b with
    localTxPos := if call.stride > slotSpace then b.localTxPos + slotSpace else b.localTxPos }

def countData (b : Books) (port : Nat) : Books :=
  let txEndIndex := State.txIndex (b.localTxPos - 1)
  { b with
    previousDataIndex := txEndIndex
    dataUseCount :=
      if txEndIndex ≠ b.previousDataIndex then b.dataUseCount + 1 else b.dataUseCount
    accounts := Function.update b.accounts port ((b.accounts port).count txEndIndex) }

/-- The message is in its place. -/
def sent (b : Books) (call : Call) : Books :=
  let b := { b with localTxPos := b.localTxPos + call.stride }
  match call.msg with
  | .data port => b.countData port
  | _ => b

/-- The messages of a freed slot. -/
def freeMessages (found : List Nat) (accounts : Nat → Account) : List Nat → Nat → Account
  | [] => accounts
  | port :: ports =>
    let a := (accounts port).freeMessage
    let a := if port ∈ found then a else a.freeSlot
    freeMessages (port :: found) (Function.update accounts port a) ports

def freeSlot (b : Books) (ports : List Nat) : Books :=
  { b with
    accounts := freeMessages [] b.accounts ports
    dataUseCount :=
      if ports ≠ [] ∧ 0 < b.dataUseCount then b.dataUseCount - 1 else b.dataUseCount }

def addService (b : Books) (port : Nat) : Books :=
  let a := b.accounts port
  let a := { a with slotQuota := b.defaultSlotQuota, messageQuota := b.defaultMessageQuota }
  let a :=
    if a.slotUseCount = 0 then { a with previousTxIndex := State.txIndex b.localTxPos - 1 } else a
  { b with accounts := Function.update b.accounts port a }

def setSlotQuota (b : Books) (port : Nat) (value : Int) : Books :=
  let a := b.accounts port
  let value := State.optionValue value b.defaultSlotQuota
  if a.slotUseCount.toNat ≤ value ∧ value < 65535 then
    { b with
      accounts := Function.update b.accounts port { a with slotQuota := .ofNat value.toNat } }
  else b

def setMessageQuota (b : Books) (port : Nat) (value : Int) : Books :=
  let a := b.accounts port
  let value := State.optionValue value b.defaultMessageQuota
  if a.messageUseCount.toNat ≤ value ∧ value < 65535 then
    { b with
      accounts := Function.update b.accounts port { a with messageQuota := .ofNat value.toNat } }
  else b

end Books

/-- `WARN_ON (!(stride <= VCHIQ_SLOT_SIZE))`; `calc_stride` adds a header. -/
def Call.Fits (call : Call) : Prop := 0 < call.stride ∧ call.stride ≤ slotSize

/-- A message that is to be sent fits a slot. -/
def Event.Fits {ι : Type*} : Event ι → Prop
  | .queueMessage _ call => call.Fits
  | _ => True

/-- The message that the thread is sending fits a slot, and behind the beginning of
`queue_message` the port is its own. -/
def Pc.Proper : Pc → Prop
  | .sendLock call | .slotWait call => call.Fits
  | .dataWait call port | .dataLock call port | .quotaWait call port | .quotaLock call port =>
    call.msg = .data port ∧ call.Fits
  | _ => True

namespace State

variable {ι : Type*} [DecidableEq ι]

def books (s : State ι) : Books where
  localTxPos := s.localTxPos
  dataQuota := s.dataQuota
  dataUseCount := s.dataUseCount
  previousDataIndex := s.previousDataIndex
  defaultSlotQuota := s.defaultSlotQuota
  defaultMessageQuota := s.defaultMessageQuota
  accounts port := (s.quotas port).account

variable {s t : State ι} {i : ι} {call : Call} {port : Nat} {owner : Option ι}

omit [DecidableEq ι] in
theorem dataStalled_books (s : State ι) (call : Call) :
    s.books.dataStalled call = s.dataStalled call := rfl

omit [DecidableEq ι] in
theorem quotaStalled_books (s : State ι) (call : Call) (port : Nat) :
    s.books.quotaStalled call port = s.quotaStalled call port := rfl

/-- An account is replaced. -/
theorem account_update (quotas : Nat → Quota) (port : Nat) (q : Quota) :
    (fun p => (Function.update quotas port q p).account) =
      Function.update (fun p => (quotas p).account) port q.account := by
  funext p
  by_cases hp : p = port
  · rw [hp, Function.update_self, Function.update_self]
  · rw [Function.update_of_ne hp, Function.update_of_ne hp]

omit [DecidableEq ι] in
theorem books_setQuota (s : State ι) (port : Nat) (q : Quota) :
    (s.setQuota port q).books =
      { s.books with accounts := Function.update s.books.accounts port q.account } := by
  have h := account_update s.quotas port q
  unfold books setQuota
  dsimp only
  rw [h]

omit [DecidableEq ι] in
/-- Permits of an event come and go. -/
theorem books_setPermits (s : State ι) (port : Nat) (quotaEvent : UInt32) :
    (s.setQuota port { s.quotas port with quotaEvent }).books = s.books := by
  rw [books_setQuota]
  have hsame : Function.update s.books.accounts port
      (Quota.account { s.quotas port with quotaEvent }) = s.books.accounts :=
    Function.update_eq_self port s.books.accounts
  rw [hsame]

omit [DecidableEq ι] in
theorem books_countData (s : State ι) (port : Nat) :
    (s.countData port).books = s.books.countData port := by
  unfold countData
  dsimp only
  rw [books_setQuota]
  have haccount : (if txIndex (s.localTxPos - 1) ≠ (s.quotas port).previousTxIndex then
      { s.quotas port with
        messageUseCount := (s.quotas port).messageUseCount + 1
        previousTxIndex := txIndex (s.localTxPos - 1)
        slotUseCount := (s.quotas port).slotUseCount + 1 }
      else { s.quotas port with
        messageUseCount := (s.quotas port).messageUseCount + 1 }).account =
      (s.books.accounts port).count (txIndex (s.localTxPos - 1)) := by
    unfold Account.count
    dsimp only [books, Quota.account]
    split <;> rfl
  by_cases hdata : txIndex (s.localTxPos - 1) = s.previousDataIndex
  · rw [if_neg (not_not.2 hdata), haccount, Books.countData]
    have hdata' : State.txIndex (s.books.localTxPos - 1) = s.books.previousDataIndex := hdata
    rw [if_neg (not_not.2 hdata')]
    dsimp only [books] at hdata' ⊢
    rw [hdata']
  · rw [if_pos hdata]
    have hcount := haccount
    dsimp only at hcount ⊢
    rw [hcount, Books.countData]
    have hdata' : State.txIndex (s.books.localTxPos - 1) ≠ s.books.previousDataIndex := hdata
    rw [if_pos hdata']
    rfl

omit [DecidableEq ι] in
theorem books_sent (s : State ι) (call : Call) :
    ({ s with localTxPos := s.localTxPos + call.stride }.put call).books = s.books.sent call := by
  unfold put Books.sent
  cases call.msg with
  | data port => exact books_countData _ port
  | close port => rfl
  | other => rfl

omit [DecidableEq ι] in
theorem books_moved (s : State ι) (call : Call) :
    State.books { s with localTxPos := s.messagePos call } = s.books.moved call := rfl

theorem account_freeSlot (q : Quota) : q.freeSlot.account = q.account.freeSlot := by
  unfold Quota.freeSlot Account.freeSlot
  by_cases h : 0 < q.slotUseCount
  · have h' : 0 < q.account.slotUseCount := h
    rw [if_pos h, if_pos h']
    rfl
  · have h' : ¬0 < q.account.slotUseCount := h
    rw [if_neg h, if_neg h']

theorem account_freeMessages (found : List Nat) (quotas : Nat → Quota) (ports : List Nat) :
    (fun p => (freeMessages found quotas ports p).account) =
      Books.freeMessages found (fun p => (quotas p).account) ports := by
  induction ports generalizing found quotas with
  | nil => rfl
  | cons port ports ih =>
    rw [freeMessages, ih, Books.freeMessages, account_update]
    congr 2
    split
    · rfl
    · exact account_freeSlot _

theorem books_freeSlot (s : State ι) (ports : List Nat) :
    (s.step (.freeSlot ports)).books = s.books.freeSlot ports := by
  have h := account_freeMessages [] s.quotas ports
  unfold books step Books.freeSlot
  dsimp only
  rw [h]

omit [DecidableEq ι] in
theorem books_addService (s : State ι) (port : Nat) (srvstate : SrvState) :
    (s.addService port srvstate).books = s.books.addService port := by
  unfold addService
  dsimp only
  have hbooks (q : Quota) :
      ((s.setQuota port q).reopen port).books = (s.setQuota port q).books := rfl
  change ((s.setQuota port _).reopen port).books = _
  rw [hbooks, books_setQuota, Books.addService]
  by_cases h : (s.quotas port).slotUseCount = 0
  · have h' : (s.books.accounts port).slotUseCount = 0 := h
    rw [if_pos h]
    dsimp only
    rw [if_pos h']
    rfl
  · have h' : (s.books.accounts port).slotUseCount ≠ 0 := h
    rw [if_neg h]
    dsimp only
    rw [if_neg h']
    rfl

omit [DecidableEq ι] in
theorem books_setSlotQuota (s : State ι) (port : Nat) (value : Int) :
    (s.setSlotQuota port value).books = s.books.setSlotQuota port value := by
  unfold setSlotQuota Books.setSlotQuota
  by_cases h : (s.quotas port).slotUseCount.toNat ≤ optionValue value s.defaultSlotQuota ∧
      optionValue value s.defaultSlotQuota < 65535
  · have h' : (s.books.accounts port).slotUseCount.toNat ≤
        optionValue value s.books.defaultSlotQuota ∧
        optionValue value s.books.defaultSlotQuota < 65535 := h
    simp only [h, h', and_self, if_true]
    exact books_setQuota ..
  · have h' : ¬((s.books.accounts port).slotUseCount.toNat ≤
        optionValue value s.books.defaultSlotQuota ∧
        optionValue value s.books.defaultSlotQuota < 65535) := h
    simp only [h, h', if_false]

omit [DecidableEq ι] in
theorem books_setMessageQuota (s : State ι) (port : Nat) (value : Int) :
    (s.setMessageQuota port value).books = s.books.setMessageQuota port value := by
  unfold setMessageQuota Books.setMessageQuota
  by_cases h : (s.quotas port).messageUseCount.toNat ≤ optionValue value s.defaultMessageQuota ∧
      optionValue value s.defaultMessageQuota < 65535
  · have h' : (s.books.accounts port).messageUseCount.toNat ≤
        optionValue value s.books.defaultMessageQuota ∧
        optionValue value s.books.defaultMessageQuota < 65535 := h
    simp only [h, h', and_self, if_true]
    exact books_setQuota ..
  · have h' : ¬((s.books.accounts port).messageUseCount.toNat ≤
        optionValue value s.books.defaultMessageQuota ∧
        optionValue value s.books.defaultMessageQuota < 65535) := h
    simp only [h, h', if_false]

/-! ## Turns -/

/-- No thread waits for a slot. -/
def NoneWaits (s : State ι) : Prop := ∀ i call, s.pc i ≠ .slotWait call

/-- A thread that gets `slot_mutex` back behind the wait for the quota of its service, and
goes on to send, does not find that DATA has no slot left. -/
def rechecks (s : State ι) : Event ι → Bool
  | .resume i =>
    s.locked ||
      match s.pc i with
      | .quotaWait call port =>
        (s.quotas port).quotaEvent = 0 || s.closing port || s.srvstate port ≠ .open ||
          s.quotaStalled call port || !s.dataStalled call
      | .quotaLock call port =>
        s.srvstate port ≠ .open || s.quotaStalled call port || !s.dataStalled call
      | _ => true
  | _ => true

/-- A DATA message has passed the tests of the quotas, as far as they are made. -/
structure Passed (s : State ι) (recheck : Bool) (call : Call) : Prop where
  fits : call.Fits
  quotas : ∀ port, call.msg = .data port →
    s.quotaStalled call port = false ∧ (recheck → s.dataStalled call = false)

/-- What a step can do to the books and to the threads that wait for a slot. -/
inductive Turn (s s' : State ι) (e : Event ι) : Prop where
  | still (hbooks : s'.books = s.books)
      (hwait : ∀ i call, s'.pc i = .slotWait call → s.pc i = .slotWait call)
  /-- There is no slot for the message now; its thread may wait for one. -/
  | place (call : Call) (hnone : s.NoneWaits) (hpassed : s.Passed (s.rechecks e) call)
      (hbooks : s'.books = s.books.moved call) (hplace : s'.localTxPos &&& slotMask = 0)
      (hwait : ∀ i call', s'.pc i = .slotWait call' → call' = call)
  | send (call : Call) (hnone : s.NoneWaits) (hpassed : s.Passed (s.rechecks e) call)
      (hbooks : s'.books = (s.books.moved call).sent call) (hnone' : s'.NoneWaits)
  | sendWaiting (i : ι) (call : Call) (hs : s.pc i = .slotWait call)
      (hbooks : s'.books = s.books.sent call) (hnone' : s'.NoneWaits)
  | freeSlot (ports : List Nat) (hbooks : s'.books = s.books.freeSlot ports) (hpc : s'.pc = s.pc)
  | addService (port : Nat) (srvstate : SrvState) (he : e = .addService port srvstate)
      (hbooks : s'.books = s.books.addService port) (hpc : s'.pc = s.pc)
  | setSlotQuota (port : Nat) (value : Int) (he : e = .setSlotQuota port value)
      (hbooks : s'.books = s.books.setSlotQuota port value) (hpc : s'.pc = s.pc)
  | setMessageQuota (port : Nat) (value : Int) (he : e = .setMessageQuota port value)
      (hbooks : s'.books = s.books.setMessageQuota port value) (hpc : s'.pc = s.pc)

/-- Who may be inside. -/
structure Held (s : State ι) (owner : Option ι) : Prop where
  inside : ∀ i, (s.pc i).inside → owner = some i
  free : s.locked = false → owner = none
  proper : ∀ i, (s.pc i).Proper

namespace Held

omit [DecidableEq ι] in
theorem same (h : s.Held owner) (hpc : t.pc = s.pc) (hlocked : t.locked = s.locked) :
    t.Held owner :=
  ⟨hpc ▸ h.inside, hlocked ▸ h.free, hpc ▸ h.proper⟩

/-- A thread moves, and may take the mutex with it or leave it. -/
theorem goto (h : s.Held owner) {owner' : Option ι} {locked : Bool} {pc : Pc}
    (hothers : ∀ j, j ≠ i → owner = some j → owner' = some j)
    (hinside : pc.inside → owner' = some i) (hfree : locked = false → owner' = none)
    (hproper : pc.Proper) : ({ s with locked }.goto i pc).Held owner' := by
  refine ⟨fun j hj => ?_, hfree, fun j => ?_⟩ <;> by_cases hji : j = i
  · rw [hji] at hj ⊢
    exact hinside (by simpa using hj)
  · rw [goto_of_ne hji] at hj
    exact hothers j hji (h.inside j hj)
  · rw [hji, goto_self]
    exact hproper
  · rw [goto_of_ne hji]
    exact h.proper j

/-- A thread waits, or is done, without the mutex. -/
theorem goto_outside (h : s.Held owner) {pc : Pc} (hout : pc.inside = false)
    (hproper : pc.Proper) : (s.goto i pc).Held owner :=
  h.goto (fun _ _ hj => hj) (by simp [hout]) h.free hproper

/-- The thread with the mutex goes on with it. -/
theorem goto_inside (h : s.Held (some i)) {pc : Pc} (hproper : pc.Proper) :
    (s.goto i pc).Held (some i) :=
  h.goto (fun _ _ hj => hj) (fun _ => rfl) h.free hproper

/-- The thread with the mutex gives it back. -/
theorem goto_free (h : s.Held (some i)) {pc : Pc} (hout : pc.inside = false)
    (hproper : pc.Proper) : ({ s with locked := false }.goto i pc).Held none :=
  h.goto (fun j hji hj => absurd (Option.some.inj hj).symm hji) (by simp [hout]) (fun _ => rfl)
    hproper

theorem unlock (h : s.Held (some i)) : (s.unlock i).Held none := h.goto_free rfl trivial

end Held

/-- A step makes an entry, and some thread, or none, has the mutex behind it. -/
def Entry (s s' : State ι) (e : Event ι) : Prop := Turn s s' e ∧ ∃ owner, s'.Held owner

/-- The thread has entered with the mutex, and nothing else has changed. -/
structure Entered (s t : State ι) (i : ι) : Prop where
  held : t.Held (some i)
  books : t.books = s.books
  pc : t.pc = s.pc
  nobody : s.NoneWaits

variable {e : Event ι}

theorem noneWaits_goto (h : ∀ j ≠ i, ∀ call, s.pc j ≠ .slotWait call) {pc : Pc}
    (hpc : ∀ call, pc ≠ .slotWait call) : (s.goto i pc).NoneWaits := by
  intro j call hj
  by_cases hji : j = i
  · rw [hji, goto_self] at hj
    exact hpc call hj
  · rw [goto_of_ne hji] at hj
    exact h j hji call hj

namespace Entered

omit [DecidableEq ι] in
theorem same (h : s.Entered t i) {u : State ι} (hpc : u.pc = t.pc) (hlocked : u.locked = t.locked)
    (hbooks : u.books = t.books) : s.Entered u i :=
  ⟨h.held.same hpc hlocked, hbooks.trans h.books, hpc.trans h.pc, h.nobody⟩

theorem noneWaits (h : s.Entered t i) {u : State ι} (hu : u.pc = t.pc) {pc : Pc}
    (hpc : ∀ call, pc ≠ .slotWait call) : (u.goto i pc).NoneWaits := by
  refine noneWaits_goto (fun j _ call hj => ?_) hpc
  rw [hu, h.pc] at hj
  exact h.nobody j call hj

/-- The thread leaves without a message. -/
theorem leave (h : s.Entered t i) {u : State ι} (hu : u.pc = t.pc) (hbooks : u.books = t.books)
    {pc : Pc} (hpc : ∀ call, pc ≠ .slotWait call) (hheld : ∃ owner, (u.goto i pc).Held owner) :
    Entry s (u.goto i pc) e := by
  refine ⟨.still (hbooks.trans h.books) fun j call hj => ?_, hheld⟩
  exact absurd hj (h.noneWaits hu hpc j call)

theorem unlock (h : s.Entered t i) : Entry s (t.unlock i) e :=
  h.leave (u := { t with locked := false }) rfl rfl (by simp) ⟨none, h.held.unlock⟩

theorem wait (h : s.Entered t i) {pc : Pc} (hout : pc.inside = false) (hproper : pc.Proper) :
    Entry s ({ t with locked := false }.goto i pc) e := by
  refine h.leave (u := { t with locked := false }) rfl rfl ?_
    ⟨none, h.held.goto_free hout hproper⟩
  rintro call rfl
  cases hout

omit [DecidableEq ι] in
theorem books_put (s : State ι) (call : Call) :
    (s.put call).pc = s.pc ∧ (s.put call).locked = s.locked := by
  unfold put
  split
  case h_1 port _ =>
    unfold countData
    dsimp only
    split <;> exact ⟨rfl, rfl⟩
  all_goals exact ⟨rfl, rfl⟩

/-- The message is put, by the thread with the mutex. -/
theorem reserved_held (h : t.Held (some i)) (call : Call) :
    ∃ owner, (t.reserved i call).Held owner := by
  obtain ⟨hpc, hlocked⟩ := books_put { t with localTxPos := t.localTxPos + call.stride } call
  have hput := h.same hpc hlocked
  unfold reserved append
  split
  · exact ⟨_, hput.goto_inside trivial⟩
  · exact ⟨_, hput.unlock⟩

theorem reserved_fields (t : State ι) (i : ι) (call : Call) :
    (t.reserved i call).books = t.books.sent call ∧
      ((∀ j ≠ i, ∀ call, t.pc j ≠ .slotWait call) → (t.reserved i call).NoneWaits) := by
  obtain ⟨hpc, -⟩ := books_put { t with localTxPos := t.localTxPos + call.stride } call
  have hbooks := books_sent t call
  have hothers (h : ∀ j ≠ i, ∀ call, t.pc j ≠ .slotWait call) : ∀ j ≠ i, ∀ call',
      (put { t with localTxPos := t.localTxPos + call.stride } call).pc j ≠ .slotWait call' := by
    intro j hj call' hwait
    rw [hpc] at hwait
    exact h j hj call' hwait
  unfold reserved append
  split
  · exact ⟨hbooks, fun h => noneWaits_goto (hothers h) (by simp)⟩
  · exact ⟨hbooks, fun h => noneWaits_goto (hothers h) (by simp)⟩

theorem reserve (h : s.Entered t i) (hpassed : s.Passed (s.rechecks e) call) :
    Entry s (t.reserve i call) e := by
  have hmoved : ∀ u : State ι, u.pc = t.pc → u.locked = t.locked →
      u.books = State.books { t with localTxPos := t.messagePos call } →
      Entry s (u.reserved i call) e := by
    intro u hpc hlocked hbooks
    obtain ⟨hsent, hnone⟩ := reserved_fields u i call
    refine ⟨.send call h.nobody hpassed ?_ (hnone fun j _ call' hj => ?_),
      reserved_held (h.held.same hpc hlocked) call⟩
    · rw [hsent, hbooks, books_moved, h.books]
    · rw [hpc, h.pc] at hj
      exact h.nobody j call' hj
  have hbooks : State.books { t with localTxPos := t.messagePos call } = s.books.moved call := by
    rw [books_moved, h.books]
  unfold State.reserve
  dsimp only
  split
  case isTrue hend =>
    split
    case h_1 =>
      split
      case isTrue =>
        have hheld := h.held.same (t := { t with localTxPos := t.messagePos call }) rfl rfl
        refine ⟨.place call h.nobody hpassed hbooks hend fun j call' hj => ?_, _,
          hheld.goto_inside hpassed.fits⟩
        by_cases hji : j = i
        · rw [hji, goto_self] at hj
          exact (Pc.slotWait.inj hj).symm
        · rw [goto_of_ne hji] at hj
          exact absurd (h.pc ▸ hj) (h.nobody j call')
      case isFalse =>
        have hheld := h.held.same (t := { t with localTxPos := t.messagePos call }) rfl rfl
        unfold State.noSpace
        split
        · exact ⟨.place call h.nobody hpassed hbooks hend fun j call' hj =>
            absurd hj (h.noneWaits rfl (by simp) j call'), _, hheld.goto_inside trivial⟩
        · exact ⟨.place call h.nobody hpassed hbooks hend fun j call' hj =>
            absurd hj (h.noneWaits rfl (by simp) j call'), _, hheld.unlock⟩
    case h_2 slotAvailable _ => exact hmoved _ rfl rfl rfl
  case isFalse => exact hmoved _ rfl rfl rfl

omit [DecidableEq ι] in
theorem setPermits (h : s.Entered t i) (port : Nat) (quotaEvent : UInt32) :
    s.Entered (t.setQuota port { t.quotas port with quotaEvent }) i :=
  h.same rfl rfl (books_setPermits ..)

/-- The second loop lets a message pass when its test does. -/
theorem quotaLoop (h : s.Entered t i) (hport : call.msg = .data port) (hfits : call.Fits)
    (hpassed : s.quotaStalled call port = false → s.Passed (s.rechecks e) call) (permits : Nat) :
    Entry s (t.quotaLoop i call port permits) e := by
  have hstalled (n : UInt32) :
      (t.setQuota port { t.quotas port with quotaEvent := n }).quotaStalled call port =
        s.quotaStalled call port := by
    rw [← quotaStalled_books, (h.setPermits port n).books, quotaStalled_books]
  induction permits with
  | zero =>
    unfold State.quotaLoop
    dsimp only
    split
    case isTrue => exact (h.setPermits port 0).wait rfl ⟨hport, hfits⟩
    case isFalse hpass =>
      rw [hstalled] at hpass
      exact (h.setPermits port 0).reserve (hpassed (by simpa using hpass))
  | succ permits ih =>
    unfold State.quotaLoop
    split
    case isTrue =>
      split
      case isTrue => exact (h.setPermits port _).unlock
      case isFalse => exact ih
    case isFalse hpass =>
      rw [← quotaStalled_books, h.books, quotaStalled_books] at hpass
      exact (h.setPermits port _).reserve (hpassed (by simpa using hpass))

theorem checkQuota (h : s.Entered t i) (hport : call.msg = .data port) (hfits : call.Fits)
    (hpassed : s.quotaStalled call port = false → s.Passed (s.rechecks e) call) :
    Entry s (t.checkQuota i call port) e := h.quotaLoop hport hfits hpassed _

omit [DecidableEq ι] in
/-- Behind both tests. -/
theorem passed (hport : call.msg = .data port) (hfits : call.Fits)
    (hdata : s.dataStalled call = false)
    (hquota : s.quotaStalled call port = false) : s.Passed (s.rechecks e) call := by
  refine ⟨hfits, fun p hp => ?_⟩
  obtain rfl : port = p := Msg.data.inj (hport.symm.trans hp)
  exact ⟨hquota, fun _ => hdata⟩

theorem dataLoop (h : s.Entered t i) (hport : call.msg = .data port) (hfits : call.Fits)
    (permits : Nat) :
    Entry s (t.dataLoop i call port permits) e := by
  have hset (dataQuotaEvent : UInt32) : s.Entered { t with dataQuotaEvent } i := h.same rfl rfl rfl
  have hstalled (dataQuotaEvent : UInt32) :
      State.dataStalled { t with dataQuotaEvent } call = s.dataStalled call := by
    rw [← dataStalled_books, (hset dataQuotaEvent).books, dataStalled_books]
  induction permits with
  | zero =>
    unfold State.dataLoop
    dsimp only
    split
    case isTrue => exact (hset 0).wait rfl ⟨hport, hfits⟩
    case isFalse hpass =>
      rw [hstalled] at hpass
      exact (hset 0).checkQuota hport hfits (passed hport hfits (by simpa using hpass))
  | succ permits ih =>
    unfold State.dataLoop
    split
    case isTrue => exact ih
    case isFalse hpass =>
      rw [← dataStalled_books, h.books, dataStalled_books] at hpass
      exact (hset _).checkQuota hport hfits (passed hport hfits (by simpa using hpass))

theorem dataLocked (h : s.Entered t i) (hport : call.msg = .data port) (hfits : call.Fits) :
    Entry s (t.dataLocked i call port) e := by
  unfold State.dataLocked
  split
  case isTrue hpass =>
    have hset : s.Entered { t with dataQuotaEvent := t.dataQuotaEvent + 1 } i := h.same rfl rfl rfl
    have hdata : s.dataStalled call = false := by
      rw [← dataStalled_books, ← h.books, dataStalled_books, dataStalled]
      rcases hpass with heq | hlt
      · simp [heq]
      · have hne : t.dataUseCount ≠ t.dataQuota := by
          rintro heq
          rw [heq] at hlt
          exact absurd hlt (by simp)
        simp [hne]
    exact hset.checkQuota hport hfits (passed hport hfits hdata)
  case isFalse => exact h.dataLoop hport hfits _

theorem quotaLocked (h : s.Entered t i) (hport : call.msg = .data port) (hfits : call.Fits)
    (hdata : s.rechecks e → t.srvstate port = .open → s.quotaStalled call port = false →
      s.dataStalled call = false) : Entry s (t.quotaLocked i call port) e := by
  unfold State.quotaLocked
  split
  case isTrue => exact h.unlock
  case isFalse hstate =>
    refine h.checkQuota hport hfits fun hquota => ⟨hfits, fun p hp => ?_⟩
    obtain rfl : port = p := Msg.data.inj (hport.symm.trans hp)
    exact ⟨hquota, fun hre => hdata hre (by simpa using hstate) hquota⟩

theorem sendLocked (h : s.Entered t i) (hfits : call.Fits) :
    Entry s (t.sendLocked i call) e := by
  unfold State.sendLocked
  split
  case h_1 port hmsg =>
    split
    case isTrue => exact h.unlock
    case isFalse => exact h.dataLoop hmsg hfits _
  case h_2 hmsg => exact h.reserve ⟨hfits, fun port hport => absurd hport (hmsg port)⟩

end Entered

/-! ## Steps -/

namespace Held

omit [DecidableEq ι] in
theorem still (h : s.Held owner) {u : State ι} (hpc : u.pc = s.pc) (hlocked : u.locked = s.locked)
    (hbooks : u.books = s.books) : Entry s u e :=
  ⟨.still hbooks fun _ _ hj => hpc ▸ hj, owner, h.same hpc hlocked⟩

/-- A thread waits without the mutex. -/
theorem wait (h : s.Held owner) {u : State ι} (hpc : u.pc = s.pc) (hlocked : u.locked = s.locked)
    (hbooks : u.books = s.books) {pc : Pc} (hout : pc.inside = false) (hproper : pc.Proper) :
    Entry s (u.goto i pc) e := by
  refine ⟨.still hbooks fun j call hj => ?_, owner,
    (h.same hpc hlocked).goto_outside hout hproper⟩
  by_cases hji : j = i
  · rw [hji, goto_self] at hj
    rw [hj] at hout
    cases hout
  · rw [goto_of_ne hji, hpc] at hj
    exact hj

/-- A thread looks at `slot_mutex`. -/
theorem lock (h : s.Held owner) {u : State ι} (hpc : u.pc = s.pc) (hlocked : u.locked = s.locked)
    (hbooks : u.books = s.books) {wait : Pc} {next : State ι → State ι}
    (hout : wait.inside = false) (hproper : wait.Proper)
    (hnext : s.locked = false → s.Entered { u with locked := true } i →
      Entry s (next { u with locked := true }) e) : Entry s (u.lock i wait next) e := by
  unfold State.lock
  split
  case isTrue => exact h.wait hpc hlocked hbooks hout hproper
  case isFalse hfree =>
    have hfree : s.locked = false := by
      rw [← hlocked]
      simpa using hfree
    have hnone := h.free hfree
    have hout (j : ι) : (s.pc j).inside = false := by
      rw [Bool.eq_false_iff]
      intro hj
      cases hnone.symm.trans (h.inside j hj)
    refine hnext hfree ⟨⟨fun j hj => ?_, by simp, ?_⟩, hbooks, hpc, fun j call hj => ?_⟩
    · have hj : (u.pc j).inside = true := hj
      rw [hpc, hout j] at hj
      cases hj
    · exact hpc ▸ h.proper
    · have hin := hout j
      rw [hj] at hin
      cases hin

/-- The mutex is taken for something else. -/
theorem enter (h : s.Entered t i) : Entry s (t.goto i .holds) e :=
  h.leave rfl rfl (by simp) ⟨some i, h.held.goto_inside trivial⟩

theorem markLocked (h : s.Entered t i) (port : Nat) : Entry s (t.markLocked i port) e := by
  obtain ⟨hturn, hheld⟩ : Entry s (t.unlock i) e := h.unlock
  have hbooks : (t.markLocked i port).books = s.books := by
    rw [← h.books]
    exact books_setPermits (t.unlock i) port _
  refine ⟨.still hbooks fun j call hj => ?_, none, h.held.unlock.same rfl rfl⟩
  exact absurd hj (h.noneWaits (u := t) rfl (by simp) j call)

omit [DecidableEq ι] in
theorem nobody_else (h : s.Held owner) (hs : (s.pc i).inside) :
    owner = some i ∧ ∀ j ≠ i, ∀ call, s.pc j ≠ .slotWait call := by
  obtain rfl : owner = some i := h.inside i hs
  refine ⟨rfl, fun j hji call hj => hji ?_⟩
  exact (Option.some.inj (h.inside j (by rw [hj]; rfl))).symm

theorem resume (h : s.Held owner) : Entry s (s.resume i) (.resume i) := by
  have hproper := h.proper i
  unfold State.resume
  cases hs : s.pc i with
  | idle | holds => exact h.still rfl rfl rfl
  | holdLock => exact h.lock rfl rfl rfl rfl trivial fun _ ht => enter ht
  | sendLock call =>
    rw [hs] at hproper
    exact h.lock rfl rfl rfl rfl hproper fun _ ht => ht.sendLocked hproper
  | dataWait call port =>
    rw [hs] at hproper
    dsimp only
    split
    case isTrue => exact h.still rfl rfl rfl
    case isFalse =>
      exact h.lock (u := { s with dataQuotaEvent := s.dataQuotaEvent - 1 }) rfl rfl rfl rfl
        hproper fun _ ht => ht.dataLocked hproper.1 hproper.2
  | dataLock call port =>
    rw [hs] at hproper
    exact h.lock rfl rfl rfl rfl hproper fun _ ht => ht.dataLocked hproper.1 hproper.2
  | quotaWait call port =>
    rw [hs] at hproper
    dsimp only
    split
    case isTrue => exact h.still rfl rfl rfl
    case isFalse hevent =>
      have hbooks := books_setPermits s port ((s.quotas port).quotaEvent - 1)
      split
      case isTrue => exact h.wait (u := s.setQuota port _) rfl rfl hbooks rfl trivial
      case isFalse hclosing =>
        refine h.lock (u := s.setQuota port _) rfl rfl hbooks rfl hproper fun hfree ht => ?_
        refine ht.quotaLocked hproper.1 hproper.2 fun hre hopen hquota => ?_
        have hclosing : s.closing port = false := by simpa [setQuota] using hclosing
        have hopen : s.srvstate port = .open := hopen
        simpa [rechecks, hs, hfree, hevent, hclosing, hopen, hquota] using hre
  | quotaLock call port =>
    rw [hs] at hproper
    refine h.lock rfl rfl rfl rfl hproper fun hfree ht => ?_
    refine ht.quotaLocked hproper.1 hproper.2 fun hre hopen hquota => ?_
    have hopen : s.srvstate port = .open := hopen
    simpa [rechecks, hs, hfree, hopen, hquota] using hre
  | slotWait call =>
    obtain ⟨rfl, hothers⟩ := h.nobody_else (i := i) (by rw [hs]; rfl)
    dsimp only
    split
    case h_1 => exact h.still rfl rfl rfl
    case h_2 slotAvailable _ =>
      have htaken : Held { s with slotAvailable } (some i) := h.same rfl rfl
      obtain ⟨hsent, hnone⟩ := Entered.reserved_fields { s with slotAvailable } i call
      exact ⟨.sendWaiting i call hs hsent (hnone hothers), Entered.reserved_held htaken call⟩
  | markLock port =>
    exact h.lock rfl rfl rfl rfl trivial fun _ ht => markLocked ht port

theorem step (h : s.Held owner) {e : Event ι} (he : e.Fits) : Entry s (s.step e) e := by
  unfold State.step
  cases e with
  | queueMessage i call =>
    dsimp only
    split
    case isTrue hproper =>
      split
      case h_1 =>
        split
        case isTrue => exact h.still rfl rfl rfl
        case isFalse => exact h.lock rfl rfl rfl rfl he fun _ ht => ht.sendLocked he
      case h_2 hs =>
        split
        case isTrue hflags =>
          obtain ⟨rfl, hothers⟩ := h.nobody_else (i := i) (by rw [hs]; rfl)
          have hentered : s.Entered s i := by
            refine ⟨h, rfl, rfl, fun j call' hj => ?_⟩
            by_cases hji : j = i
            · rw [hji, hs] at hj
              cases hj
            · exact hothers j hji call' hj
          refine hentered.reserve ⟨he, fun port hport => ?_⟩
          rw [Bool.and_eq_true] at hflags
          simp [Call.proper, hport, hflags.1] at hproper
        case isFalse => exact h.still rfl rfl rfl
      case h_3 => exact h.still rfl rfl rfl
    case isFalse => exact h.still rfl rfl rfl
  | mark i port shThread =>
    dsimp only
    split
    case isTrue =>
      split
      case isTrue => exact h.still rfl rfl (books_setPermits s port _)
      case isFalse =>
        exact h.lock (u := { s with closing := Function.update s.closing port true }) rfl rfl rfl
          rfl
          trivial fun _ ht => markLocked ht port
    case isFalse => exact h.still rfl rfl rfl
  | resume i => exact h.resume
  | takeMutex i =>
    dsimp only
    split
    case h_1 => exact h.lock rfl rfl rfl rfl trivial fun _ ht => enter ht
    case h_2 => exact h.still rfl rfl rfl
  | giveMutex i =>
    dsimp only
    split
    case h_1 hs =>
      obtain ⟨rfl, hothers⟩ := h.nobody_else (i := i) (by rw [hs]; rfl)
      refine ⟨.still rfl fun j call hj => ?_, none, h.unlock.same rfl rfl⟩
      exact absurd hj (noneWaits_goto (s := s) hothers (by simp) j call)
    case h_2 => exact h.still rfl rfl rfl
  | pauseSent =>
    dsimp only
    split
    · exact h.still rfl rfl rfl
    · exact h.still rfl rfl rfl
  | paused => exact h.still rfl rfl rfl
  | freeSlot ports => exact ⟨.freeSlot ports (books_freeSlot s ports) rfl, owner, h.same rfl rfl⟩
  | setState port srvstate => exact h.still rfl rfl rfl
  | listen port => exact h.still rfl rfl rfl
  | addService port srvstate =>
    exact ⟨.addService port srvstate rfl (books_addService ..) rfl, owner, h.same rfl rfl⟩
  | setSlotQuota port value =>
    have hfields : (s.setSlotQuota port value).pc = s.pc ∧
        (s.setSlotQuota port value).locked = s.locked := by
      unfold State.setSlotQuota
      dsimp only
      split <;> exact ⟨rfl, rfl⟩
    exact ⟨.setSlotQuota port value rfl (books_setSlotQuota ..) hfields.1, owner,
      h.same hfields.1 hfields.2⟩
  | setMessageQuota port value =>
    have hfields : (s.setMessageQuota port value).pc = s.pc ∧
        (s.setMessageQuota port value).locked = s.locked := by
      unfold State.setMessageQuota
      dsimp only
      split <;> exact ⟨rfl, rfl⟩
    exact ⟨.setMessageQuota port value rfl (books_setMessageQuota ..) hfields.1, owner,
      h.same hfields.1 hfields.2⟩

end Held

end State

end Closing
