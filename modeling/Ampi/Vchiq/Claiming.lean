-- SUMMARY: Every use of a slot is given back once, after its last frame and its last claimed message.
import Ampi.Vchiq.Marks

/-!
# Claiming

A service may give a header back again, and may do so while it is closing; when it has been
closed, `release_service_messages` gives back what it still holds. The bit
`VCHIQ_MSGID_CLAIMED` of the header says what counts. A header is gone when the sender gets
its slot back, which is when the sender writes into it.
-/

namespace Slots

open Layout (placed)

/-- `VCHIQ_MSG_DSTPORT`. -/
def msgDstPort (msgid : UInt32) : UInt32 := msgid &&& 0xfff

/-- The transport, and what has become of each slot. -/
structure Ledger where
  range : SlotRange
  state : State
  /-- The headers that services have been given, until the sender gets their slot back. -/
  delivered : List (Nat × Nat) := []
  /-- How often each slot has been entered, and how often it has been handed back. -/
  begun : Nat → Nat := fun _ => 0
  handedBack : Nat → Nat := fun _ => 0

namespace Ledger

inductive Event where
  | transport (e : Slots.Event)
  /-- `vchiq_release_message` on a header that a service has been given at some time. -/
  | release (slot off : Nat) (closing : Bool)
  /-- `release_service_messages` of the service on `port`. -/
  | releaseService (port : UInt32)

def init (range : SlotRange) (slotData : Nat → Block) : Ledger where
  range
  state := .init range slotData

/-- The entries of a step to `s`. -/
def observe (l : Ledger) (s : State) : Ledger where
  range := l.range
  state := s
  delivered :=
    let delivered := s.held.union l.delivered
    if s.slotQueueAvailable = l.state.slotQueueAvailable then delivered
    else
      let slot := l.state.slotQueue (l.state.slotQueueAvailable &&& slotQueueMask)
      delivered.filter (·.1 ≠ slot)
  begun :=
    match if l.state.rxData = none then s.rxData else none with
    | some slot => Function.update l.begun slot (l.begun slot + 1)
    | none => l.begun
  handedBack :=
    if s.slotQueueRecycle = l.state.slotQueueRecycle then l.handedBack
    else
      let slot := s.slotQueue (l.state.slotQueueRecycle &&& slotQueueMask)
      Function.update l.handedBack slot (l.handedBack slot + 1)

def releaseHeader (l : Ledger) (slot off : Nat) (closing : Bool) : Ledger :=
  l.observe (l.state.releaseHeader slot off closing)

/-- What `release_service_messages` does with a header. -/
def visitHeader (l : Ledger) (slot off : Nat) (port : UInt32) : Ledger :=
  let msgid := (l.state.slotData slot).loadWord off
  if msgDstPort msgid = port ∧ msgid &&& msgidClaimed ≠ 0 then l.releaseHeader slot off false
  else l

/-- The loop of `release_service_messages` over the headers of a slot. -/
def releaseSlotMessages (l : Ledger) (slot : Nat) (port stop : UInt32) :
    (fuel : Nat) → (pos : UInt32) → Option Ledger
  | 0, _ => none
  | fuel + 1, pos =>
    if pos < stop then
      let l := l.visitHeader slot pos.toNat port
      let size := (l.state.slotData slot).loadWord (pos.toNat + 4)
      releaseSlotMessages l slot port stop fuel (pos + calcStride size)
    else some l

/-- The slot as `release_service_messages` goes over it. -/
def releaseSlot (l : Ledger) (port : UInt32) (slot : Nat) : Option Ledger :=
  if l.state.releaseCount slot ≠ l.state.useCount slot then
    let stop :=
      if l.state.rxData = some slot then l.state.rxPos &&& slotMask else slotSize
    l.releaseSlotMessages slot port stop walkFuel 0
  else some l

def releaseServiceMessages (l : Ledger) (port : UInt32) : Option Ledger :=
  l.range.slots.foldlM (fun l slot => l.releaseSlot port slot) l

def step (l : Ledger) : Event → Ledger
  | .transport e => l.observe (l.state.step e)
  | .release slot off closing =>
    if l.delivered.contains (slot, off) then l.releaseHeader slot off closing else l
  -- a walk that does not end leaves nothing behind
  | .releaseService port => (l.releaseServiceMessages port).getD l

abbrev run : Ledger → List Event → Ledger := Machine.run step

/-- What the sender puts into a message. -/
def Event.WellFormed : Event → Prop
  | .transport (.send m _) => m.msgid &&& msgidClaimed = 0
  | _ => True

end Ledger

/-- What holds of the ledger in every state that it reaches. -/
structure Accounted (l : Ledger) : Prop where
  /-- The references to each slot. -/
  counts : ∀ slot, l.state.useCount slot =
    l.state.releaseCount slot + l.state.heldIn slot +
      if l.state.rxData = some slot then 1 else 0
  /-- A use of a slot is given back when it has been read and released, not before,
  and once. -/
  uses : ∀ slot, l.begun slot =
    l.handedBack slot +
      if l.state.rxData = some slot ∨ 0 < l.state.heldIn slot then 1 else 0
  /-- Of the headers that a service has been given, the bit tells which it still holds. -/
  claimed : ∀ h ∈ l.delivered,
    (l.state.slotData h.1).loadWord h.2 &&& msgidClaimed ≠ 0 ↔ h ∈ l.state.held
  held : l.state.held.Nodup ∧ ∀ h ∈ l.state.held, h ∈ l.delivered
  /-- `release_service_messages` comes to an end. -/
  walks : ∀ port, (l.releaseServiceMessages port).isSome

/-! ## The counts of a slot -/

/-- What a step does to the uses of slots: it begins one, gives one back or does neither. -/
inductive Turn (s s' : State) : Prop where
  | same (hdata : s.rxData = none → s'.rxData = none)
    (hrecycle : s'.slotQueueRecycle = s.slotQueueRecycle)
    (hopen : ∀ slot, s'.useCount slot = s'.releaseCount slot ↔
      s.useCount slot = s.releaseCount slot)
  | enter {slot : Nat} (hdata : s.rxData = none) (hdata' : s'.rxData = some slot)
    (hrecycle : s'.slotQueueRecycle = s.slotQueueRecycle)
    (hfree : s.useCount slot = s.releaseCount slot)
    (hopen : ∀ slot', s'.useCount slot' = s'.releaseCount slot' ↔
      s.useCount slot' = s.releaseCount slot' ∧ slot' ≠ slot)
  | giveBack {slot : Nat} (hdata : s.rxData = none → s'.rxData = none)
    (hrecycle : s'.slotQueueRecycle = s.slotQueueRecycle + 1)
    (hentry : s'.slotQueue (s.slotQueueRecycle &&& slotQueueMask) = slot)
    (hused : s.useCount slot ≠ s.releaseCount slot)
    (hopen : ∀ slot', s'.useCount slot' = s'.releaseCount slot' ↔
      s.useCount slot' = s.releaseCount slot' ∨ slot' = slot)

/-- A step that begins or ends no use may come after. -/
theorem Turn.congr {s s' s₁ : State} (h : Turn s s₁) (hdata : s'.rxData = s₁.rxData)
    (hqueue : s'.slotQueue = s₁.slotQueue) (hrecycle : s'.slotQueueRecycle = s₁.slotQueueRecycle)
    (hopen : ∀ slot, s'.useCount slot = s'.releaseCount slot ↔
      s₁.useCount slot = s₁.releaseCount slot) : Turn s s' := by
  cases h with
  | same hdata' hrecycle' hopen' =>
    exact .same (fun hnone => hdata.trans (hdata' hnone)) (hrecycle.trans hrecycle')
      fun slot => (hopen slot).trans (hopen' slot)
  | enter hnone hdata' hrecycle' hfree hopen' =>
    exact .enter hnone (hdata.trans hdata') (hrecycle.trans hrecycle') hfree
      fun slot => (hopen slot).trans (hopen' slot)
  | giveBack hdata' hrecycle' hentry hused hopen' =>
    exact .giveBack (fun hnone => hdata.trans (hdata' hnone)) (hrecycle.trans hrecycle')
      (hqueue ▸ hentry) hused fun slot => (hopen slot).trans (hopen' slot)

namespace State

variable {s s' s₀ : State} {g : Stream} {slot off : Nat} {txPos size : UInt32}

/-- What the uses of slots can be told from. -/
def uses (s : State) : Option Nat × (Nat → Nat) × (Nat → Nat) × UInt32 :=
  (s.rxData, s.useCount, s.releaseCount, s.slotQueueRecycle)

theorem turn_of_uses (h : s'.uses = s.uses) : Turn s s' := by
  simp only [uses, Prod.mk.injEq] at h
  obtain ⟨hdata, huse, hrelease, hrecycle⟩ := h
  refine .same (fun hnone => hdata.trans hnone) hrecycle fun slot => ?_
  rw [huse, hrelease]

/-- The messages sent, and the one that `queue_message` is at. -/
def pending (s : State) : List Message :=
  s.sent ++
    match s.sender with
    | .idle | .fault => []
    | .waiting m | .filling m _ _ | .publishing m => [m]

/-! The sender's side. -/

theorem uses_reserveAt (s : State) (txPos space : UInt32) :
    (s.reserveAt txPos space).1.uses = s.uses ∧ (s.reserveAt txPos space).1.sent = s.sent := by
  unfold reserveAt
  split
  · exact ⟨rfl, rfl⟩
  · exact ⟨rfl, rfl⟩

theorem uses_takeSlot (s : State) (txPos space : UInt32) :
    (s.takeSlot txPos space).1.uses = s.uses ∧ (s.takeSlot txPos space).1.sent = s.sent := by
  unfold takeSlot
  split
  · exact ⟨rfl, rfl⟩
  · exact uses_reserveAt _ txPos space

theorem uses_reserveBehind (s : State) (txPos space : UInt32) (isBlocking : Bool) :
    (s.reserveBehind txPos space isBlocking).1.uses = s.uses ∧
      (s.reserveBehind txPos space isBlocking).1.sent = s.sent := by
  unfold reserveBehind
  split
  · split
    · exact ⟨rfl, rfl⟩
    · exact uses_takeSlot _ txPos space
  · exact uses_reserveAt s txPos space

theorem uses_reserveSpace (s : State) (space : UInt32) (isBlocking : Bool) :
    (s.reserveSpace space isBlocking).1.uses = s.uses ∧
      (s.reserveSpace space isBlocking).1.sent = s.sent := by
  unfold reserveSpace
  dsimp only
  split
  · split
    · exact ⟨rfl, rfl⟩
    · exact uses_reserveBehind _ _ space isBlocking
  · exact uses_reserveBehind s _ space isBlocking

theorem uses_senderStep (s : State) : s.senderStep.uses = s.uses := by
  unfold senderStep
  split
  · rfl
  · rfl
  · split
    · rfl
    · exact (uses_takeSlot _ _ _).1
  · rfl
  · rfl

theorem uses_processFreeQueue (s : State) :
    s.processFreeQueue.uses = s.uses ∧ s.processFreeQueue.pending = s.pending := by
  unfold processFreeQueue
  split
  · exact ⟨rfl, rfl⟩
  · dsimp only
    split
    · exact ⟨rfl, rfl⟩
    · exact ⟨rfl, rfl⟩

/-! The receiver's side. -/

theorem turn_enterSlot (hr : Represents s g) (hcounted : s.Counted)
    (hlt : g.rx / 4096 < g.taken) : Turn s s.enterSlot.1 := by
  obtain ⟨-, hdata', hslot⟩ := hr.enterSlot hlt
  unfold enterSlot at hdata' hslot ⊢
  split
  case h_1 => exact turn_of_uses rfl
  case h_2 hdata =>
    rw [hdata] at hdata' hslot
    dsimp only at hdata' hslot ⊢
    refine .enter hdata rfl rfl ?_ fun slot' => ?_
    · have hcount := hcounted (g.slotOf (g.rx / 4096))
      rw [hr.heldIn_eq_zero hdata hlt, hdata, if_neg nofun] at hcount
      rw [hslot]
      exact hcount
    · dsimp only
      by_cases heq : slot' = s.slotQueue (slotQueueIndexFromPos s.rxPos &&& slotQueueMask)
      · rw [heq, Function.update_self, Function.update_self]
        simp
      · rw [Function.update_of_ne heq, Function.update_of_ne heq]
        simp [heq]

theorem turn_parseMessage (hr : Represents s g) (hcounted : s.Counted)
    (hpc : s.handler = .parsing txPos) (hne : s.rxPos ≠ txPos) (r : Reception) :
    Turn s (s.parseMessage txPos r) := by
  obtain ⟨-, hlt, -⟩ := next_frame hr hpc hne
  have hturn := turn_enterSlot hr hcounted hlt
  obtain ⟨hr1, hdata, hslot⟩ := hr.enterSlot hlt
  unfold parseMessage
  generalize s.enterSlot = entered at hturn hr1 hdata hslot
  obtain ⟨s1, slot⟩ := entered
  dsimp only at hturn hr1 hdata hslot ⊢
  split
  · exact hturn.congr rfl rfl rfl fun _ => Iff.rfl
  · obtain ⟨-, -, hcounts⟩ := hr1.entered _ hdata
    refine hturn.congr rfl rfl rfl fun slot' => ?_
    by_cases heq : slot' = slot
    · subst heq
      rw [← hslot] at hcounts
      dsimp only
      rw [Function.update_self]
      omega
    · dsimp only
      rw [Function.update_of_ne heq]
  · exact hturn.congr rfl rfl rfl fun _ => Iff.rfl

theorem turn_dropReference (hdata : s.rxData = none → s₀.rxData = none)
    (hsame : (s₀.useCount, s₀.releaseCount, s₀.slotQueueRecycle) =
      (s.useCount, s.releaseCount, s.slotQueueRecycle))
    (hused : s.useCount slot ≠ s.releaseCount slot) : Turn s (s₀.dropReference slot) := by
  simp only [Prod.mk.injEq] at hsame
  obtain ⟨huse, hrelease, hrecycle⟩ := hsame
  have hother {slot' : Nat} (hne : slot' ≠ slot) :
      Function.update s.releaseCount slot (s.releaseCount slot + 1) slot' = s.releaseCount slot' :=
    Function.update_of_ne hne ..
  have hself : Function.update s.releaseCount slot (s.releaseCount slot + 1) slot =
      s.releaseCount slot + 1 := Function.update_self ..
  unfold dropReference
  rw [huse, hrelease, hrecycle]
  dsimp only
  split
  · next hlast =>
    refine .giveBack hdata rfl (Function.update_self ..) hused fun slot' => ?_
    dsimp only
    by_cases heq : slot' = slot
    · rw [heq, hself]
      simp [hlast]
    · rw [hother heq]
      simp [heq]
  · next hmore =>
    refine .same hdata rfl fun slot' => ?_
    dsimp only
    by_cases heq : slot' = slot
    · rw [heq, hself]
      exact iff_of_false (fun h => hmore h.symm) hused
    · rw [hother heq]

theorem turn_skipMessage (hcounted : s.Counted) : Turn s (s.skipMessage txPos size) := by
  unfold skipMessage
  dsimp only
  split
  · split
    · exact turn_of_uses rfl
    · next slot hdata =>
      have hcount := hcounted slot
      rw [if_pos hdata] at hcount
      rw [dropReference_comm]
      exact turn_dropReference (fun _ => rfl) rfl (by omega)
  · exact turn_of_uses rfl

theorem turn_handlerStep (hr : Represents s g) (hcounted : s.Counted) (r : Reception) :
    Turn s (s.handlerStep r) := by
  unfold handlerStep
  split
  · exact turn_of_uses rfl
  · next hpc =>
    split
    · exact turn_of_uses rfl
    · next hne => exact turn_parseMessage hr hcounted hpc hne r
  · exact turn_skipMessage hcounted

theorem turn_releaseHeader (hcounted : s.Counted) (hheld : (slot, off) ∈ s.held)
    (closing : Bool) : Turn s (s.releaseHeader slot off closing) := by
  unfold releaseHeader
  dsimp only
  split
  · exact turn_of_uses rfl
  · have hcount := hcounted slot
    have hpos : 0 < s.heldIn slot := List.countP_pos_iff.2 ⟨_, hheld, decide_eq_true rfl⟩
    exact turn_dropReference id rfl (by omega)

theorem turn_step (hr : Represents s g) (hcounted : s.Counted) (e : Event) :
    Turn s (s.step e) := by
  cases e with
  | send m isBlocking =>
    dsimp only [step]
    split
    · exact turn_of_uses (uses_reserveSpace s _ isBlocking).1
    · exact turn_of_uses rfl
  | sender => exact turn_of_uses s.uses_senderStep
  | handler r => exact turn_handlerStep hr hcounted r
  | release slot off closing =>
    dsimp only [step]
    split
    · next hheld => exact turn_releaseHeader hcounted hheld closing
    · exact turn_of_uses rfl
  | recycle => exact turn_of_uses s.uses_processFreeQueue.1

/-! ## The messages under way -/

theorem pending_after {m m' : Message} {res : Reservation} (hsent : s'.sent = s.sent)
    (hm : m' ∈ ({ s' with sender := .after m res } : State).pending) :
    m' ∈ s.sent ∨ m' = m := by
  unfold pending at hm
  rw [← hsent]
  cases res with
  | header | wait => simpa [SenderPc.after] using hm
  | null | fault => exact .inl (by simpa [SenderPc.after] using hm)

theorem pending_congr (hsent : s'.sent = s.sent) (hsender : s'.sender = s.sender) :
    s'.pending = s.pending := by
  rw [pending, hsent, hsender, pending]

theorem pending_releaseHeader (closing : Bool) :
    (s.releaseHeader slot off closing).pending = s.pending := by
  unfold releaseHeader
  dsimp only
  split
  · rfl
  · obtain ⟨-, -, hsent, hsender, -⟩ := dropReference_fields _ slot
    exact pending_congr hsent hsender

theorem slotQueueAvailable_releaseHeader (closing : Bool) :
    (s.releaseHeader slot off closing).slotQueueAvailable = s.slotQueueAvailable := by
  unfold releaseHeader dropReference
  dsimp only
  split
  · rfl
  · split
    · rfl
    · rfl

theorem mem_pending_senderStep {m : Message} (hm : m ∈ s.senderStep.pending) :
    m ∈ s.pending := by
  unfold senderStep at hm
  split at hm
  · exact hm
  · exact hm
  · next m' hwait =>
    split at hm
    · exact hm
    · have hsent : (takeSlot { s with slotAvailable := s.slotAvailable - 1 } s.localTxPos
          (calcStride m'.size)).1.sent = s.sent := (uses_takeSlot _ _ _).2
      simpa [pending, hwait] using pending_after hsent hm
  · next m' slot off hfill => simpa [pending, hfill] using hm
  · next m' hpub => simpa [pending, hpub] using hm

/-- Only a call of `queue_message` brings in a message. -/
theorem mem_pending_step {m : Message} {e : Event} (hm : m ∈ (s.step e).pending) :
    m ∈ s.pending ∨ ∃ isBlocking, e = .send m isBlocking := by
  cases e with
  | send m' isBlocking =>
    dsimp only [step] at hm
    split at hm
    · rcases pending_after (uses_reserveSpace s _ isBlocking).2 hm with hm | rfl
      · exact .inl (List.mem_append_left _ hm)
      · exact .inr ⟨isBlocking, rfl⟩
    · exact .inl hm
  | sender => exact .inl (mem_pending_senderStep hm)
  | handler r =>
    obtain ⟨-, hsent, hsender⟩ := s.handlerStep_fields r
    exact .inl (pending_congr hsent hsender ▸ hm)
  | release slot off closing =>
    dsimp only [step] at hm
    split at hm
    · rw [pending_releaseHeader] at hm
      exact .inl hm
    · exact .inl hm
  | recycle =>
    obtain ⟨-, hpending⟩ := s.uses_processFreeQueue
    exact .inl (hpending ▸ hm)

end State

/-! ## Headers that can be read -/

/-- A frame that the receiver has read, and whose slot the sender has not got back. -/
structure Stream.Legible (g : Stream) (x : Nat × Frame) : Prop where
  read : x ∈ placed Frame.stride 0 (g.frames.take g.parsed)
  current : g.Current (x.1 / 4096)

namespace Represents

variable {r : SlotRange} {s s' : State} {g g' : Stream} {x : Nat × Frame}

/-- What services hold is legible. -/
theorem legible_of_held (h : Represents s g) (hg : g.Conserved r) {a : Nat × Nat}
    (ha : a ∈ s.held) : ∃ x, g.Legible x ∧ a = g.headerOf x := by
  have htaken := h.taken_le
  have havail := h.available_le
  obtain ⟨x, hx, hlive, rfl⟩ := h.held_at a ha
  have hxt := h.slot_lt_taken (mem_of_read hx)
  exact ⟨x, ⟨hx, h.current_of_live hg (by omega) hlive⟩, rfl⟩

theorem headerOf_extends (h : Represents s g) (hext : g.Extends g') (hx : g.Legible x) :
    g'.headerOf x = g.headerOf x := by
  have htaken := h.taken_le
  have havail := h.available_le
  have hxt := h.slot_lt_taken (mem_of_read hx.read)
  rw [Stream.headerOf, hext.slotOf _ (by omega), Stream.headerOf]

/-- A header stays legible until the sender gets its slot back. -/
theorem legible_extends (h : Represents s g) (hext : g.Extends g') (hx : g.Legible x)
    (hkeep : g'.available = g.available ∨
      g'.available = g.available + 1 ∧ g.available < g.recycled ∧
        g.slotOf g.available ≠ g.slotOf (x.1 / 4096)) : g'.Legible x := by
  have htaken := h.taken_le
  have havail := h.available_le
  have hxt := h.slot_lt_taken (mem_of_read hx.read)
  refine ⟨?_, fun j hkj hj => ?_⟩
  · obtain ⟨frames, hframes⟩ := hext.parsed
    rw [← hframes, Layout.placed_append]
    exact List.mem_append_left _ hx.read
  · have hj' : j < g.recycled := by omega
    rw [hext.slotOf j hj', hext.slotOf _ (by omega)]
    rcases Nat.lt_or_ge j g.available with hlt | hge
    · exact hx.current j hkj hlt
    · obtain rfl : j = g.available := by omega
      omega

/-- The position of the receiver is the start of a frame. -/
theorem exists_upTo_rx (h : Represents s g) : ∃ n ≤ g.parsed, g.upTo n = g.rx := by
  have hpc := h.handler
  unfold HandlerAt at hpc
  split at hpc
  · exact ⟨g.parsed, le_rfl, hpc.symm⟩
  · exact ⟨g.parsed, le_rfl, hpc.1.symm⟩
  · obtain ⟨-, n, f, hparsed, -, hrx, -⟩ := hpc
    exact ⟨n, by omega, hrx.symm⟩

/-- Up to what has been read, slots start with a frame. -/
theorem exists_upTo (h : Represents s g) {k n : Nat} (hk : k * 4096 ≤ g.upTo n) :
    ∃ m ≤ n, g.upTo m = k * 4096 := by
  have hin : Layout.InBlocks Frame.stride 4096 0 (g.frames.take n) :=
    fun x hx => h.inBlocks x (mem_of_read hx)
  obtain ⟨m, hm, hstart⟩ := Layout.exists_total_take hin (Nat.zero_le _) (by
    rw [Nat.zero_add]
    exact hk)
  rw [List.length_take] at hm
  rw [Nat.zero_add, List.take_take, Nat.min_eq_left (hm.trans (Nat.min_le_left ..))] at hstart
  exact ⟨m, hm.trans (Nat.min_le_left ..), hstart⟩

/-- The frames of a use that have been read. -/
theorem exists_read (h : Represents s g) {k n stop : Nat} (hcur : g.Current k) (hn : n ≤ g.parsed)
    (hstop : g.upTo n = k * 4096 + stop) (hle : stop ≤ 4096) :
    ∃ fs : List Frame, Layout.total Frame.stride fs = stop ∧
      ∀ x ∈ placed Frame.stride (k * 4096) fs, g.Legible x := by
  obtain ⟨m, hm, hstart⟩ := h.exists_upTo (k := k) (n := n) (by omega)
  have htake : (g.frames.take n).take m = g.frames.take m := by
    rw [List.take_take, Nat.min_eq_left hm]
  have hsplit := Layout.total_take_add_drop Frame.stride (g.frames.take n) m
  rw [htake] at hsplit
  change g.upTo m + _ = g.upTo n at hsplit
  refine ⟨(g.frames.take n).drop m, by omega, fun x hx => ?_⟩
  have hlo := Layout.le_of_placed hx
  have hend := Layout.end_le_of_placed hx
  have hsize := x.2.size_add_le_stride
  have hdiv : x.1 / 4096 = k := by omega
  refine ⟨?_, hdiv.symm ▸ hcur⟩
  have hread : x ∈ placed Frame.stride 0 (g.frames.take n) := by
    rw [Layout.placed_take_or_drop m, htake, Nat.zero_add]
    change _ ∨ x ∈ placed Frame.stride (g.upTo m) _
    rw [hstart]
    exact .inr hx
  obtain ⟨frames, hframes⟩ : g.frames.take n <+: g.frames.take g.parsed :=
    List.take_prefix_take_left hn
  rw [← hframes, Layout.placed_append]
  exact List.mem_append_left _ hread

end Represents

/-! ## The ledger -/

namespace Ledger

/-- A slot has been entered once more than it has been given back as long as its last use
goes on. -/
def Balanced (l : Ledger) : Prop :=
  ∀ slot, l.begun slot =
    l.handedBack slot + if l.state.useCount slot = l.state.releaseCount slot then 0 else 1

/-- The ledger of a state that stands for the stream. -/
structure KeptAt (l : Ledger) (g : Stream) : Prop where
  none : g.dropping = none
  represents : Represents l.state g
  senderAt : SenderAt l.state g
  conserved : g.Conserved l.range
  counted : l.state.Counted
  marked : Marked l.state g
  clean : ∀ m ∈ l.state.pending, m.msgid &&& msgidClaimed = 0
  legible : ∀ a ∈ l.delivered, ∃ x, g.Legible x ∧ a = g.headerOf x
  held : ∀ a ∈ l.state.held, a ∈ l.delivered
  balanced : l.Balanced

def Kept (l : Ledger) : Prop := ∃ g, l.KeptAt g

variable {l : Ledger} {s' : State} {g g' : Stream} {slot off : Nat} {closing : Bool}

theorem Balanced.observe (h : l.Balanced) (hturn : Turn l.state s') :
    (l.observe s').Balanced := by
  intro slot'
  have hslot := h slot'
  have hstay (hdata : l.state.rxData = .none → s'.rxData = .none) :
      (if l.state.rxData = .none then s'.rxData else .none) = .none := by
    split
    · next hnone => exact hdata hnone
    · rfl
  unfold Ledger.observe
  dsimp only
  cases hturn with
  | same hdata hrecycle hopen =>
    rw [hstay hdata, if_pos hrecycle, if_congr (hopen slot') rfl rfl]
    exact hslot
  | @enter slot hdata hdata' hrecycle hfree hopen =>
    rw [if_pos hdata, hdata', if_pos hrecycle, if_congr (hopen slot') rfl rfl]
    dsimp only
    by_cases heq : slot' = slot
    · subst heq
      rw [if_pos hfree] at hslot
      rw [Function.update_self, hslot]
      simp
    · rw [Function.update_of_ne heq, hslot]
      simp [heq]
  | @giveBack slot hdata hrecycle hentry hused hopen =>
    have hne : s'.slotQueueRecycle ≠ l.state.slotQueueRecycle := by
      rw [hrecycle]
      simp
    rw [hstay hdata, if_neg hne, hentry, if_congr (hopen slot') rfl rfl]
    dsimp only
    by_cases heq : slot' = slot
    · subst heq
      rw [if_neg hused] at hslot
      rw [Function.update_self, hslot]
      simp
    · rw [Function.update_of_ne heq, hslot]
      simp [heq]

/-- What a step of the transport does to the ledger. -/
theorem KeptAt.observe (h : l.KeptAt g) (hfollows : Follows l.state g s')
    (hturn : Turn l.state s') (hclean : ∀ m ∈ s'.pending, m.msgid &&& msgidClaimed = 0) :
    ∃ g', (l.observe s').KeptAt g' ∧ g.Extends g' ∧
      (s'.slotQueueAvailable = l.state.slotQueueAvailable → g'.available = g.available) := by
  obtain ⟨g', hnone, hr, hs, hnear, hmoves⟩ := hfollows
  obtain ⟨hconserved, hcounted, hmarked, hext⟩ := Moves.keep
    (I := fun s' g' => g'.Conserved l.range ∧ s'.Counted ∧ Marked s' g' ∧ g.Extends g')
    (fun hr _ hm h => ⟨h.1.move hr hm, h.2.1.move hr hm, h.2.2.1.move hr h.1 hm,
      h.2.2.2.trans (.move hr hm)⟩)
    hmoves ⟨h.conserved, h.counted, h.marked, .refl g⟩
  have htaken := h.represents.taken_le
  have havail := h.represents.available_le
  -- the slot that the sender gets back
  have hback (hne : s'.slotQueueAvailable ≠ l.state.slotQueueAvailable) :
      g'.available = g.available + 1 ∧ g.available < g.recycled ∧
        l.state.slotQueue (l.state.slotQueueAvailable &&& slotQueueMask) =
          g.slotOf g.available := by
    rcases hnear.available with hsame | ⟨hnext, hlt⟩
    · rw [hr.slotQueueAvailable, h.represents.slotQueueAvailable, hsame] at hne
      exact absurd rfl hne
    · have hring := h.represents.recycled_le_add
      have hfin := h.represents.finished_le
      rw [h.represents.slotQueueAvailable, and_slotQueueMask]
      exact ⟨hnext, hlt, h.represents.entry _ hlt (by omega)⟩
  have hsame (heq : s'.slotQueueAvailable = l.state.slotQueueAvailable) :
      g'.available = g.available := by
    rcases hnear.available with hsame | ⟨hnext, -⟩
    · exact hsame
    · rw [hr.slotQueueAvailable, h.represents.slotQueueAvailable, hnext, eq_comm,
        ofNat_eq_ofNat (Nat.le_succ _) (by omega)] at heq
      omega
  have hheld (a : Nat × Nat) (ha : a ∈ s'.held) : ∃ x, g'.Legible x ∧ a = g'.headerOf x :=
    hr.legible_of_held hconserved ha
  refine ⟨g', ⟨hnone, hr, hs, hconserved, hcounted, hmarked, hclean, ?_, ?_,
    h.balanced.observe hturn⟩, hext, hsame⟩
  · intro a ha
    unfold Ledger.observe at ha
    dsimp only at ha
    split at ha
    · next heq =>
      rcases List.mem_union_iff.1 ha with ha | ha
      · exact hheld a ha
      · obtain ⟨x, hx, rfl⟩ := h.legible a ha
        exact ⟨x, h.represents.legible_extends hext hx (.inl (hsame heq)),
          (h.represents.headerOf_extends hext hx).symm⟩
    · next hne =>
      obtain ⟨hnext, hlt, hslot⟩ := hback hne
      rw [hslot, List.mem_filter, decide_eq_true_eq] at ha
      rcases List.mem_union_iff.1 ha.1 with ha' | ha'
      · exact hheld a ha'
      · obtain ⟨x, hx, rfl⟩ := h.legible a ha'
        exact ⟨x, h.represents.legible_extends hext hx (.inr ⟨hnext, hlt, ha.2.symm⟩),
          (h.represents.headerOf_extends hext hx).symm⟩
  · intro a ha
    have hmem : a ∈ s'.held.union l.delivered := List.mem_union_iff.2 (.inl ha)
    change a ∈ (l.observe s').delivered
    unfold Ledger.observe
    dsimp only
    split
    · exact hmem
    · next hne =>
      obtain ⟨hnext, hlt, hslot⟩ := hback hne
      obtain ⟨x, hx, rfl⟩ := hheld a ha
      have hxt := hr.slot_lt_taken (Represents.mem_of_read hx.read)
      have htaken' := hnear.taken
      rw [hslot, List.mem_filter, decide_eq_true_eq, ← hext.slotOf _ hlt]
      exact ⟨hmem, (hx.current _ (by omega) (by omega)).symm⟩

/-! ## Releasing -/

namespace KeptAt

variable {x : Nat × Frame} {a : Nat × Nat}

/-- Nothing in the stream has the bit of itself. -/
theorem clean_of_mem (h : l.KeptAt g) {f : Frame} (hf : f ∈ g.frames) :
    f.msgid &&& msgidClaimed = 0 := by
  cases f with
  | padding size fits => exact UInt32.zero_and
  | message m =>
    apply h.clean
    have hmem : m ∈ messages g.frames := List.mem_filterMap.2 ⟨.message m, hf, rfl⟩
    rw [h.represents.messages_pending] at hmem
    refine List.mem_append.2 ((List.mem_append.1 hmem).imp_right fun hmem => ?_)
    obtain ⟨-, hpc⟩ := h.senderAt
    cases hsender : l.state.sender with
    | idle | waiting =>
      simp only [hsender] at hpc
      rw [hpc.1, List.drop_length] at hmem
      cases hmem
    | filling =>
      simp only [hsender] at hpc
      rw [hpc.1] at hmem
      cases hmem
    | publishing m' =>
      simp only [hsender] at hpc
      rwa [hpc.1] at hmem
    | fault => simp only [hsender] at hpc

/-- The bit tells whether a service holds the header. -/
theorem claimed_iff (h : l.KeptAt g) (hx : g.Legible x) :
    (l.state.slotData (g.headerOf x).1).loadWord (g.headerOf x).2 &&& msgidClaimed ≠ 0 ↔
      g.headerOf x ∈ l.state.held := by
  have hmem : x.2 ∈ g.frames := by
    obtain ⟨n, hn, -⟩ := Layout.exists_getElem?_of_placed (Represents.mem_of_read hx.read)
    exact List.mem_of_getElem? hn
  rw [h.marked.word x hx.read hx.current, claimedIf]
  split
  · next hheld =>
    rw [or_and_msgidClaimed]
    exact iff_of_true (by decide) hheld
  · next hfree => exact iff_of_false (fun hne => hne (h.clean_of_mem hmem)) hfree

/-- `release_slot` for a header that a service has been given. -/
theorem releaseHeader (h : l.KeptAt g) (hx : g.Legible x) (closing : Bool) :
    ∃ g', (l.releaseHeader (g.headerOf x).1 (g.headerOf x).2 closing).KeptAt g' ∧
      g.Extends g' ∧ g'.available = g.available := by
  have hstay : Follows l.state g l.state :=
    .of_move h.represents (.stay rfl) h.none h.represents h.senderAt
  have hboth : Follows l.state g (l.state.releaseHeader (g.headerOf x).1 (g.headerOf x).2 closing) ∧
      Turn l.state (l.state.releaseHeader (g.headerOf x).1 (g.headerOf x).2 closing) := by
    by_cases hheld : g.headerOf x ∈ l.state.held
    · exact ⟨State.follows_releaseHeader h.none h.represents h.senderAt hheld closing,
        State.turn_releaseHeader h.counted hheld closing⟩
    · -- its mark is gone
      have hgone := not_not.1 fun hne => hheld ((h.claimed_iff hx).1 hne)
      rw [State.releaseHeader, if_pos (.inl hgone)]
      exact ⟨hstay, State.turn_of_uses rfl⟩
  have hclean : ∀ m ∈ (l.state.releaseHeader (g.headerOf x).1 (g.headerOf x).2 closing).pending,
      m.msgid &&& msgidClaimed = 0 := by
    rw [State.pending_releaseHeader]
    exact h.clean
  obtain ⟨g', hkept, hext, hsame⟩ := h.observe hboth.1 hboth.2 hclean
  exact ⟨g', hkept, hext, hsame (State.slotQueueAvailable_releaseHeader closing)⟩

theorem visitHeader (h : l.KeptAt g) (hx : g.Legible x) (port : UInt32) :
    ∃ g', (l.visitHeader (g.headerOf x).1 (g.headerOf x).2 port).KeptAt g' ∧
      g.Extends g' ∧ g'.available = g.available := by
  unfold Ledger.visitHeader
  dsimp only
  split
  · exact h.releaseHeader hx false
  · exact ⟨g, h, .refl g, rfl⟩

/-- Where a walk stands at the frame `f` of the use `k`, and where it goes on. -/
theorem visitNext (h : l.KeptAt g) {f : Frame} {fs : List Frame} {k stop pos : Nat}
    (port : UInt32) (hslot : g.slotOf k = slot)
    (hfs : ∀ x ∈ placed Frame.stride pos (f :: fs), g.Legible x) (hlo : k * 4096 ≤ pos)
    (hstop : pos + Layout.total Frame.stride (f :: fs) = k * 4096 + stop) (hle : stop ≤ 4096) :
    let here := UInt32.ofNat (pos - k * 4096)
    here < .ofNat stop ∧ g.headerOf (pos, f) = (slot, here.toNat) ∧
      here + calcStride
          (((l.visitHeader slot here.toNat port).state.slotData slot).loadWord (here.toNat + 4)) =
        .ofNat (pos + f.stride - k * 4096) ∧
      pos + f.stride + Layout.total Frame.stride fs = k * 4096 + stop := by
  intro here
  have hx := hfs (pos, f) List.mem_cons_self
  have hsize := f.size_add_le_stride
  rw [Layout.total_cons] at hstop
  have hmod : pos % 4096 = pos - k * 4096 := by omega
  have hdiv : pos / 4096 = k := by omega
  have hnat : here.toNat = pos - k * 4096 := by
    rw [UInt32.toNat_ofNat']
    omega
  have hheader : g.headerOf (pos, f) = (slot, here.toNat) := by
    rw [Stream.headerOf, hdiv, hmod, hslot, hnat]
  obtain ⟨g₁, h₁, hext, havail⟩ := h.visitHeader hx port
  have hx₁ := h.represents.legible_extends hext hx (.inl havail)
  have hheader₁ := h.represents.headerOf_extends hext hx
  have hword := h₁.marked.size (pos, f) hx₁.read hx₁.current
  rw [hheader₁, hheader] at hword
  refine ⟨?_, hheader, ?_, by omega⟩
  · rw [UInt32.lt_iff_toNat_lt, hnat, UInt32.toNat_ofNat']
    omega
  · rw [hword]
    dsimp only
    rw [← Frame.ofNat_stride, ← UInt32.ofNat_add]
    congr 1
    omega

/-- The frames that a walk has yet to visit stay legible, in the same slot. -/
theorem rest_legible (h : l.KeptAt g) (hext : g.Extends g') (havail : g'.available = g.available)
    {f : Frame} {fs : List Frame} {k pos stop : Nat} (hslot : g.slotOf k = slot)
    (hfs : ∀ x ∈ placed Frame.stride pos (f :: fs), g.Legible x) (hlo : k * 4096 ≤ pos)
    (hstop : pos + Layout.total Frame.stride (f :: fs) = k * 4096 + stop) (hle : stop ≤ 4096) :
    g'.slotOf k = slot ∧ ∀ x ∈ placed Frame.stride (pos + f.stride) fs, g'.Legible x := by
  have hx := hfs (pos, f) List.mem_cons_self
  have hsize := f.size_add_le_stride
  rw [Layout.total_cons] at hstop
  have hdiv : pos / 4096 = k := by omega
  have hheader := h.represents.headerOf_extends hext hx
  refine ⟨?_, fun y hy => ?_⟩
  · have hfst := congrArg Prod.fst hheader
    rwa [Stream.headerOf, Stream.headerOf, hdiv, hslot] at hfst
  · exact h.represents.legible_extends hext (hfs y (List.mem_cons_of_mem _ hy)) (.inl havail)

/-- The rest of a walk, over the frames `fs` of the use `k` that it still has to visit. -/
theorem releaseSlotMessages (h : l.KeptAt g) {fs : List Frame} {k stop pos fuel : Nat}
    {port : UInt32} (hslot : g.slotOf k = slot)
    (hfs : ∀ x ∈ placed Frame.stride pos fs, g.Legible x) (hlo : k * 4096 ≤ pos)
    (hstop : pos + Layout.total Frame.stride fs = k * 4096 + stop) (hle : stop ≤ 4096)
    (hfuel : fs.length < fuel) :
    ∃ l', l.releaseSlotMessages slot port (.ofNat stop) fuel (.ofNat (pos - k * 4096)) = some l' ∧
      l'.Kept := by
  induction fs generalizing l g pos fuel with
  | nil =>
    obtain ⟨fuel, rfl⟩ := Nat.exists_eq_add_one_of_ne_zero hfuel.ne'
    have hend : pos - k * 4096 = stop := by
      rw [Layout.total_nil] at hstop
      omega
    rw [hend, Ledger.releaseSlotMessages, if_neg (UInt32.lt_irrefl _)]
    exact ⟨l, rfl, g, h⟩
  | cons f fs ih =>
    rw [List.length_cons] at hfuel
    obtain ⟨fuel, rfl⟩ : ∃ n, fuel = n + 1 := ⟨fuel - 1, by omega⟩
    obtain ⟨hcond, hheader, hnext, hrest⟩ := h.visitNext port hslot hfs hlo hstop hle
    obtain ⟨g₁, h₁, hext, havail⟩ := h.visitHeader (hfs (pos, f) List.mem_cons_self) port
    obtain ⟨hslot₁, hfs₁⟩ := h.rest_legible hext havail hslot hfs hlo hstop hle
    rw [hheader] at h₁
    rw [Ledger.releaseSlotMessages, if_pos hcond]
    dsimp only
    rw [hnext]
    exact ih h₁ hslot₁ hfs₁ (by omega) hrest (Nat.lt_of_succ_lt_succ hfuel)

/-- The frames that the walk over a slot in use has to visit. -/
theorem exists_walk (h : l.KeptAt g) (hused : l.state.releaseCount slot ≠ l.state.useCount slot) :
    ∃ k stop fs, g.slotOf k = slot ∧ stop ≤ 4096 ∧ Layout.total Frame.stride fs = stop ∧
      (∀ x ∈ placed Frame.stride (k * 4096) fs, g.Legible x) ∧ fs.length < walkFuel ∧
      (if l.state.rxData = some slot then l.state.rxPos &&& slotMask else slotSize) =
        .ofNat stop := by
  have hr := h.represents
  have hfin := hr.finished_le
  have htaken := hr.taken_le
  have havail := hr.available_le
  have hcount := h.counted slot
  -- a use that goes on, up to the frame `n`
  have hwalk {k n stop : Nat} (hk : k < g.recycled) (hlive : k ∉ g.released) (hn : n ≤ g.parsed)
      (hstop : g.upTo n = k * 4096 + stop) (hle : stop ≤ 4096) :
      ∃ fs, Layout.total Frame.stride fs = stop ∧
        (∀ x ∈ placed Frame.stride (k * 4096) fs, g.Legible x) ∧ fs.length < walkFuel := by
    have hcur := hr.current_of_live h.conserved hk hlive
    obtain ⟨fs, htotal, hfs⟩ := hr.exists_read hcur hn hstop hle
    have hlength : fs.length * 8 ≤ Layout.total Frame.stride fs := by
      apply Layout.length_mul_le_total
      intro f _
      have := f.size_add_le_stride
      omega
    have hfuel : walkFuel = 513 := rfl
    exact ⟨fs, htotal, hfs, by omega⟩
  by_cases hdata : l.state.rxData = some slot
  · -- the slot that is being read
    obtain ⟨hslot, hlt, -⟩ := hr.entered _ hdata
    obtain ⟨n, hn, hrx⟩ := hr.exists_upTo_rx
    have hstop : l.state.rxPos &&& slotMask = .ofNat (g.rx % 4096) := by
      rw [hr.rxPos, ← and_slotMask, UInt32.ofNat_toNat]
    obtain ⟨fs, htotal, hfs, hfuel⟩ := hwalk (k := g.rx / 4096) (n := n) (by omega)
      (hr.not_released le_rfl) hn (by omega) (show g.rx % 4096 ≤ 4096 by omega)
    rw [if_pos hdata, hstop]
    exact ⟨_, _, fs, hslot.symm, by omega, htotal, hfs, hfuel, rfl⟩
  · rw [if_neg hdata] at hcount ⊢
    have hheld : 0 < l.state.heldIn slot := by omega
    obtain ⟨a, ha, hslot⟩ := List.countP_pos_iff.1 hheld
    obtain ⟨x, hx, hlive, rfl⟩ := hr.held_at a ha
    have hslot : g.slotOf (x.1 / 4096) = slot := by simpa using hslot
    have hk : x.1 / 4096 < g.rx / 4096 := by
      rcases hr.held_le hx with hlt | ⟨hcur, hdata'⟩
      · exact hlt
      · rw [hdata', ← hslot, hcur] at hdata
        exact absurd rfl hdata
    have hread := hr.rx_le
    obtain ⟨n, hn, hend⟩ := hr.exists_upTo (k := x.1 / 4096 + 1) (n := g.parsed) (by omega)
    obtain ⟨fs, htotal, hfs, hfuel⟩ :=
      hwalk (k := x.1 / 4096) (n := n) (by omega) hlive hn (by omega) le_rfl
    exact ⟨_, _, fs, hslot, le_rfl, htotal, hfs, hfuel, rfl⟩

end KeptAt

theorem Kept.releaseSlot (h : l.Kept) (port : UInt32) (slot : Nat) :
    ∃ l', l.releaseSlot port slot = some l' ∧ l'.Kept := by
  obtain ⟨g, h⟩ := h
  unfold Ledger.releaseSlot
  split
  case isFalse => exact ⟨l, rfl, g, h⟩
  case isTrue hused =>
    obtain ⟨k, stop, fs, hslot, hle, htotal, hfs, hfuel, hend⟩ := h.exists_walk hused
    have hzero : UInt32.ofNat (k * 4096 - k * 4096) = 0 := by
      rw [Nat.sub_self]
      rfl
    dsimp only
    rw [hend, ← hzero]
    exact h.releaseSlotMessages hslot hfs le_rfl (by rw [htotal]) hle hfuel

theorem Kept.releaseServiceMessages (h : l.Kept) (port : UInt32) :
    ∃ l', l.releaseServiceMessages port = some l' ∧ l'.Kept := by
  unfold Ledger.releaseServiceMessages
  generalize l.range.slots = slots
  induction slots generalizing l with
  | nil => exact ⟨l, rfl, h⟩
  | cons slot slots ih =>
    obtain ⟨l₁, hslot, h₁⟩ := h.releaseSlot port slot
    rw [List.foldlM_cons, hslot]
    exact ih h₁

theorem Kept.init (r : SlotRange) (slotData : Nat → Block) : (Ledger.init r slotData).Kept := by
  refine ⟨.init r, rfl, State.represents_init r slotData, State.senderAt_init r slotData, .init r,
    fun _ => rfl, .init r slotData, fun m hm => ?_, fun a ha => ?_, fun a ha => ?_, fun _ => rfl⟩
  · cases hm
  · cases ha
  · cases ha

theorem Kept.step (h : l.Kept) {e : Event} (he : e.WellFormed) : (l.step e).Kept := by
  obtain ⟨g, hg⟩ := h
  cases e with
  | transport e =>
    have hclean : ∀ m ∈ (l.state.step e).pending, m.msgid &&& msgidClaimed = 0 := by
      intro m hm
      rcases State.mem_pending_step hm with hm | ⟨isBlocking, rfl⟩
      · exact hg.clean m hm
      · exact he
    obtain ⟨g', hg', -⟩ := hg.observe
      (State.follows_step hg.none hg.represents hg.senderAt e)
      (State.turn_step hg.represents hg.counted e) hclean
    exact ⟨g', hg'⟩
  | release slot off closing =>
    dsimp only [Ledger.step]
    split
    · next hmem =>
      obtain ⟨x, hx, hxeq⟩ := hg.legible _ (List.contains_iff_mem.1 hmem)
      obtain ⟨rfl, rfl⟩ := Prod.mk.inj hxeq
      obtain ⟨g', hg', -⟩ := hg.releaseHeader hx closing
      exact ⟨g', hg'⟩
    · exact ⟨g, hg⟩
  | releaseService port =>
    obtain ⟨l', hl', hkept⟩ := Kept.releaseServiceMessages ⟨g, hg⟩ port
    dsimp only [Ledger.step]
    rw [hl']
    exact hkept

theorem Kept.accounted (h : l.Kept) : Accounted l := by
  have hwalks (port : UInt32) : (l.releaseServiceMessages port).isSome := by
    obtain ⟨l', hl', -⟩ := h.releaseServiceMessages port
    rw [hl']
    rfl
  obtain ⟨g, h⟩ := h
  refine ⟨h.counted, fun slot => ?_, fun a ha => ?_, ⟨h.marked.nodup, h.held⟩, hwalks⟩
  · have hcount := h.counted slot
    have hopen : (l.state.rxData = some slot ∨ 0 < l.state.heldIn slot) ↔
        ¬ l.state.useCount slot = l.state.releaseCount slot := by
      split at hcount
      · next hdata => exact iff_of_true (.inl hdata) (by omega)
      · next hdata =>
        rw [or_iff_right hdata]
        omega
    rw [h.balanced slot, if_congr hopen rfl rfl, ite_not]
  · obtain ⟨x, hx, rfl⟩ := h.legible a ha
    exact h.claimed_iff hx

/-- For every run in which the sender sends well-formed messages, from slots with any
contents. -/
theorem uses_accounted (r : SlotRange) (slotData : Nat → Block) (es : List Event)
    (hes : ∀ e ∈ es, e.WellFormed) : Accounted ((Ledger.init r slotData).run es) := by
  have hall : Machine.Along Ledger.step (fun _ e => e.WellFormed) (Ledger.init r slotData) es :=
    Machine.along_of_forall_mem Ledger.step hes
  have hkept : (Machine.run Ledger.step (Ledger.init r slotData) es).Kept :=
    hall.invariant (fun _ _ h he => h.step he) (.init r slotData)
  exact hkept.accounted

/-- A message that is given back twice by its service, and once more after the service has
been closed. -/
theorem uses_accounted_released_again :
    let m : Message := ⟨0x05001002, [[1, 2, 3]], by decide, by decide⟩
    let sending : List Event :=
      [.transport (.send m true), .transport .sender, .transport .sender]
    let receiving : List Event := List.replicate 3 (.transport (.handler .claim))
    let es := sending ++ receiving ++
      [.release 1 0 true, .release 1 0 false, .release 1 0 false, .releaseService 2]
    (∀ e ∈ es, e.WellFormed) ∧
      Accounted (run (Ledger.init ⟨1, 2, by decide⟩ fun _ _ => 0) es) := by
  intro m sending receiving es
  have hes : ∀ e ∈ es, e.WellFormed := by
    intro e he
    simp only [es, sending, receiving, List.replicate, List.cons_append, List.nil_append,
      List.mem_cons, List.not_mem_nil, or_false] at he
    rcases he with rfl | rfl | rfl | rfl | rfl | rfl | rfl | rfl | rfl | rfl
    · exact (by decide : m.msgid &&& msgidClaimed = 0)
    all_goals exact trivial
  exact ⟨hes, uses_accounted _ _ es hes⟩

end Ledger

end Slots
