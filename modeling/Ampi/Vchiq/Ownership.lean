-- SUMMARY: Slots that have been handed back are left alone: when the receiver keeps to that.
import Ampi.Vchiq.Walks

/-!
# Ownership

A slot is the receiver's from the moment it is entered until the last reference to it has been
given back; from then on the sender writes into it. What the receiver does is recorded beside
the ledger: each access to the bytes of a slot, in the order in which they are made.
-/

namespace Slots

/-! ## Actions -/

/-- What the receiver does with a slot. -/
inductive Action where
  /-- It reads or writes bytes of the slot. -/
  | access (slot : Nat)
  /-- It puts the slot into the sender's `slot_queue`. -/
  | handBack (slot : Nat)
  /-- It finds the slot in the sender's `slot_queue` at the read position. -/
  | enter (slot : Nat)
  deriving DecidableEq, Repr

/-- The slots that have been handed back and not been entered again, behind an action. -/
def Action.moves (away : List Nat) : Action → List Nat
  | .access _ => away
  | .handBack slot => slot :: away
  | .enter slot => away.filter (· ≠ slot)

/-- An access finds its slot with the receiver. -/
def Action.owned (away : List Nat) : Action → Prop
  | .access slot => slot ∉ away
  | _ => True

instance (away : List Nat) : ∀ a : Action, Decidable (a.owned away)
  | .access slot => inferInstanceAs (Decidable (slot ∉ away))
  | .handBack _ | .enter _ => inferInstanceAs (Decidable True)

namespace State

/-- `release_slot` from the increment of `release_count` on. -/
def dropActions (s : State) (slot : Nat) : List Action :=
  if s.releaseCount slot + 1 = s.useCount slot then [.handBack slot] else []

/-- `release_slot` with a header, whose `msgid` it reads, and rewrites if it has the bit. -/
def releaseActions (s : State) (slot off : Nat) (closing : Bool) : List Action :=
  let msgid := (s.slotData slot).loadWord off
  if msgid &&& msgidClaimed = 0 ∨ closing then [.access slot]
  else .access slot :: .access slot :: s.dropActions slot

/-- `vchiq_release_message`, which looks at the header before `release_slot` does. -/
def releaseMessageActions (s : State) (slot off : Nat) (closing : Bool) : List Action :=
  .access slot :: s.releaseActions slot off closing

/-- The handling of one message in `parse_rx_slots`. -/
def parseActions (s : State) : List Action :=
  match s.rxData with
  | some slot => [.access slot]
  | none => [.enter s.enterSlot.2, .access s.enterSlot.2]

/-- `skip_message`. -/
def skipActions (s : State) (size : UInt32) : List Action :=
  if s.rxPos + calcStride size &&& slotMask = 0 then
    match s.rxData with
    | none => []
    | some slot => s.dropActions slot
  else []

def handlerActions (s : State) : List Action :=
  match s.handler with
  | .idle => []
  | .parsing txPos => if s.rxPos = txPos then [] else s.parseActions
  | .skipping _ size => s.skipActions size

def actions (s : State) : Event → List Action
  | .handler _ => s.handlerActions
  | .release slot off closing =>
    if s.held.contains (slot, off) then s.releaseMessageActions slot off closing else []
  | .send _ _ | .sender | .recycle => []

end State

namespace Ledger

/-- What `release_service_messages` does with a header before it reads the size. -/
def visitActions (l : Ledger) (slot off : Nat) (port : UInt32) : List Action :=
  let msgid := (l.state.slotData slot).loadWord off
  if msgDstPort msgid = port ∧ msgid &&& msgidClaimed ≠ 0 then
    .access slot :: l.state.releaseActions slot off false
  else [.access slot]

/-- The loop of `release_service_messages` over the headers of a slot. -/
def walkActions (l : Ledger) (slot : Nat) (port stop : UInt32) :
    (fuel : Nat) → (pos : UInt32) → List Action
  | 0, _ => []
  | fuel + 1, pos =>
    if pos < stop then
      let l' := l.visitHeader slot pos.toNat port
      let size := (l'.state.slotData slot).loadWord (pos.toNat + 4)
      l.visitActions slot pos.toNat port ++
        .access slot :: walkActions l' slot port stop fuel (pos + calcStride size)
    else []

/-- The slot as `release_service_messages` goes over it. -/
def releaseSlotActions (l : Ledger) (port : UInt32) (slot : Nat) : List Action :=
  if l.state.releaseCount slot ≠ l.state.useCount slot then
    l.walkActions slot port (l.releaseEnd slot) walkFuel 0
  else []

def releaseSlotsActions (l : Ledger) (port : UInt32) : List Nat → List Action
  | [] => []
  | slot :: slots =>
    l.releaseSlotActions port slot ++
      ((l.releaseSlot port slot).getD l).releaseSlotsActions port slots

def actions (l : Ledger) : Event → List Action
  | .transport e => l.state.actions e
  | .release slot off closing =>
    if l.delivered.contains (slot, off) then l.state.releaseMessageActions slot off closing else []
  | .releaseService port => l.releaseSlotsActions port l.range.slots

/-- What the receiver does in a run. -/
def trace (l : Ledger) : List Event → List Action
  | [] => []
  | e :: es => l.actions e ++ (l.step e).trace es

/-! ## The property -/

/-- In a run no slot that has been handed back is read or written. -/
def LeavesAlone (l : Ledger) (es : List Event) : Prop :=
  Machine.Along Action.moves Action.owned [] (l.trace es)

/-- A header that is given back once more is in a slot that is in use. Of each slot in use that
is not being read, a service other than the one that is closed holds a message. -/
def keepsSlots (l : Ledger) : Event → Prop
  | .release slot off _ =>
    l.delivered.contains (slot, off) → l.state.useCount slot ≠ l.state.releaseCount slot
  | .releaseService port =>
    ∀ slot ∈ l.range.slots, l.state.useCount slot ≠ l.state.releaseCount slot →
      l.state.rxData = some slot ∨
        ∃ off, (slot, off) ∈ l.state.held ∧
          msgDstPort ((l.state.slotData slot).loadWord off) ≠ port
  | .transport _ => True

end Ledger

/-! ## The counts -/

namespace State

variable {s s' : State} {away : List Nat} {as : List Action} {slot off : Nat}

/-- To the slots that have been handed back all references have been given back. -/
def Away (s : State) (away : List Nat) : Prop :=
  ∀ slot ∈ away, s.useCount slot = s.releaseCount slot

/-- Nothing that is done on the way to `s` is done to a slot that has been handed back. -/
def Careful (s : State) (away : List Nat) (as : List Action) : Prop :=
  Machine.Along Action.moves Action.owned away as ∧ s.Away (Machine.run Action.moves away as)

theorem Away.not_mem (h : s.Away away) (hused : s.useCount slot ≠ s.releaseCount slot) :
    slot ∉ away := fun hmem => hused (h slot hmem)

theorem Away.careful_nil (h : s.Away away) : s.Careful away [] := ⟨trivial, h⟩

theorem Careful.access (h : s.Careful away as) (hslot : slot ∉ away) :
    s.Careful away (.access slot :: as) := ⟨⟨hslot, h.1⟩, h.2⟩

theorem Careful.append {bs : List Action} (h : Machine.Along Action.moves Action.owned away as)
    (hs : s.Careful (Machine.run Action.moves away as) bs) : s.Careful away (as ++ bs) := by
  refine ⟨Machine.along_append.2 ⟨h, hs.1⟩, ?_⟩
  rw [Machine.run_append]
  exact hs.2

theorem dropReference_counts (s : State) (slot : Nat) :
    (s.dropReference slot).useCount = s.useCount ∧ (s.dropReference slot).releaseCount =
      Function.update s.releaseCount slot (s.releaseCount slot + 1) := by
  unfold dropReference
  dsimp only
  split <;> exact ⟨rfl, rfl⟩

/-- The last reference to a slot hands it back. -/
theorem Away.careful_drop (h : s.Away away) (hused : s.useCount slot ≠ s.releaseCount slot)
    (hcounts : s'.useCount = s.useCount ∧ s'.releaseCount =
      Function.update s.releaseCount slot (s.releaseCount slot + 1)) :
    s'.Careful away (s.dropActions slot) := by
  obtain ⟨huse, hrelease⟩ := hcounts
  have hold : s'.Away away := by
    intro x hx
    have hne : x ≠ slot := by
      rintro rfl
      exact hused (h x hx)
    rw [huse, hrelease, Function.update_of_ne hne]
    exact h x hx
  unfold dropActions
  split
  · next hlast =>
    refine ⟨⟨trivial, trivial⟩, fun x hx => ?_⟩
    rcases List.mem_cons.1 hx with rfl | hx
    · rw [huse, hrelease, Function.update_self]
      exact hlast.symm
    · exact hold x hx
  · exact hold.careful_nil

theorem Away.careful_releaseHeader (h : s.Away away)
    (hused : s.useCount slot ≠ s.releaseCount slot) (closing : Bool) :
    (s.releaseHeader slot off closing).Careful away (s.releaseActions slot off closing) := by
  have hslot := h.not_mem hused
  unfold releaseHeader releaseActions
  dsimp only
  split
  · exact h.careful_nil.access hslot
  · refine ((h.careful_drop hused ?_).access hslot).access hslot
    exact dropReference_counts _ slot

theorem Away.careful_releaseMessage (h : s.Away away)
    (hused : s.useCount slot ≠ s.releaseCount slot) (closing : Bool) :
    (s.releaseHeader slot off closing).Careful away (s.releaseMessageActions slot off closing) :=
  (h.careful_releaseHeader hused closing).access (h.not_mem hused)

theorem parseMessage_counts {txPos : UInt32} (r : Reception) {x : Nat}
    (hx : x ≠ s.enterSlot.2) :
    (s.parseMessage txPos r).useCount x = s.useCount x ∧
      (s.parseMessage txPos r).releaseCount x = s.releaseCount x := by
  have henter : s.enterSlot.1.useCount x = s.useCount x ∧
      s.enterSlot.1.releaseCount x = s.releaseCount x := by
    unfold enterSlot at hx ⊢
    split
    · exact ⟨rfl, rfl⟩
    · next hdata =>
      rw [hdata] at hx
      exact ⟨Function.update_of_ne hx .., Function.update_of_ne hx ..⟩
  unfold parseMessage
  generalize s.enterSlot = entered at hx henter
  obtain ⟨s₁, slot⟩ := entered
  dsimp only at hx henter ⊢
  split
  · exact henter
  · dsimp only
    rw [Function.update_of_ne hx]
    exact henter
  · exact henter

theorem Away.careful_handler (h : s.Away away) (hcounted : s.Counted) (r : Reception) :
    (s.handlerStep r).Careful away s.handlerActions := by
  -- the slot that is being read is in use
  have hreading {slot : Nat} (hdata : s.rxData = some slot) :
      s.useCount slot ≠ s.releaseCount slot := by
    have hcount := hcounted slot
    rw [if_pos hdata] at hcount
    omega
  unfold handlerStep handlerActions
  cases s.handler with
  | idle => exact Away.careful_nil h
  | parsing txPos =>
    dsimp only
    by_cases hend : s.rxPos = txPos
    · rw [if_pos hend, if_pos hend]
      exact Away.careful_nil h
    · rw [if_neg hend, if_neg hend]
      unfold parseActions
      cases hdata : s.rxData with
      | some slot =>
        have hslot := h.not_mem (hreading hdata)
        have henter : s.enterSlot.2 = slot := by
          unfold enterSlot
          rw [hdata]
        have hafter : (s.parseMessage txPos r).Away away := by
          intro x hx
          have hne : x ≠ s.enterSlot.2 := by
            rw [henter]
            rintro rfl
            exact hslot hx
          obtain ⟨huse, hrelease⟩ := parseMessage_counts r hne
          rw [huse, hrelease]
          exact h x hx
        exact hafter.careful_nil.access hslot
      | none =>
        refine ⟨⟨trivial, by simp [Action.owned, Action.moves], trivial⟩, fun x hx => ?_⟩
        have hmem : x ∈ away.filter (· ≠ s.enterSlot.2) := hx
        rw [List.mem_filter, decide_eq_true_eq] at hmem
        obtain ⟨huse, hrelease⟩ := parseMessage_counts r hmem.2
        rw [huse, hrelease]
        exact h x hmem.1
  | skipping txPos size =>
    unfold skipMessage skipActions
    dsimp only
    by_cases hend : s.rxPos + calcStride size &&& slotMask = 0
    · rw [if_pos hend, if_pos hend]
      cases hdata : s.rxData with
      | none => exact Away.careful_nil h
      | some slot =>
        have hcounts := dropReference_counts
          { s with rxPos := s.rxPos + calcStride size, handler := .parsing txPos } slot
        rw [hdata] at hcounts
        exact h.careful_drop (hreading hdata) hcounts
    · rw [if_neg hend, if_neg hend]
      exact Away.careful_nil h

theorem Away.of_uses (h : s.Away away) (huses : s'.uses = s.uses) : s'.Away away := by
  simp only [uses, Prod.mk.injEq] at huses
  obtain ⟨-, huse, hrelease, -⟩ := huses
  intro x hx
  rw [huse, hrelease]
  exact h x hx

/-- A step of the transport. -/
theorem Away.careful_step (h : s.Away away) (hcounted : s.Counted) (e : Event) :
    (s.step e).Careful away (s.actions e) := by
  cases e with
  | send m isBlocking =>
    refine Away.careful_nil ?_
    dsimp only [step]
    split
    · exact h.of_uses (uses_reserveSpace s _ isBlocking).1
    · exact h
  | sender => exact (h.of_uses s.uses_senderStep).careful_nil
  | handler r => exact h.careful_handler hcounted r
  | release slot off closing =>
    dsimp only [step, actions]
    by_cases hheld : (slot, off) ∈ s.held
    · have hcount := hcounted slot
      have hpos : 0 < s.heldIn slot := List.countP_pos_iff.2 ⟨_, hheld, decide_eq_true rfl⟩
      rw [if_pos hheld, if_pos (List.contains_iff_mem.2 hheld)]
      exact h.careful_releaseMessage (by omega) closing
    · rw [if_neg hheld, if_neg fun hin => hheld (List.contains_iff_mem.1 hin)]
      exact h.careful_nil
  | recycle => exact (h.of_uses s.uses_processFreeQueue.1).careful_nil

end State

namespace Ledger

variable {l l' : Ledger} {g g' : Stream} {x : Nat × Frame} {slot : Nat} {port : UInt32}
  {away : List Nat}

/-- The bit does not touch the port. -/
theorem msgDstPort_claimedIf (held : Prop) [Decidable held] (msgid : UInt32) :
    msgDstPort (claimedIf held msgid) = msgDstPort msgid := by
  unfold claimedIf msgDstPort
  split
  · have hzero : msgidClaimed.toBitVec &&& (0xfff : UInt32).toBitVec = 0#32 := by decide
    apply UInt32.toBitVec_inj.1
    rw [UInt32.toBitVec_and, UInt32.toBitVec_or, BitVec.and_or_distrib_right, hzero,
      BitVec.or_zero, UInt32.toBitVec_and]
  · rfl

theorem KeptAt.msgDstPort (h : l.KeptAt g) (hx : g.Legible x) :
    msgDstPort ((l.state.slotData (g.headerOf x).1).loadWord (g.headerOf x).2) =
      msgDstPort x.2.msgid := by
  rw [h.marked.word x hx.read hx.current, msgDstPort_claimedIf]

/-- Each slot in use is being read or has a message that the walk for `port` passes over. -/
def Sheltered (l : Ledger) (g : Stream) (port : UInt32) : Prop :=
  ∀ slot ∈ l.range.slots, l.state.useCount slot ≠ l.state.releaseCount slot →
    l.state.rxData = some slot ∨
      ∃ x, g.Legible x ∧ g.headerOf x ∈ l.state.held ∧ (g.headerOf x).1 = slot ∧
        Slots.msgDstPort x.2.msgid ≠ port

theorem KeptAt.sheltered (h : l.KeptAt g) (hok : l.keepsSlots (.releaseService port)) :
    l.Sheltered g port := by
  intro slot hslot hused
  refine (hok slot hslot hused).imp_right fun ⟨off, hheld, hport⟩ => ?_
  obtain ⟨x, hx, heq⟩ := h.represents.legible_of_held h.conserved hheld
  obtain ⟨rfl, rfl⟩ := Prod.mk.inj heq
  exact ⟨x, hx, hheld, rfl, h.msgDstPort hx ▸ hport⟩

/-- A walk has gone on from `l` to `l'` and no slot has been handed back. -/
structure Passed (l l' : Ledger) (g' : Stream) (port : UInt32) : Prop where
  kept : l'.KeptAt g'
  sheltered : l'.Sheltered g' port
  range : l'.range = l.range
  counts : ∀ slot, l'.state.useCount slot = l'.state.releaseCount slot ↔
    l.state.useCount slot = l.state.releaseCount slot

theorem Passed.refl (h : l.KeptAt g) (hsheltered : l.Sheltered g port) : Passed l l g port :=
  ⟨h, hsheltered, rfl, fun _ => Iff.rfl⟩

theorem Passed.trans {l'' : Ledger} {g'' : Stream} (h : Passed l l' g' port)
    (h' : Passed l' l'' g'' port) : Passed l l'' g'' port :=
  ⟨h'.kept, h'.sheltered, h'.range.trans h.range,
    fun slot => (h'.counts slot).trans (h.counts slot)⟩

theorem releaseHeader_fields {s : State} {off : Nat}
    (hclaimed : (s.slotData slot).loadWord off &&& msgidClaimed ≠ 0) :
    (s.releaseHeader slot off false).useCount = s.useCount ∧
      (s.releaseHeader slot off false).releaseCount =
        Function.update s.releaseCount slot (s.releaseCount slot + 1) ∧
      (s.releaseHeader slot off false).rxData = s.rxData ∧
      (s.releaseHeader slot off false).held = s.held.erase (slot, off) := by
  unfold State.releaseHeader
  dsimp only
  rw [if_neg (by simpa using hclaimed)]
  unfold State.dropReference
  dsimp only
  split <;> exact ⟨rfl, rfl, rfl, rfl⟩

/-- A visit to a slot that is sheltered. -/
theorem KeptAt.passed_visit (h : l.KeptAt g) (hsheltered : l.Sheltered g port)
    (hx : g.Legible x) (hrange : (g.headerOf x).1 ∈ l.range.slots)
    (hused : l.state.useCount (g.headerOf x).1 ≠ l.state.releaseCount (g.headerOf x).1) :
    (∃ g', Passed l (l.visitHeader (g.headerOf x).1 (g.headerOf x).2 port) g' port ∧
      g.Extends g' ∧ g'.available = g.available) ∧
    ∀ a ∈ l.visitActions (g.headerOf x).1 (g.headerOf x).2 port,
      a = .access (g.headerOf x).1 := by
  unfold Ledger.visitHeader visitActions
  dsimp only
  split
  case isFalse => exact ⟨⟨g, .refl h hsheltered, .refl g, rfl⟩, by simp⟩
  case isTrue hmatch =>
    obtain ⟨hport, hclaimed⟩ := hmatch
    rw [h.msgDstPort hx] at hport
    obtain ⟨g', hkept, hext, havail⟩ := h.releaseHeader hx false
    obtain ⟨huse, hrelease, hdata, hheld⟩ := releaseHeader_fields hclaimed
    -- what shelters a slot is not what is given back
    have hstays (slot : Nat) (hslot : slot ∈ l.range.slots)
        (hopen : l.state.useCount slot ≠ l.state.releaseCount slot) :
        (l.state.releaseHeader (g.headerOf x).1 (g.headerOf x).2 false).rxData = some slot ∨
          ∃ y, g'.Legible y ∧
            g'.headerOf y ∈ (l.state.releaseHeader (g.headerOf x).1 (g.headerOf x).2 false).held ∧
            (g'.headerOf y).1 = slot ∧ Slots.msgDstPort y.2.msgid ≠ port := by
      rw [hdata, hheld]
      refine (hsheltered slot hslot hopen).imp_right fun ⟨y, hy, hyheld, hyslot, hyport⟩ => ?_
      have hsame := h.represents.headerOf_extends hext hy
      refine ⟨y, h.represents.legible_extends hext hy (.inl havail), ?_, hsame ▸ hyslot, hyport⟩
      rw [hsame]
      refine (List.mem_erase_of_ne fun heq => hyport ?_).2 hyheld
      rw [← h.msgDstPort hy, heq, h.msgDstPort hx, hport]
    have hmore : l.state.releaseCount (g.headerOf x).1 + 1 ≠
        l.state.useCount (g.headerOf x).1 := by
      have hcount : (l.state.releaseHeader (g.headerOf x).1 (g.headerOf x).2 false).useCount
          (g.headerOf x).1 = _ := hkept.counted (g.headerOf x).1
      change _ = (l.state.releaseHeader (g.headerOf x).1 (g.headerOf x).2 false).releaseCount
        (g.headerOf x).1 + _ + _ at hcount
      rw [huse, hrelease, Function.update_self] at hcount
      rcases hstays _ hrange hused with hreading | ⟨y, -, hyheld, hyslot, -⟩
      · have hreading : (l.releaseHeader (g.headerOf x).1 (g.headerOf x).2 false).state.rxData =
            some (g.headerOf x).1 := hreading
        rw [if_pos hreading] at hcount
        omega
      · have hpos : 0 < (l.releaseHeader (g.headerOf x).1 (g.headerOf x).2 false).state.heldIn
            (g.headerOf x).1 := List.countP_pos_iff.2 ⟨_, hyheld, decide_eq_true hyslot⟩
        omega
    have hsheltered' : (l.releaseHeader (g.headerOf x).1 (g.headerOf x).2 false).Sheltered g'
        port := by
      intro slot hslot hopen
      refine hstays slot hslot ?_
      by_cases heq : slot = (g.headerOf x).1
      · exact heq ▸ hused
      · change (l.state.releaseHeader _ _ false).useCount slot ≠
          (l.state.releaseHeader _ _ false).releaseCount slot at hopen
        rwa [huse, hrelease, Function.update_of_ne heq] at hopen
    refine ⟨⟨g', ⟨hkept, hsheltered', rfl, fun slot => ?_⟩, hext, havail⟩, ?_⟩
    · change (l.state.releaseHeader _ _ false).useCount slot =
        (l.state.releaseHeader _ _ false).releaseCount slot ↔ _
      rw [huse, hrelease]
      by_cases heq : slot = (g.headerOf x).1
      · rw [heq, Function.update_self]
        exact iff_of_false (fun h => hmore h.symm) hused
      · rw [Function.update_of_ne heq]
    · unfold State.releaseActions State.dropActions
      dsimp only
      rw [if_neg hmore]
      split <;> simp

open Layout (placed)

/-- The rest of a walk over a slot in use. -/
theorem KeptAt.passed_walk (h : l.KeptAt g) (hsheltered : l.Sheltered g port)
    {fs : List Frame} {k stop pos fuel : Nat} (hslot : g.slotOf k = slot)
    (hrange : slot ∈ l.range.slots) (hused : l.state.useCount slot ≠ l.state.releaseCount slot)
    (hfs : ∀ x ∈ placed Frame.stride pos fs, g.Legible x) (hlo : k * 4096 ≤ pos)
    (hstop : pos + Layout.total Frame.stride fs = k * 4096 + stop) (hle : stop ≤ 4096)
    (hfuel : fs.length < fuel) :
    (∃ l' g', l.releaseSlotMessages slot port (.ofNat stop) fuel (.ofNat (pos - k * 4096)) =
        some l' ∧ Passed l l' g' port) ∧
      ∀ a ∈ l.walkActions slot port (.ofNat stop) fuel (.ofNat (pos - k * 4096)),
        a = .access slot := by
  induction fs generalizing l g pos fuel with
  | nil =>
    obtain ⟨fuel, rfl⟩ := Nat.exists_eq_add_one_of_ne_zero hfuel.ne'
    have hend : pos - k * 4096 = stop := by
      rw [Layout.total_nil] at hstop
      omega
    rw [hend, Ledger.releaseSlotMessages, walkActions, if_neg (UInt32.lt_irrefl _),
      if_neg (UInt32.lt_irrefl _)]
    exact ⟨⟨l, g, rfl, .refl h hsheltered⟩, by simp⟩
  | cons f fs ih =>
    rw [List.length_cons] at hfuel
    obtain ⟨fuel, rfl⟩ : ∃ n, fuel = n + 1 := ⟨fuel - 1, by omega⟩
    have hx := hfs (pos, f) List.mem_cons_self
    obtain ⟨hcond, hheader, hnext, hrest⟩ := h.visitNext port hslot hfs hlo hstop hle
    have hfst := congrArg Prod.fst hheader
    obtain ⟨⟨g₁, hpassed, hext, havail⟩, hvisit⟩ :=
      h.passed_visit hsheltered hx (hfst ▸ hrange) (hfst ▸ hused)
    obtain ⟨hslot₁, hfs₁⟩ := h.rest_legible hext havail hslot hfs hlo hstop hle
    rw [hheader] at hpassed hvisit
    have hused₁ := fun heq => hused ((hpassed.counts slot).1 heq)
    obtain ⟨⟨l', g', hl', hpassed'⟩, hactions⟩ := ih hpassed.kept hpassed.sheltered hslot₁
      (hpassed.range ▸ hrange) hused₁ hfs₁ (by omega) hrest (Nat.lt_of_succ_lt_succ hfuel)
    rw [Ledger.releaseSlotMessages, walkActions, if_pos hcond, if_pos hcond]
    dsimp only
    rw [hnext]
    refine ⟨⟨l', g', hl', hpassed.trans hpassed'⟩, fun a ha => ?_⟩
    rcases List.mem_append.1 ha with ha | ha
    · exact hvisit a ha
    · rcases List.mem_cons.1 ha with rfl | ha
      · rfl
      · exact hactions a ha

/-- The walk leaves a slot to the receiver, and reads it only if it is in use. -/
theorem KeptAt.passed_releaseSlot (h : l.KeptAt g) (hsheltered : l.Sheltered g port)
    (hrange : slot ∈ l.range.slots) :
    (∃ l' g', l.releaseSlot port slot = some l' ∧ Passed l l' g' port) ∧
      ∀ a ∈ l.releaseSlotActions port slot,
        a = .access slot ∧ l.state.useCount slot ≠ l.state.releaseCount slot := by
  unfold Ledger.releaseSlot releaseSlotActions releaseEnd
  split
  case isFalse => exact ⟨⟨l, g, rfl, .refl h hsheltered⟩, by simp⟩
  case isTrue hused =>
    obtain ⟨k, stop, fs, hslot, hle, htotal, hfs, hfuel, hend⟩ := h.exists_walk hused
    have hzero : UInt32.ofNat (k * 4096 - k * 4096) = 0 := by
      rw [Nat.sub_self]
      rfl
    dsimp only
    rw [hend, ← hzero]
    obtain ⟨hwalk, hactions⟩ := h.passed_walk hsheltered hslot hrange hused.symm hfs le_rfl
      (by rw [htotal]) hle hfuel
    exact ⟨hwalk, fun a ha => ⟨hactions a ha, hused.symm⟩⟩

/-- `release_service_messages` reads and writes only slots in use. -/
theorem KeptAt.passed_releaseSlots (h : l.KeptAt g) (hsheltered : l.Sheltered g port)
    {slots : List Nat} (hslots : ∀ slot ∈ slots, slot ∈ l.range.slots) :
    (∃ l' g', slots.foldlM (fun l slot => l.releaseSlot port slot) l = some l' ∧
        Passed l l' g' port) ∧
      ∀ a ∈ l.releaseSlotsActions port slots, ∃ slot,
        a = .access slot ∧ l.state.useCount slot ≠ l.state.releaseCount slot := by
  induction slots generalizing l g with
  | nil => exact ⟨⟨l, g, rfl, .refl h hsheltered⟩, by simp [releaseSlotsActions]⟩
  | cons slot slots ih =>
    obtain ⟨⟨l₁, g₁, hl₁, hpassed⟩, hactions⟩ :=
      h.passed_releaseSlot hsheltered (hslots slot List.mem_cons_self)
    obtain ⟨⟨l', g', hl', hpassed'⟩, hrest⟩ := ih hpassed.kept hpassed.sheltered fun slot' hslot' =>
      hpassed.range ▸ hslots slot' (List.mem_cons_of_mem _ hslot')
    rw [List.foldlM_cons, releaseSlotsActions, hl₁]
    refine ⟨⟨l', g', hl', hpassed.trans hpassed'⟩, fun a ha => ?_⟩
    rcases List.mem_append.1 ha with ha | ha
    · exact ⟨slot, hactions a ha⟩
    · obtain ⟨slot', rfl, hused⟩ := hrest a ha
      exact ⟨slot', rfl, fun heq => hused ((hpassed.counts slot').2 heq)⟩

/-! ## Runs -/

/-- Accesses to slots in use move no slot. -/
theorem careful_of_accesses {s s' : State} {as : List Action} (h : s.Away away)
    (hcounts : ∀ slot, s'.useCount slot = s'.releaseCount slot ↔
      s.useCount slot = s.releaseCount slot)
    (has : ∀ a ∈ as, ∃ slot, a = .access slot ∧ s.useCount slot ≠ s.releaseCount slot) :
    s'.Careful away as := by
  induction as with
  | nil => exact State.Away.careful_nil fun slot hslot => (hcounts slot).2 (h slot hslot)
  | cons a as ih =>
    obtain ⟨slot, rfl, hused⟩ := has a List.mem_cons_self
    exact (ih fun b hb => has b (List.mem_cons_of_mem _ hb)).access (h.not_mem hused)

theorem Kept.careful_step (h : l.Kept) (haway : l.state.Away away) {e : Event}
    (hok : l.keepsSlots e) : (l.step e).state.Careful away (l.actions e) := by
  obtain ⟨g, hg⟩ := h
  cases e with
  | transport e => exact haway.careful_step hg.counted e
  | release slot off closing =>
    unfold Ledger.step Ledger.actions
    dsimp only
    by_cases hmem : l.delivered.contains (slot, off)
    · rw [if_pos hmem, if_pos hmem]
      exact haway.careful_releaseMessage (hok hmem) closing
    · rw [if_neg hmem, if_neg hmem]
      exact haway.careful_nil
  | releaseService port =>
    obtain ⟨⟨l', g', hl', hpassed⟩, hactions⟩ :=
      hg.passed_releaseSlots (hg.sheltered hok) fun slot hslot => hslot
    have hstep : l.step (.releaseService port) = l' := by
      dsimp only [Ledger.step, Ledger.releaseServiceMessages]
      rw [hl', Option.getD_some]
    rw [hstep]
    exact careful_of_accesses haway hpassed.counts hactions

theorem Kept.trace_careful (h : l.Kept) (haway : l.state.Away away) {es : List Event}
    (hes : Machine.Along Ledger.step (fun l e => e.WellFormed ∧ l.keepsSlots e) l es) :
    Machine.Along Action.moves Action.owned away (l.trace es) := by
  induction es generalizing l away with
  | nil => trivial
  | cons e es ih =>
    obtain ⟨⟨hwell, hok⟩, hrest⟩ := hes
    have hcareful := h.careful_step haway hok
    exact Machine.along_append.2 ⟨hcareful.1, ih (h.step hwell) hcareful.2 hrest⟩

/-- A slot that has been handed back is left alone in every run in which messages are given
back once more only while their slot is in use, and a service is closed only while every slot
with a message of its is being read or has one of another service. -/
theorem leavesAlone (r : SlotRange) (slotData : Nat → Block) (es : List Event)
    (hes : Machine.Along Ledger.step (fun l e => e.WellFormed ∧ l.keepsSlots e)
      (Ledger.init r slotData) es) : (Ledger.init r slotData).LeavesAlone es :=
  (Kept.init r slotData).trace_careful (fun _ _ => rfl) hes

/-- A message that fills a slot. -/
def filling : Message where
  msgid := 0x05001002
  elements := [List.replicate 4088 0]
  fits := by
    rw [List.flatten_cons, List.flatten_nil, List.append_nil, List.length_replicate]
    decide
  single _ := Nat.le_refl _

/-- `release_service_messages` gives back the message and goes on to read its size. -/
theorem not_leavesAlone_filling :
    ¬(Ledger.init ⟨1, 2, by decide⟩ fun _ _ => 0).LeavesAlone
      [.transport (.send filling true), .transport .sender, .transport .sender,
        .transport (.handler .claim), .transport (.handler .claim), .transport (.handler .claim),
        .releaseService 2] := by
  unfold LeavesAlone
  decide +kernel

/-- A message is given back while its slot is being read, and its service is closed. -/
theorem leavesAlone_reading :
    let m : Message := ⟨0x05001002, [[1, 2, 3]], by decide, by decide⟩
    (Ledger.init ⟨1, 2, by decide⟩ fun _ _ => 0).LeavesAlone
      [.transport (.send m true), .transport .sender, .transport .sender,
        .transport (.handler .claim), .transport (.handler .claim), .transport (.handler .claim),
        .release 1 0 true, .releaseService 2] := by
  intro m
  apply leavesAlone
  have hclean : m.msgid &&& msgidClaimed = 0 := by decide
  refine ⟨⟨hclean, trivial⟩, ⟨trivial, trivial⟩, ⟨trivial, trivial⟩, ⟨trivial, trivial⟩,
    ⟨trivial, trivial⟩, ⟨trivial, trivial⟩, ⟨trivial, fun _ => ?_⟩, ⟨trivial, ?_⟩, trivial⟩
  · decide +kernel
  · intro slot hslot hopen
    have hmem (slots : List Nat) (h : slot ∈ slots) (heq : slots = [1, 2]) :
        slot = 1 ∨ slot = 2 := by simpa [heq] using h
    rcases hmem _ hslot (by decide +kernel) with rfl | rfl
    · exact .inl (by decide +kernel)
    · exact absurd (by decide +kernel) hopen

end Ledger

end Slots
