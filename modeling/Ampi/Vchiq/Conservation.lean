-- SUMMARY: In every run each slot of both endpoints is in exactly one place between the two sides.
import Ampi.Vchiq.Framing

/-!
# Conservation

The ring `slot_queue` has more places than a side has slots, and the counters into it grow
for ever. What the ring and the receiver's counts say about the slots of the sender is a
partition of its range, and only the live uses of slots are in it.
-/

namespace Slots

/-- The slots from `slot_first` to `slot_last`. -/
def SlotRange.slots (r : SlotRange) : List Nat := List.range' r.slotFirst r.count

theorem SlotRange.nodup_slots (r : SlotRange) : r.slots.Nodup := List.nodup_range'

namespace State

/-- Where the slot of a position starts. -/
def slotStart (pos : UInt32) : UInt32 := pos - (pos &&& slotMask)

/-- The entries of the ring from the slot at `start` up to the one at `stop`. -/
def ring (s : State) (start stop : UInt32) : List Nat :=
  (List.range ((stop - start) / slotSize).toNat).map fun i =>
    s.slotQueue (slotQueueIndexFromPos (start + .ofNat i * slotSize) &&& slotQueueMask)

/-- Where the first slot starts that `reserve_space` has not taken. -/
def takenEnd (s : State) : UInt32 := slotStart (s.localTxPos + slotMask)

/-! ## The places of a slot -/

/-- Sent, and not read to the end. -/
def unread (s : State) : List Nat := s.ring (slotStart s.rxPos) (slotStart s.txPos)

/-- Sent and read to the end, and still referred to. -/
def heldBack (s : State) (r : SlotRange) : List Nat :=
  r.slots.filter fun slot => s.rxData ≠ some slot ∧ s.useCount slot ≠ s.releaseCount slot

/-- Taken by `reserve_space`, and not sent to the end. -/
def filling (s : State) : List Nat := s.ring (slotStart s.txPos) s.takenEnd

def available (s : State) : List Nat := s.ring s.takenEnd (s.slotQueueAvailable * slotSize)

/-- Handed back, and not seen by `process_free_queue` yet. -/
def recycled (s : State) : List Nat :=
  s.ring (s.slotQueueAvailable * slotSize) (s.slotQueueRecycle * slotSize)

end State

/-- What holds of the slots of a sender in every state that it reaches. -/
structure Conserved (r : SlotRange) (s : State) : Prop where
  /-- The entries from the slot of `tx_pos` up to `slot_queue_recycle`. -/
  distinct : ∀ pos ∈ [s.txPos, s.localTxPos],
    (s.ring (State.slotStart pos) (s.slotQueueRecycle * slotSize)).Nodup
  range : ∀ pos ∈ [s.txPos, s.localTxPos],
    ∀ slot ∈ s.ring (State.slotStart pos) (s.slotQueueRecycle * slotSize), slot ∈ r.slots
  /-- Every slot is in exactly one place. -/
  partition :
    (s.filling ++ (s.unread ++ s.heldBack r) ++ s.recycled ++ s.available).Perm r.slots
  permits : s.slotAvailable = s.available.length
  /-- The assertion of `reserve_space` holds. -/
  no_fault : s.sender ≠ .fault

/-- A step overwrites no entry of the ring from the slot that the receiver is at up to
`slot_queue_recycle`, except that the receiver may have left its slot. -/
def Preserves (s s' : State) : Prop :=
  (s.ring (State.slotStart s.rxPos) (s.slotQueueRecycle * slotSize)).drop
      ((State.slotStart s'.rxPos - State.slotStart s.rxPos) / slotSize).toNat <+:
    s'.ring (State.slotStart s'.rxPos) (s'.slotQueueRecycle * slotSize)

/-! ## Both directions -/

/-- The two endpoints, by whom they were given their slots. -/
inductive Side where
  | master | slave
  deriving DecidableEq, Repr

/-- The slots that each side sends in, which the other one reads. -/
abbrev Link := Side → State

namespace Link

def boot (r : Side → SlotRange) (slotData : Side → Nat → Block) : Link :=
  fun side => .init (r side) (slotData side)

/-- A step in the slots of one side. -/
def step (l : Link) (e : Side × Event) : Link := Function.update l e.1 ((l e.1).step e.2)

abbrev run : Link → List (Side × Event) → Link := Machine.run step

end Link

/-! ## Uses of slots -/

/-- There are as many live uses as slots, and a live use is the last one of its slot. -/
structure Stream.Conserved (r : SlotRange) (g : Stream) : Prop where
  count : g.recycled = g.released.card + r.count
  range : ∀ k < g.recycled, g.slotOf k ∈ r.slots
  latest : ∀ k < g.recycled, k ∉ g.released → ∀ j, k < j → j < g.recycled →
    g.slotOf j ≠ g.slotOf k

/-- The references to each slot: one for each header that a service holds, and one of the
slot handler for the slot that it reads. -/
def State.Counted (s : State) : Prop :=
  ∀ slot, s.useCount slot =
    s.releaseCount slot + s.heldIn slot + if s.rxData = some slot then 1 else 0

namespace Stream.Conserved

variable {r : SlotRange} {s s' : State} {g g' : Stream} {k : Nat}

theorem init (r : SlotRange) : (Stream.init r).Conserved r := by
  refine ⟨(Nat.zero_add _).symm, fun k hk => ?_, fun k _ _ j hkj _ heq => ?_⟩
  · exact List.mem_range'_1.2 ⟨Nat.le_add_right _ _, Nat.add_lt_add_left hk _⟩
  · exact hkj.ne' (Nat.add_left_cancel heq)

theorem giveBack (h : g.Conserved r) (hr : Represents s g) (hlt : k < g.recycled)
    (hlive : k ∉ g.released) : (g.giveBack k).Conserved r := by
  have hold {j : Nat} (hj : j < g.recycled) : (g.giveBack k).slotOf j = g.slotOf j :=
    Function.update_of_ne (by omega) ..
  have hnew : (g.giveBack k).slotOf g.recycled = g.slotOf k := Function.update_self ..
  refine ⟨?_, fun j hj => ?_, fun i hi hilive j hij hj => ?_⟩
  · have hcount := h.count
    have hcard : (insert k g.released).card = g.released.card + 1 :=
      Finset.card_insert_of_notMem hlive
    change g.recycled + 1 = (insert k g.released).card + r.count
    omega
  · rcases Nat.lt_succ_iff_lt_or_eq.1 hj with hj | rfl
    · rw [hold hj]
      exact h.range j hj
    · rw [hnew]
      exact h.range k hlt
  · have hiold : i ∉ g.released := fun hmem => hilive (Finset.mem_insert_of_mem hmem)
    have hik : i ≠ k := fun heq => hilive (heq ▸ Finset.mem_insert_self ..)
    have hi' : i < g.recycled := by
      have : j < g.recycled + 1 := hj
      omega
    rw [hold hi']
    rcases Nat.lt_succ_iff_lt_or_eq.1 hj with hj | rfl
    · rw [hold hj]
      exact h.latest i hi' hiold j hij hj
    · rw [hnew]
      exact hr.slotOf_ne hlt hi' hlive hiold hik.symm

theorem dropReference (h : g.Conserved r) (hr : Represents s g) (hlt : k < g.recycled)
    (hlive : k ∉ g.released) : (g.dropReference s' k).Conserved r := by
  unfold Stream.dropReference
  split
  · exact h.giveBack hr hlt hlive
  · exact h

theorem move (h : g.Conserved r) (hr : Represents s g) (hm : Move s g s' g') :
    g'.Conserved r := by
  have hfin := hr.finished_le
  have htaken := hr.taken_le
  have havail := hr.available_le
  cases hm with
  | leave hdata =>
    obtain ⟨-, hlt, -⟩ := hr.entered _ hdata
    have hdrop : (g.dropReference s (g.rx / 4096)).Conserved r :=
      h.dropReference hr (by omega) (hr.not_released le_rfl)
    unfold Stream.dropReference at hdrop ⊢
    split at hdrop
    · next hlast =>
      rw [if_pos hlast]
      exact ⟨hdrop.count, hdrop.range, hdrop.latest⟩
    · next hmore =>
      rw [if_neg hmore]
      exact ⟨h.count, h.range, h.latest⟩
  | @release x hx hlive =>
    have hxtaken := hr.slot_lt_taken (Represents.mem_of_read hx)
    exact h.dropReference hr (by omega) hlive
  | _ => exact ⟨h.count, h.range, h.latest⟩

end Stream.Conserved

/-- Before its slot is entered, and after it has been left, the handler has no reference. -/
theorem State.Counted.move {s s' : State} {g g' : Stream} (h : s.Counted)
    (hr : Represents s g) (hm : Move s g s' g') : s'.Counted := by
  intro slot
  have hslot := h slot
  unfold heldIn at hslot ⊢
  cases hm with
  | enter hdata hlt hcore =>
    obtain ⟨-, hdata', huse, hrelease, hheld⟩ := core_eq.1 hcore
    rw [hdata', huse, hrelease, hheld]
    by_cases hcur : slot = g.slotOf (g.rx / 4096)
    · subst hcur
      have hzero := hr.heldIn_eq_zero hdata hlt
      unfold heldIn at hzero
      rw [Function.update_self, Function.update_self, if_pos rfl, hzero]
    · rw [Function.update_of_ne hcur, Function.update_of_ne hcur,
        if_neg fun heq => hcur (Option.some.inj heq).symm]
      rw [hdata] at hslot
      simpa using hslot
  | deliver hf hrx hdata htype hcore =>
    obtain ⟨-, hdata', huse, hrelease, hheld⟩ := core_eq.1 hcore
    rw [hdata', huse, hrelease, hheld, List.countP_cons]
    by_cases hcur : slot = g.slotOf (g.rx / 4096)
    · subst hcur
      rw [Function.update_self, if_pos (decide_eq_true rfl)]
      omega
    · rw [Function.update_of_ne hcur, if_neg (by simpa using Ne.symm hcur)]
      exact hslot
  | leave hdata hend hcore =>
    obtain ⟨-, hdata', huse, hrelease, hheld⟩ := core_eq.1 hcore
    rw [hdata', huse, hrelease, hheld]
    rw [hdata] at hslot
    by_cases hcur : slot = g.slotOf (g.rx / 4096)
    · subst hcur
      rw [if_pos rfl] at hslot
      rw [Function.update_self, if_neg nofun]
      omega
    · rw [if_neg fun heq => hcur (Option.some.inj heq).symm] at hslot
      rw [Function.update_of_ne hcur, if_neg nofun]
      exact hslot
  | @release x hx hlive hmem hcore =>
    obtain ⟨-, hdata', huse, hrelease, hheld⟩ := core_eq.1 hcore
    rw [hdata', huse, hrelease, hheld]
    have hcount := heldIn_erase hmem slot
    unfold heldIn at hcount
    by_cases hcur : slot = g.slotOf (x.1 / 4096)
    · subst hcur
      rw [if_pos rfl] at hcount
      rw [Function.update_self]
      omega
    · rw [if_neg (Ne.symm hcur)] at hcount
      rw [Function.update_of_ne hcur]
      omega
  | append _ _ hcore | stay hcore | publish hcore | take hcore | free hcore | see _ _ hcore
  | advance _ hcore =>
    obtain ⟨-, hdata', huse, hrelease, hheld⟩ := core_eq.1 hcore
    rw [hdata', huse, hrelease, hheld]
    exact hslot

/-- A stream goes on: uses keep their slots, and neither side goes back. -/
structure Stream.Extends (g g' : Stream) : Prop where
  recycled : g.recycled ≤ g'.recycled
  available : g.available ≤ g'.available
  slotOf : ∀ k < g.recycled, g'.slotOf k = g.slotOf k
  rx : g.rx ≤ g'.rx
  parsed : g.frames.take g.parsed <+: g'.frames.take g'.parsed

namespace Stream.Extends

variable {s s' : State} {g g' g₁ : Stream}

theorem refl (g : Stream) : g.Extends g :=
  ⟨le_rfl, le_rfl, fun _ _ => rfl, le_rfl, List.prefix_refl _⟩

theorem trans (h : g.Extends g₁) (h₁ : g₁.Extends g') : g.Extends g' :=
  ⟨h.recycled.trans h₁.recycled, h.available.trans h₁.available,
    fun k hk => (h₁.slotOf k (hk.trans_le h.recycled)).trans (h.slotOf k hk), h.rx.trans h₁.rx,
    h.parsed.trans h₁.parsed⟩

theorem dropReference (g : Stream) (s : State) (k : Nat) : g.Extends (g.dropReference s k) := by
  unfold Stream.dropReference
  split
  · exact ⟨Nat.le_succ _, le_rfl, fun j hj => Function.update_of_ne hj.ne .., le_rfl,
      List.prefix_refl _⟩
  · exact refl g

theorem move (hr : Represents s g) (hm : Move s g s' g') : g.Extends g' := by
  have hadvance : g.Extends { g with rx := g.upTo g.parsed } :=
    ⟨le_rfl, le_rfl, fun _ _ => rfl, hr.rx_le, List.prefix_refl _⟩
  have hnext : g.frames.take g.parsed <+: g.frames.take (g.parsed + 1) :=
    List.take_prefix_take_left (Nat.le_succ _)
  cases hm with
  | append =>
    have hparsed := hr.parsed_le.trans hr.published_le
    exact ⟨le_rfl, le_rfl, fun _ _ => rfl, le_rfl, (g.take_push hparsed).symm ▸ List.prefix_refl _⟩
  | free => exact ⟨le_rfl, Nat.le_succ _, fun _ _ => rfl, le_rfl, List.prefix_refl _⟩
  | see | deliver => exact ⟨le_rfl, le_rfl, fun _ _ => rfl, le_rfl, hnext⟩
  | advance => exact hadvance
  | leave => exact hadvance.trans (dropReference ..)
  | release => exact dropReference ..
  | _ => exact ⟨le_rfl, le_rfl, fun _ _ => rfl, le_rfl, List.prefix_refl _⟩

end Stream.Extends

/-! ## The ring -/

theorem slotStart_ofNat (P : Nat) : State.slotStart (.ofNat P) = .ofNat (P / 4096 * 4096) := by
  have hmask : UInt32.ofNat P &&& slotMask = .ofNat (P % 4096) := by
    rw [← and_slotMask, UInt32.ofNat_toNat]
  have hle : P % 4096 ≤ P := Nat.mod_le ..
  rw [State.slotStart, hmask, ← UInt32.ofNat_sub hle]
  congr 1
  omega

theorem ofNat_mul_slotSize (k : Nat) : UInt32.ofNat k * slotSize = .ofNat (k * 4096) := by
  rw [UInt32.ofNat_mul]
  rfl

/-- How many slots lie between two positions. -/
theorem slots_between {a b : Nat} (hab : a ≤ b) (hb : b < a + 2 ^ 20) :
    ((UInt32.ofNat (b * 4096) - .ofNat (a * 4096)) / slotSize).toNat = b - a := by
  have hsub := toNat_ofNat_sub (Nat.mul_le_mul_right 4096 hab) (by omega)
  have hsize : slotSize.toNat = 4096 := rfl
  rw [UInt32.toNat_div, hsub, hsize]
  omega

/-- The slots of the uses from `a` up to `b`. -/
def Stream.uses (g : Stream) (a b : Nat) : List Nat := (List.range' a (b - a)).map g.slotOf

theorem Stream.uses_append {g : Stream} {a b c : Nat} (hab : a ≤ b) (hbc : b ≤ c) :
    g.uses a b ++ g.uses b c = g.uses a c := by
  have hb : b = a + (b - a) := by omega
  have hc : c - a = (b - a) + (c - b) := by omega
  rw [uses, uses, uses, ← List.map_append, hc, ← List.range'_append_1, ← hb]

namespace Represents

variable {r : SlotRange} {s s' : State} {g g' : Stream}

/-- The ring between two uses of slots that are in it. -/
theorem ring_eq (h : Represents s g) {a b : Nat} (hab : a ≤ b) (hb : b ≤ g.recycled)
    (ha : g.recycled ≤ a + 64) :
    s.ring (.ofNat (a * 4096)) (.ofNat (b * 4096)) = g.uses a b := by
  rw [Stream.uses, State.ring, slots_between hab (by omega), List.range'_eq_map_range, List.map_map]
  apply List.map_congr_left
  intro i hi
  have hi : i < b - a := List.mem_range.1 hi
  have hpos : a * 4096 + i * 4096 = (a + i) * 4096 := (Nat.add_mul ..).symm
  rw [ofNat_mul_slotSize, ← UInt32.ofNat_add, hpos, slotQueueIndex,
    Nat.mul_div_cancel _ (by omega)]
  exact h.entry (a + i) (by omega) (by omega)

/-- Where the sender stands, with what it is about to write. -/
theorem exists_localTx (h : Represents s g) (hs : SenderAt s g) :
    ∃ L, s.localTxPos = .ofNat L ∧ g.tx ≤ L ∧ L ≤ g.taken * 4096 ∧ g.taken * 4096 < L + 4096 := by
  have htx := h.tx_le
  obtain ⟨-, hpc⟩ := hs
  match hsender : s.sender with
  | .idle | .publishing _ =>
    simp only [hsender] at hpc
    exact ⟨g.tx, hpc.2.1, le_rfl, htx, hpc.2.2⟩
  | .waiting _ =>
    simp only [hsender] at hpc
    exact ⟨g.tx, hpc.2.1, le_rfl, htx, by omega⟩
  | .filling m slot off =>
    simp only [hsender] at hpc
    obtain ⟨-, htaken, -, hoff, hfit, hlocal⟩ := hpc
    have hsize := (Frame.message m).size_add_le_stride
    refine ⟨g.tx + (Frame.message m).stride, ?_, Nat.le_add_right _ _, by omega, by omega⟩
    rw [hlocal, UInt32.ofNat_add, Frame.ofNat_stride]
    rfl
  | .fault => simp only [hsender] at hpc

theorem takenEnd_eq (h : Represents s g) (hs : SenderAt s g) :
    s.takenEnd = .ofNat (g.taken * 4096) := by
  obtain ⟨L, hlocal, -, hle, hlt⟩ := h.exists_localTx hs
  have hmask : slotMask = .ofNat 4095 := rfl
  have hend : (L + 4095) / 4096 = g.taken := by omega
  rw [State.takenEnd, hlocal, hmask, ← UInt32.ofNat_add, slotStart_ofNat, hend]

theorem published_le_taken (h : Represents s g) : g.upTo g.published / 4096 ≤ g.taken := by
  have := g.upTo_le_tx g.published
  have := h.tx_le
  omega

theorem rx_le_published' (h : Represents s g) : g.rx / 4096 ≤ g.upTo g.published / 4096 :=
  Nat.div_le_div_right h.rx_le_published

/-- The slots of the ring that are still to be used, by either side. -/
theorem ring_places (h : Represents s g) (hs : SenderAt s g) :
    s.unread ++ s.filling ++ s.available ++ s.recycled =
      g.uses (g.rx / 4096) g.recycled := by
  have hrx := h.rx_le_published'
  have hpub := h.published_le_taken
  have htaken := h.taken_le
  have havail := h.available_le
  have hring := h.recycled_le_add
  have hunread : s.unread = g.uses (g.rx / 4096) (g.upTo g.published / 4096) := by
    rw [State.unread, h.rxPos, h.txPos, slotStart_ofNat, slotStart_ofNat,
      h.ring_eq hrx (by omega) hring]
  have hfilling : s.filling = g.uses (g.upTo g.published / 4096) g.taken := by
    rw [State.filling, h.txPos, slotStart_ofNat, h.takenEnd_eq hs,
      h.ring_eq hpub (by omega) (by omega)]
  have havailable : s.available = g.uses g.taken g.available := by
    rw [State.available, h.takenEnd_eq hs, h.slotQueueAvailable, ofNat_mul_slotSize,
      h.ring_eq htaken (by omega) (by omega)]
  have hrecycled : s.recycled = g.uses g.available g.recycled := by
    rw [State.recycled, h.slotQueueAvailable, h.slotQueueRecycle, ofNat_mul_slotSize,
      ofNat_mul_slotSize, h.ring_eq havail le_rfl (by omega)]
  rw [hunread, hfilling, havailable, hrecycled, Stream.uses_append hrx hpub,
    Stream.uses_append (hrx.trans hpub) htaken, Stream.uses_append (by omega) havail]

/-! ## The places -/

theorem mem_uses {a b slot : Nat} (hab : a ≤ b) :
    slot ∈ g.uses a b ↔ ∃ k, a ≤ k ∧ k < b ∧ g.slotOf k = slot := by
  rw [Stream.uses, List.mem_map]
  apply exists_congr
  intro k
  rw [List.mem_range'_1]
  constructor
  · rintro ⟨⟨hlo, hhi⟩, heq⟩
    exact ⟨hlo, by omega, heq⟩
  · rintro ⟨hlo, hhi, heq⟩
    exact ⟨⟨hlo, by omega⟩, heq⟩

/-- Uses that the receiver has not left have different slots. -/
theorem nodup_uses (h : Represents s g) {a : Nat} (ha : g.rx / 4096 ≤ a) :
    (g.uses a g.recycled).Nodup := by
  apply List.Nodup.map_on _ List.nodup_range'
  intro i hi j hj heq
  rw [List.mem_range'_1] at hi hj
  exact h.distinct i (by omega) j (by omega) (h.not_released (ha.trans hi.1))
    (h.not_released (ha.trans hj.1)) heq

/-- There is a live use for every slot, as there are as many of them. -/
theorem exists_live (h : Represents s g) (hg : g.Conserved r) {slot : Nat}
    (hslot : slot ∈ r.slots) : ∃ k < g.recycled, k ∉ g.released ∧ g.slotOf k = slot := by
  have hsub : g.released ⊆ Finset.range g.recycled := by
    intro k hk
    have := h.released_lt k hk
    have := h.finished_le
    have := h.taken_le
    have := h.available_le
    exact Finset.mem_range.2 (by omega)
  have himage : (Finset.range g.recycled \ g.released).image g.slotOf = r.slots.toFinset := by
    apply Finset.eq_of_subset_of_card_le
    · intro slot hmem
      obtain ⟨k, hk, rfl⟩ := Finset.mem_image.1 hmem
      rw [Finset.mem_sdiff, Finset.mem_range] at hk
      exact List.mem_toFinset.2 (hg.range k hk.1)
    · rw [Finset.card_image_of_injOn, Finset.card_sdiff_of_subset hsub, Finset.card_range,
        hg.count, List.toFinset_card_of_nodup r.nodup_slots, SlotRange.slots, List.length_range']
      · omega
      · intro i hi j hj heq
        simp only [Finset.coe_sdiff, Set.mem_sdiff, Finset.mem_coe, Finset.mem_range] at hi hj
        exact h.distinct i hi.1 j hj.1 hi.2 hj.2 heq
  rw [← List.mem_toFinset, ← himage, Finset.mem_image] at hslot
  obtain ⟨k, hk, heq⟩ := hslot
  rw [Finset.mem_sdiff, Finset.mem_range] at hk
  exact ⟨k, hk.1, hk.2, heq⟩

/-- The slots held back are those of the finished uses. -/
theorem mem_heldBack (h : Represents s g) (hnone : g.dropping = none) (hg : g.Conserved r)
    (hs : s.Counted) {slot : Nat} :
    slot ∈ s.heldBack r ↔ ∃ k < g.rx / 4096, k ∉ g.released ∧ g.slotOf k = slot := by
  have hfin := h.finished_le
  have htaken := h.taken_le
  have havail := h.available_le
  rw [State.heldBack, List.mem_filter, decide_eq_true_eq]
  constructor
  · rintro ⟨-, hdata, huse⟩
    have hcount := hs slot
    rw [if_neg hdata] at hcount
    have hheld : 0 < s.heldIn slot := by omega
    obtain ⟨a, ha, hslot⟩ := List.countP_pos_iff.1 hheld
    obtain ⟨x, hx, hlive, rfl⟩ := h.held_at a ha
    have hslot : g.slotOf (x.1 / 4096) = slot := by simpa using hslot
    rcases h.held_le hx with hlt | ⟨hcur, hdata'⟩
    · exact ⟨x.1 / 4096, hlt, hlive, hslot⟩
    · rw [hdata', ← hcur, hslot] at hdata
      exact absurd rfl hdata
  · rintro ⟨k, hk, hlive, rfl⟩
    obtain ⟨huse, hheld⟩ := h.counts_of_finished hnone hk hlive
    refine ⟨hg.range k (by omega), fun hdata => ?_, by omega⟩
    obtain ⟨heq, hlt, -⟩ := h.entered _ hdata
    exact h.slotOf_ne_current hlt hk hlive heq

theorem partition (h : Represents s g) (hnone : g.dropping = none) (hs : SenderAt s g)
    (hg : g.Conserved r) (hcounted : s.Counted) :
    (s.filling ++ (s.unread ++ s.heldBack r) ++ s.recycled ++ s.available).Perm r.slots := by
  have hfin := h.finished_le
  have htaken := h.taken_le
  have havail := h.available_le
  have hplaces := h.ring_places hs
  have hmem {slot : Nat} :
      slot ∈ s.heldBack r ↔ ∃ k < g.rx / 4096, k ∉ g.released ∧ g.slotOf k = slot :=
    h.mem_heldBack hnone hg hcounted
  have hrec : g.rx / 4096 ≤ g.recycled := by omega
  have hswap : (s.filling ++ (s.unread ++ s.heldBack r) ++ s.recycled ++ s.available).Perm
      (g.uses (g.rx / 4096) g.recycled ++ s.heldBack r) := by
    rw [← hplaces, List.perm_iff_count]
    intro slot
    simp only [List.count_append]
    omega
  apply hswap.trans
  have hnodup : (g.uses (g.rx / 4096) g.recycled ++ s.heldBack r).Nodup := by
    refine List.nodup_append'.2 ⟨h.nodup_uses le_rfl, r.nodup_slots.filter _, ?_⟩
    intro slot hring hback
    obtain ⟨j, hlo, hhi, rfl⟩ := (mem_uses hrec).1 hring
    obtain ⟨k, hk, hlive, heq⟩ := hmem.1 hback
    have hkj := h.distinct k (by omega) j hhi hlive (h.not_released hlo) heq
    omega
  refine (List.perm_ext_iff_of_nodup hnodup r.nodup_slots).2 fun slot => ?_
  rw [List.mem_append, mem_uses hrec]
  constructor
  · rintro (⟨k, -, hk, rfl⟩ | hback)
    · exact hg.range k hk
    · exact List.mem_of_mem_filter hback
  · intro hslot
    obtain ⟨k, hk, hlive, rfl⟩ := h.exists_live hg hslot
    by_cases hkr : k < g.rx / 4096
    · exact .inr (hmem.2 ⟨k, hkr, hlive, rfl⟩)
    · exact .inl ⟨k, by omega, hk, rfl⟩

/-- The ring from the slot of a position that is not behind the receiver. -/
theorem ring_from (h : Represents s g) {P : Nat} (hlo : g.rx ≤ P) (hhi : P ≤ g.taken * 4096) :
    s.ring (State.slotStart (.ofNat P)) (s.slotQueueRecycle * slotSize) =
      g.uses (P / 4096) g.recycled := by
  have := h.taken_le
  have := h.available_le
  have := h.recycled_le_add
  rw [slotStart_ofNat, h.slotQueueRecycle, ofNat_mul_slotSize]
  exact h.ring_eq (by omega) le_rfl (by omega)

theorem conserved (h : Represents s g) (hnone : g.dropping = none) (hs : SenderAt s g)
    (hg : g.Conserved r) (hcounted : s.Counted) : Conserved r s := by
  have htaken := h.taken_le
  have havail := h.available_le
  have hpos {pos : UInt32} (hpos : pos ∈ [s.txPos, s.localTxPos]) :
      ∃ P, g.rx ≤ P ∧ P ≤ g.taken * 4096 ∧ pos = .ofNat P := by
    obtain ⟨L, hlocal, hlo, hhi, -⟩ := h.exists_localTx hs
    have hpub := g.upTo_le_tx g.published
    rcases List.mem_cons.1 hpos with rfl | hpos
    · exact ⟨_, h.rx_le_published, hpub.trans h.tx_le, h.txPos⟩
    · obtain rfl := List.mem_singleton.1 hpos
      exact ⟨L, h.rx_le_tx.trans hlo, hhi, hlocal⟩
  refine ⟨fun pos hmem => ?_, fun pos hmem slot hslot => ?_, h.partition hnone hs hg hcounted,
    ?_, ?_⟩
  · obtain ⟨P, hlo, hhi, rfl⟩ := hpos hmem
    rw [h.ring_from hlo hhi]
    exact h.nodup_uses (Nat.div_le_div_right hlo)
  · obtain ⟨P, hlo, hhi, rfl⟩ := hpos hmem
    rw [h.ring_from hlo hhi, mem_uses (by omega)] at hslot
    obtain ⟨k, -, hk, rfl⟩ := hslot
    exact hg.range k hk
  · have hfin := h.finished_le
    have hring := h.recycled_le_add
    have hpermits := h.slotAvailable
    rw [State.available, h.takenEnd_eq hs, h.slotQueueAvailable, ofNat_mul_slotSize,
      h.ring_eq htaken (by omega) (by omega), Stream.uses, List.length_map, List.length_range']
    omega
  · intro hfault
    have hpc := hs.2
    simp only [hfault] at hpc

theorem preserves (h : Represents s g) (h' : Represents s' g') (hext : g.Extends g')
    (hnear : g.Near g') : Preserves s s' := by
  have hle := h.finished_le
  have htaken := h.taken_le
  have havail := h.available_le
  have hrx := h.rx_le_tx.trans h.tx_le
  have hrx' := h'.rx_le_tx.trans h'.tx_le
  have hforward := hext.rx
  have hstep := hnear.rx
  have hmono := hext.recycled
  have hfin' := h'.finished_le
  have htaken' := h'.taken_le
  have havail' := h'.available_le
  have hle' : g.rx / 4096 ≤ g'.rx / 4096 := Nat.div_le_div_right hforward
  have hdrop : (g.uses (g.rx / 4096) g.recycled).drop (g'.rx / 4096 - g.rx / 4096) =
      g.uses (g'.rx / 4096) g.recycled := by
    have hstart : g.rx / 4096 + (g'.rx / 4096 - g.rx / 4096) * 1 = g'.rx / 4096 := by omega
    have hcount : g.recycled - g.rx / 4096 - (g'.rx / 4096 - g.rx / 4096) =
        g.recycled - g'.rx / 4096 := by omega
    rw [Stream.uses, ← List.map_drop, List.drop_range', hstart, hcount, Stream.uses]
  have hsame : g.uses (g'.rx / 4096) g.recycled = g'.uses (g'.rx / 4096) g.recycled := by
    apply List.map_congr_left
    intro k hk
    rw [List.mem_range'_1] at hk
    exact (hext.slotOf k (by omega)).symm
  unfold Preserves
  rw [h.rxPos, h'.rxPos, h.ring_from le_rfl hrx, h'.ring_from le_rfl hrx', slotStart_ofNat,
    slotStart_ofNat, slots_between hle' (by omega), hdrop, hsame]
  by_cases hleft : g'.rx / 4096 ≤ g.recycled
  · rw [← Stream.uses_append hleft hmono]
    exact List.prefix_append ..
  · rw [Stream.uses, Nat.sub_eq_zero_of_le (Nat.le_of_not_le hleft)]
    exact List.nil_prefix

end Represents

/-! ## Runs -/

/-- A state that stands for a stream with as many live uses as slots. -/
def State.Keeps (r : SlotRange) (s : State) : Prop :=
  ∃ g, g.dropping = none ∧ Represents s g ∧ SenderAt s g ∧ g.Conserved r ∧ s.Counted

namespace State.Keeps

variable {r : SlotRange} {s : State}

theorem conserved (h : s.Keeps r) : Conserved r s := by
  obtain ⟨g, hnone, hr, hs, hg, hcounted⟩ := h
  exact hr.conserved hnone hs hg hcounted

theorem step (h : s.Keeps r) (e : Event) : Preserves s (s.step e) ∧ (s.step e).Keeps r := by
  obtain ⟨g, hnone, hr, hs, hg, hcounted⟩ := h
  obtain ⟨g', hnone', hr', hs', hnear, hmoves⟩ := follows_step hnone hr hs e
  obtain ⟨hg', hcounted', hext⟩ := Moves.keep
    (I := fun s' g' => g'.Conserved r ∧ s'.Counted ∧ g.Extends g')
    (fun hr _ hm h => ⟨h.1.move hr hm, h.2.1.move hr hm, h.2.2.trans (.move hr hm)⟩)
    hmoves ⟨hg, hcounted, .refl g⟩
  exact ⟨hr.preserves hr' hext hnear, g', hnone', hr', hs', hg', hcounted'⟩

theorem init (r : SlotRange) (slotData : Nat → Block) : (State.init r slotData).Keeps r :=
  ⟨.init r, rfl, represents_init r slotData, senderAt_init r slotData, .init r, fun _ => rfl⟩

end State.Keeps

namespace Link

theorem keeps_step {r : Side → SlotRange} {l : Link} (h : ∀ side, (l side).Keeps (r side))
    (e : Side × Event) :
    (∀ side, Preserves (l side) (step l e side)) ∧ ∀ side, (step l e side).Keeps (r side) := by
  rw [← forall_and]
  intro side
  by_cases hside : side = e.1
  · have hstep := (h side).step e.2
    rw [hside] at hstep ⊢
    have hself : step l e e.1 = (l e.1).step e.2 := Function.update_self ..
    rwa [hself]
  · have hother : step l e side = l side := Function.update_of_ne hside ..
    rw [hother]
    refine ⟨?_, h side⟩
    rw [Preserves, UInt32.sub_self]
    exact List.prefix_refl _

/-- For every run of both endpoints, from slots with any contents. -/
theorem slots_conserved (r : Side → SlotRange) (slotData : Side → Nat → Block)
    (es : List (Side × Event)) :
    (∀ side, Conserved (r side) (run (boot r slotData) es side)) ∧
      Machine.Along step (fun l e => ∀ side, Preserves (l side) (step l e side))
        (boot r slotData) es := by
  have hinit : ∀ side, (boot r slotData side).Keeps (r side) := fun side => .init ..
  have hany : Machine.Along step (fun _ _ => True) (boot r slotData) es :=
    Machine.along_of_forall_mem step fun _ _ => trivial
  refine ⟨fun side => ?_, ?_⟩
  · have hrun := Machine.run_invariant (I := fun l : Link => ∀ side, (l side).Keeps (r side))
      (fun l e h => (keeps_step h e).2) es hinit
    exact (hrun side).conserved
  · exact hany.strengthen (I := fun l : Link => ∀ side, (l side).Keeps (r side))
      (fun l e h _ => keeps_step h e) hinit

end Link

end Slots
