-- SUMMARY: The header walks over slots with any contents: when they advance, end and stay in a slot.
import Ampi.Loop
import Ampi.Vchiq.Claiming

/-!
# Walks

The peer writes the headers that `parse_rx_slots` and `release_service_messages` walk over,
and may write into those of `process_free_queue`. The checks against headers that do not fit
their slot only warn, so the walks go on with whatever stride `calc_stride` makes of the size.
-/

namespace Slots

theorem calcStride_dvd (size : UInt32) : 8 ∣ (calcStride size).toNat := by
  rw [calcStride_toNat]
  omega

/-! ## Walks over one slot -/

/-- A turn of the inner loop of `process_free_queue`. -/
def freeQueueTurn (b : Block) (pos : UInt32) : Option UInt32 :=
  if pos < slotSize then some (pos + calcStride (b.loadWord (pos.toNat + 4))) else none

theorem walk_eq_run (b : Block) (fuel : Nat) (pos : UInt32) :
    walk b fuel pos = Loop.run (freeQueueTurn b) fuel pos := by
  induction fuel generalizing pos with
  | zero => rfl
  | succ fuel ih =>
    rw [walk, Loop.run, freeQueueTurn]
    by_cases h : pos < slotSize
    · simp only [if_pos h, ih]
    · simp only [if_neg h]

namespace Ledger

/-- A turn of the loop of `release_service_messages` over the headers of a slot. -/
def releaseTurn (slot : Nat) (port stop : UInt32) (p : Ledger × UInt32) :
    Option (Ledger × UInt32) :=
  if p.2 < stop then
    let l := p.1.visitHeader slot p.2.toNat port
    some (l, p.2 + calcStride ((l.state.slotData slot).loadWord (p.2.toNat + 4)))
  else none

theorem releaseSlotMessages_eq_run (l : Ledger) (slot : Nat) (port stop : UInt32) (fuel : Nat)
    (pos : UInt32) : l.releaseSlotMessages slot port stop fuel pos =
      (Loop.run (releaseTurn slot port stop) fuel (l, pos)).map (·.1) := by
  induction fuel generalizing l pos with
  | zero => rfl
  | succ fuel ih =>
    rw [releaseSlotMessages, Loop.run, releaseTurn]
    by_cases h : pos < stop
    · simp only [if_pos h, ih]
    · simp only [if_neg h, Option.map_some]

/-- Where `release_service_messages` stops in a slot. -/
def releaseEnd (l : Ledger) (slot : Nat) : UInt32 :=
  if l.state.rxData = some slot then l.state.rxPos &&& slotMask else slotSize

theorem releaseSlot_eq (l : Ledger) (port : UInt32) (slot : Nat) :
    l.releaseSlot port slot =
      if l.state.releaseCount slot ≠ l.state.useCount slot then
        (Loop.run (releaseTurn slot port (l.releaseEnd slot)) walkFuel (l, 0)).map (·.1)
      else some l := by
  rw [← releaseSlotMessages_eq_run]
  rfl

theorem releaseEnd_le (l : Ledger) (slot : Nat) : (l.releaseEnd slot).toNat ≤ 4096 := by
  unfold releaseEnd
  split
  · have h := toNat_and_mask l.state.rxPos 12 (by omega)
    have hmask : slotMask = .ofNat (2 ^ 12 - 1) := rfl
    rw [hmask, h]
    omega
  · rfl

end Ledger

/-- A walk over the headers of one slot, at the offset `off`: it goes on by a header at
least, stays in the slot and ends. -/
structure Robust {σ : Type} (turn : σ → Option σ) (off : σ → Nat) (s : σ) : Prop where
  advances : ∀ t u, Loop.Reaches turn s t → turn t = some u → off t + 8 ≤ off u
  within : ∀ t, Loop.Reaches turn s t → (turn t).isSome → off t < 4096
  ends : Loop.Ends turn s

/-- From `pos` on, no header before `stop` has a stride of zero or one that takes the
position round. -/
inductive Spaced (size : Nat → UInt32) (stop : Nat) : Nat → Prop where
  | done {pos : Nat} (h : stop ≤ pos) : Spaced size stop pos
  | next {pos : Nat} (hlt : pos < stop) (hpos : 0 < (calcStride (size pos)).toNat)
      (hend : pos + (calcStride (size pos)).toNat < 2 ^ 32)
      (h : Spaced size stop (pos + (calcStride (size pos)).toNat)) : Spaced size stop pos

section Slot

variable {σ : Type} {turn : σ → Option σ} {off : σ → Nat} {size : Nat → UInt32} {stop : Nat}
  {I : σ → Prop} {s : σ}

theorem robust_iff_orderly :
    Robust turn off s ↔
      Loop.Orderly turn (fun t => (∀ u, turn t = some u → off t + 8 ≤ off u) ∧ off t < 4096) s := by
  rw [Loop.orderly_iff]
  constructor
  · intro h
    exact ⟨fun t ht hsome => ⟨fun u hu => h.advances t u ht hu, h.within t ht hsome⟩, h.ends⟩
  · rintro ⟨hok, hends⟩
    refine ⟨fun t u ht hu => ?_, fun t ht hsome => (hok t ht hsome).2, hends⟩
    exact (hok t ht (by simp [hu])).1 u hu

/-- A loop that does nothing but add strides is robust where the headers are spaced. -/
theorem robust_iff_spaced (hstop : stop ≤ 4096)
    (hdone : ∀ t, I t → stop ≤ off t → turn t = none)
    (hturn : ∀ t, I t → off t < stop → ∃ u, turn t = some u ∧ I u ∧
      off u = (off t + (calcStride (size (off t))).toNat) % 2 ^ 32)
    (h : I s) : Robust turn off s ↔ Spaced size stop (off s) := by
  have hstride (t : σ) := (calcStride (size (off t))).toNat_lt
  rw [robust_iff_orderly]
  constructor
  · intro hs
    induction hs with
    | @done t hnone =>
      refine .done (Nat.le_of_not_lt fun hlt => ?_)
      obtain ⟨u, hu, -⟩ := hturn t h hlt
      cases hnone.symm.trans hu
    | @next t u hsome hok _ ih =>
      by_cases hlt : off t < stop
      · obtain ⟨v, hv, hI, hoff⟩ := hturn t h hlt
        obtain rfl : u = v := Option.some.inj (hsome.symm.trans hv)
        have hadv := hok.1 u hsome
        have hwrap := hstride t
        rw [hoff] at hadv
        -- a sum that wraps comes out below the position
        have hend : off t + (calcStride (size (off t))).toNat < 2 ^ 32 := by omega
        rw [Nat.mod_eq_of_lt hend] at hadv hoff
        exact .next hlt (by omega) hend (hoff ▸ ih hI)
      · exact .done (Nat.le_of_not_lt hlt)
  · intro hs
    generalize hpos : off s = pos at hs
    induction hs generalizing s with
    | done hle => exact .done (hdone s h (hpos ▸ hle))
    | @next pos hlt hpos0 hend _ ih =>
      subst hpos
      obtain ⟨u, hu, hI, hoff⟩ := hturn s h hlt
      rw [Nat.mod_eq_of_lt hend] at hoff
      refine .next hu ⟨fun v hv => ?_, by omega⟩ (ih hI hoff)
      obtain rfl : u = v := Option.some.inj (hu.symm.trans hv)
      have hdvd := calcStride_dvd (size (off s))
      omega

end Slot

theorem freeQueue_robust_iff (b : Block) :
    Robust (freeQueueTurn b) UInt32.toNat 0 ↔ Spaced (fun pos => b.loadWord (pos + 4)) 4096 0 := by
  have hsize : slotSize.toNat = 4096 := rfl
  apply robust_iff_spaced (I := fun _ => True) (Nat.le_refl _) (h := trivial)
  · intro pos _ hle
    exact if_neg (by rw [UInt32.lt_iff_toNat_lt]; omega)
  · intro pos _ hlt
    refine ⟨_, if_pos (UInt32.lt_iff_toNat_lt.2 (by omega)), trivial, ?_⟩
    rw [UInt32.toNat_add]

namespace Ledger

/-- A visit leaves the sizes as they are. -/
theorem loadWord_visitHeader (l : Ledger) {slot off off' : Nat} (port : UInt32) (hoff : 8 ∣ off)
    (hoff' : 8 ∣ off') :
    ((l.visitHeader slot off port).state.slotData slot).loadWord (off' + 4) =
      (l.state.slotData slot).loadWord (off' + 4) := by
  unfold visitHeader
  dsimp only
  split
  · change ((l.state.releaseHeader slot off false).slotData slot).loadWord _ = _
    unfold State.releaseHeader
    dsimp only
    split
    · rfl
    · have hdrop (s : State) : (s.dropReference slot).slotData = s.slotData := by
        unfold State.dropReference
        dsimp only
        split <;> rfl
      rw [hdrop]
      dsimp only
      rw [Function.update_self]
      apply Block.loadWord_congr
      intro i hlo hhi
      exact Block.storeWord_of_disjoint (by omega)
  · rfl

theorem releaseMessages_robust_iff (l : Ledger) (slot : Nat) (port : UInt32) :
    Robust (releaseTurn slot port (l.releaseEnd slot)) (fun p => p.2.toNat) (l, 0) ↔
      Spaced (fun pos => (l.state.slotData slot).loadWord (pos + 4))
        (l.releaseEnd slot).toNat 0 := by
  apply robust_iff_spaced (l.releaseEnd_le slot)
    (I := fun p => 8 ∣ p.2.toNat ∧ ∀ pos, 8 ∣ pos →
      (p.1.state.slotData slot).loadWord (pos + 4) = (l.state.slotData slot).loadWord (pos + 4))
  · intro p _ hle
    exact if_neg (by rw [UInt32.lt_iff_toNat_lt]; omega)
  · rintro p ⟨hdvd, hsizes⟩ hlt
    have hsame {pos : Nat} (hpos : 8 ∣ pos) :
        ((p.1.visitHeader slot p.2.toNat port).state.slotData slot).loadWord (pos + 4) =
          (p.1.state.slotData slot).loadWord (pos + 4) := p.1.loadWord_visitHeader port hdvd hpos
    refine ⟨_, if_pos (UInt32.lt_iff_toNat_lt.2 hlt), ⟨?_, fun pos hpos => ?_⟩, ?_⟩
    · have := calcStride_dvd
        (((p.1.visitHeader slot p.2.toNat port).state.slotData slot).loadWord (p.2.toNat + 4))
      rw [UInt32.toNat_add]
      omega
    · exact (hsame hpos).trans (hsizes pos hpos)
    · rw [UInt32.toNat_add, hsame hdvd, hsizes _ hdvd]
  · exact ⟨⟨0, rfl⟩, fun _ _ => rfl⟩

end Ledger

/-! ## The walk of parse_rx_slots -/

/-- What `parse_rx_slots` finds: the size in each header that it reads, whether that message
is put off, and `tx_pos`. -/
structure Incoming where
  size : Nat → UInt32
  retry : Nat → Bool
  txPos : UInt32

/-- Where `parse_rx_slots` stands. -/
structure Cursor where
  rxPos : UInt32
  /-- Whether `rx_data` is set. -/
  entered : Bool
  /-- How far it has come in the slot that it started in. -/
  off : Nat
  /-- How many messages it has handled. -/
  count : Nat
  deriving DecidableEq, Repr

namespace Cursor

def start (rxPos : UInt32) (entered : Bool) : Cursor :=
  ⟨rxPos, entered, (rxPos &&& slotMask).toNat, 0⟩

/-- The slot that the next header is in, entered if need be. -/
def enter (c : Cursor) : Cursor :=
  if c.entered then c else { c with entered := true, off := (c.rxPos &&& slotMask).toNat }

/-- `skip_message`. -/
def skip (c : Cursor) (size : UInt32) : Cursor :=
  let rxPos := c.rxPos + calcStride size
  { rxPos
    entered := c.entered && rxPos &&& slotMask != 0
    off := c.off + (calcStride size).toNat
    count := c.count + 1 }

/-- A turn of the loop in `parse_rx_slots`. -/
def turn (i : Incoming) (c : Cursor) : Option Cursor :=
  if c.rxPos = i.txPos then none
  else if i.retry c.count then none
  else some (c.enter.skip (i.size c.count))

/-- Where the handler of `s` stands when it has handled `count` messages. -/
def of (s : State) (off count : Nat) : Cursor := ⟨s.rxPos, s.rxData.isSome, off, count⟩

theorem enter_of (s : State) (off count : Nat) :
    (of s off count).enter = of s.enterSlot.1 (of s off count).enter.off count := by
  unfold enter of State.enterSlot
  cases hs : s.rxData <;> simp [hs]

theorem skip_of {s : State} (hs : s.rxData.isSome) (txPos size : UInt32) (off count : Nat) :
    (of s off count).skip size =
      of (s.skipMessage txPos size) (off + (calcStride size).toNat) (count + 1) := by
  obtain ⟨slot, hsome⟩ := Option.isSome_iff_exists.1 hs
  have hdrop (s : State) : (s.dropReference slot).rxPos = s.rxPos := by
    unfold State.dropReference
    dsimp only
    split <;> rfl
  unfold skip of State.skipMessage
  by_cases hend : s.rxPos + calcStride size &&& slotMask = 0
  · simp [hend, hsome, hdrop]
  · simp [hend, hsome]

/-- The header that the handler of `s` is about to read. -/
def header (s : State) : Packet :=
  loadPacket (s.enterSlot.1.slotData s.enterSlot.2) (s.rxPos &&& slotMask).toNat

/-- A turn is what `handlerStep` does from one header to the next. -/
theorem turn_handlerStep {s : State} {i : Incoming} {r r' : Reception} {off count : Nat}
    (hs : s.handler = .parsing i.txPos) (hne : s.rxPos ≠ i.txPos)
    (hsize : i.size count = (header s).size)
    (hretry : i.retry count = false) (hr : r.admitted (header s).msgid ≠ .retry) :
    ∃ off', turn i (of s off count) =
      some (of ((s.handlerStep r).handlerStep r') off' (count + 1)) := by
  have hpos : s.enterSlot.1.rxPos = s.rxPos := by
    unfold State.enterSlot
    split <;> rfl
  have hslot : s.enterSlot.1.rxData.isSome := by
    unfold State.enterSlot
    split <;> simp [*]
  have hstep : s.handlerStep r = s.parseMessage i.txPos r := by
    simp only [State.handlerStep, hs, if_neg hne]
  -- handling a message leaves the position where it is
  obtain ⟨hhandler, hrx, hdata⟩ : (s.parseMessage i.txPos r).handler =
        .skipping i.txPos (header s).size ∧
      (s.parseMessage i.txPos r).rxPos = s.enterSlot.1.rxPos ∧
      (s.parseMessage i.txPos r).rxData = s.enterSlot.1.rxData := by
    unfold header at hr ⊢
    unfold State.parseMessage
    dsimp only
    rw [hpos]
    split
    · exact ⟨rfl, rfl, rfl⟩
    · exact ⟨rfl, rfl, rfl⟩
    · next h => exact absurd h hr
  have hof (off : Nat) : of s.enterSlot.1 off count = of (s.parseMessage i.txPos r) off count := by
    rw [of, of, hrx, hdata]
  have hskip : (s.handlerStep r).handlerStep r' =
      (s.parseMessage i.txPos r).skipMessage i.txPos (header s).size := by
    rw [hstep, State.handlerStep, hhandler]
  have hturn : turn i (of s off count) = some ((of s off count).enter.skip (header s).size) := by
    rw [← hsize, turn, if_neg (show (of s off count).rxPos ≠ i.txPos from hne)]
    exact if_neg (by simp [of, hretry])
  rw [hturn, enter_of, hof, skip_of (hdata ▸ hslot) i.txPos, ← hskip]
  exact ⟨_, rfl⟩

/-- The walk of `parse_rx_slots` goes on by a header at least, ends, and leaves a slot where
the slot ends: it neither stands behind the slot with `rx_data` set nor goes past its end. -/
structure Robust (i : Incoming) (c : Cursor) : Prop where
  advances : ∀ t u, Loop.Reaches (turn i) c t → turn i t = some u → t.enter.off + 8 ≤ u.off
  within : ∀ t, Loop.Reaches (turn i) c t → t.off ≤ 4096 ∧ (t.entered → t.off < 4096)
  ends : Loop.Ends (turn i) c

end Cursor

namespace Incoming

/-- The unbounded position of a header. -/
def place (i : Incoming) (rxPos : UInt32) : Nat → Nat
  | 0 => rxPos.toNat
  | n + 1 => i.place rxPos n + (calcStride (i.size n)).toNat

/-- The headers from `rxPos` on, each within its slot, meet `tx_pos` or come to a message
that is put off. -/
def Fitting (i : Incoming) (rxPos : UInt32) : Prop :=
  ∃ n, (UInt32.ofNat (i.place rxPos n) = i.txPos ∨ i.retry n) ∧
    ∀ k < n, 0 < (calcStride (i.size k)).toNat ∧
      i.place rxPos k % 4096 + (calcStride (i.size k)).toNat ≤ 4096

end Incoming

namespace Cursor

variable {i : Incoming} {c u : Cursor}

theorem turn_eq_some (h : turn i c = some u) :
    c.rxPos ≠ i.txPos ∧ i.retry c.count = false ∧ u = c.enter.skip (i.size c.count) := by
  unfold turn at h
  split at h
  · cases h
  · next hne =>
    split at h
    · cases h
    · next hretry => exact ⟨hne, by simpa using hretry, (Option.some.inj h).symm⟩

theorem turn_eq_none : turn i c = none ↔ c.rxPos = i.txPos ∨ i.retry c.count := by
  unfold turn
  split
  · simp [*]
  · split <;> simp [*]

/-- The cursor is at a header in its slot. -/
structure At (i : Incoming) (rxPos : UInt32) (c : Cursor) : Prop where
  pos : c.rxPos = .ofNat (i.place rxPos c.count)
  off : c.enter.off = i.place rxPos c.count % 4096

theorem enter_fields (c : Cursor) :
    c.enter.rxPos = c.rxPos ∧ c.enter.entered = true ∧ c.enter.count = c.count := by
  unfold enter
  split
  · simp [*]
  · simp

theorem enter_off (c : Cursor) :
    c.enter.off = if c.entered then c.off else (c.rxPos &&& slotMask).toNat := by
  unfold enter
  split <;> rfl

theorem At.start (i : Incoming) (rxPos : UInt32) (entered : Bool) :
    At i rxPos (start rxPos entered) := by
  have hmask := and_slotMask rxPos.toNat
  rw [UInt32.ofNat_toNat] at hmask
  refine ⟨UInt32.ofNat_toNat.symm, ?_⟩
  change (enter _).off = rxPos.toNat % 4096
  unfold enter Cursor.start
  split <;> exact hmask

variable {rxPos : UInt32}

theorem skip_entered (h : At i rxPos c) :
    (c.enter.skip (i.size c.count)).entered = true ↔ i.place rxPos (c.count + 1) % 4096 ≠ 0 := by
  obtain ⟨hpos, hentered, -⟩ := c.enter_fields
  simp only [skip, hentered, Bool.true_and, bne_iff_ne]
  have hmask := and_slotMask_eq_zero
    (P := i.place rxPos c.count + (calcStride (i.size c.count)).toNat)
  rw [UInt32.ofNat_add, UInt32.ofNat_toNat] at hmask
  rw [hpos, h.pos, Incoming.place]
  exact not_congr hmask

/-- A header that fits its slot leads to a header in its slot. -/
theorem At.skip (h : At i rxPos c)
    (hfits : i.place rxPos c.count % 4096 + (calcStride (i.size c.count)).toNat ≤ 4096) :
    At i rxPos (c.enter.skip (i.size c.count)) := by
  obtain ⟨hpos, hentered, hcount⟩ := c.enter_fields
  have hnext : i.place rxPos (c.count + 1) =
      i.place rxPos c.count + (calcStride (i.size c.count)).toNat := rfl
  have hcount' : (c.enter.skip (i.size c.count)).count = c.count + 1 := by rw [Cursor.skip, hcount]
  have hrx : (c.enter.skip (i.size c.count)).rxPos = .ofNat (i.place rxPos (c.count + 1)) := by
    rw [Cursor.skip, hpos, h.pos, hnext, UInt32.ofNat_add, UInt32.ofNat_toNat]
  refine ⟨hcount' ▸ hrx, ?_⟩
  rw [hcount', enter_off]
  split
  · next hin =>
    have hne := (skip_entered h).1 hin
    change c.enter.off + (calcStride (i.size c.count)).toNat = _
    rw [h.off]
    omega
  · rw [hrx, and_slotMask]

/-- What a turn must keep to. -/
def Ok (i : Incoming) (t : Cursor) : Prop :=
  ∀ u, turn i t = some u →
    t.enter.off + 8 ≤ u.off ∧ u.off ≤ 4096 ∧ (u.entered → u.off < 4096)

theorem robust_iff_orderly (entered : Bool) :
    Robust i (start rxPos entered) ↔ Loop.Orderly (turn i) (Ok i) (start rxPos entered) := by
  rw [Loop.orderly_iff]
  constructor
  · intro h
    refine ⟨fun t ht _ u hu => ⟨h.advances t u ht hu, ?_⟩, h.ends⟩
    exact h.within u (ht.tail hu)
  · rintro ⟨hok, hends⟩
    refine ⟨fun t u ht hu => (hok t ht (by simp [hu]) u hu).1, fun t ht => ?_, hends⟩
    rcases Relation.ReflTransGen.cases_tail ht with rfl | ⟨s, hs, hst⟩
    · have hlt : (rxPos &&& slotMask).toNat < 4096 := by
        have hmask := and_slotMask rxPos.toNat
        rw [UInt32.ofNat_toNat] at hmask
        omega
      exact ⟨hlt.le, fun _ => hlt⟩
    · exact (hok s hs (by simp [hst]) t hst).2

theorem fitting_of_orderly (h : At i rxPos c) (hc : Loop.Orderly (turn i) (Ok i) c) :
    ∃ n, c.count ≤ n ∧ (UInt32.ofNat (i.place rxPos n) = i.txPos ∨ i.retry n) ∧
      ∀ k, c.count ≤ k → k < n → 0 < (calcStride (i.size k)).toNat ∧
        i.place rxPos k % 4096 + (calcStride (i.size k)).toNat ≤ 4096 := by
  induction hc with
  | @done c hnone =>
    exact ⟨c.count, le_rfl, h.pos ▸ turn_eq_none.1 hnone, fun k hk hlt => by omega⟩
  | @next c u hu hok _ ih =>
    obtain ⟨hadv, hle, -⟩ := hok u hu
    obtain ⟨-, -, rfl⟩ := turn_eq_some hu
    have hoff : (c.enter.skip (i.size c.count)).off =
        i.place rxPos c.count % 4096 + (calcStride (i.size c.count)).toNat := by
      rw [← h.off]
      rfl
    rw [h.off, hoff] at hadv
    rw [hoff] at hle
    have hcount : (c.enter.skip (i.size c.count)).count = c.count + 1 := by
      rw [Cursor.skip, c.enter_fields.2.2]
    obtain ⟨n, hn, hstop, hfits⟩ := ih (h.skip hle)
    rw [hcount] at hn hfits
    refine ⟨n, by omega, hstop, fun k hk hlt => ?_⟩
    rcases Nat.eq_or_lt_of_le hk with rfl | hk
    · exact ⟨by omega, hle⟩
    · exact hfits k hk hlt

theorem orderly_of_fitting {d : Nat} (h : At i rxPos c)
    (hstop : UInt32.ofNat (i.place rxPos (c.count + d)) = i.txPos ∨ i.retry (c.count + d))
    (hfits : ∀ k, c.count ≤ k → k < c.count + d → 0 < (calcStride (i.size k)).toNat ∧
      i.place rxPos k % 4096 + (calcStride (i.size k)).toNat ≤ 4096) :
    Loop.Orderly (turn i) (Ok i) c := by
  induction d generalizing c with
  | zero => exact .done (turn_eq_none.2 (h.pos ▸ hstop))
  | succ d ih =>
    cases hu : turn i c with
    | none => exact .done hu
    | some u =>
      obtain ⟨-, -, rfl⟩ := turn_eq_some hu
      obtain ⟨hpos, hle⟩ := hfits c.count le_rfl (by omega)
      have hcount : (c.enter.skip (i.size c.count)).count = c.count + 1 := by
        rw [Cursor.skip, c.enter_fields.2.2]
      refine .next hu ?_ (ih (h.skip hle) ?_ ?_)
      · intro v hv
        obtain rfl := Option.some.inj (hu.symm.trans hv)
        have hoff : (c.enter.skip (i.size c.count)).off =
            i.place rxPos c.count % 4096 + (calcStride (i.size c.count)).toNat := by
          rw [← h.off]
          rfl
        have hdvd := calcStride_dvd (i.size c.count)
        rw [h.off, hoff]
        refine ⟨by omega, hle, fun hin => ?_⟩
        have hne := (skip_entered h).1 hin
        rw [Incoming.place] at hne
        omega
      · have hsum : c.count + 1 + d = c.count + (d + 1) := by omega
        rwa [hcount, hsum]
      · rw [hcount]
        intro k hk hlt
        exact hfits k (by omega) (by omega)

theorem parseRx_robust_iff (i : Incoming) (rxPos : UInt32) (entered : Bool) :
    Robust i (start rxPos entered) ↔ i.Fitting rxPos := by
  have hat := At.start i rxPos entered
  rw [robust_iff_orderly]
  constructor
  · intro h
    obtain ⟨n, -, hstop, hfits⟩ := fitting_of_orderly hat h
    exact ⟨n, hstop, fun k hk => hfits k (Nat.zero_le _) hk⟩
  · rintro ⟨n, hstop, hfits⟩
    have hzero : (start rxPos entered).count + n = n := Nat.zero_add n
    exact orderly_of_fitting (d := n) hat (by rwa [hzero]) fun k _ hk => hfits k (by omega)

end Cursor

/-! ## All three walks -/

/-- Each walk is robust exactly over headers whose strides keep it in order. The first two
are the loops of `process_free_queue` and of `release_service_messages`. -/
theorem walks_robust_iff (b : Block) (l : Ledger) (slot : Nat) (port : UInt32) (i : Incoming)
    (rxPos : UInt32) (entered : Bool) :
    (walk b walkFuel 0 = Loop.run (freeQueueTurn b) walkFuel 0 ∧
      (Robust (freeQueueTurn b) UInt32.toNat 0 ↔
        Spaced (fun pos => b.loadWord (pos + 4)) 4096 0)) ∧
    (l.releaseSlot port slot =
        (if l.state.releaseCount slot ≠ l.state.useCount slot then
          (Loop.run (Ledger.releaseTurn slot port (l.releaseEnd slot)) walkFuel (l, 0)).map (·.1)
        else some l) ∧
      (Robust (Ledger.releaseTurn slot port (l.releaseEnd slot)) (fun p => p.2.toNat) (l, 0) ↔
        Spaced (fun pos => (l.state.slotData slot).loadWord (pos + 4))
          (l.releaseEnd slot).toNat 0)) ∧
    (Cursor.Robust i (.start rxPos entered) ↔ i.Fitting rxPos) :=
  ⟨⟨walk_eq_run b walkFuel 0, freeQueue_robust_iff b⟩,
    ⟨l.releaseSlot_eq port slot, Ledger.releaseMessages_robust_iff l slot port⟩,
    Cursor.parseRx_robust_iff i rxPos entered⟩

/-- The size `0xfffffff1` in every header. -/
def endless : Block := fun i => if i % 8 = 4 then 0xf1 else 0xff

/-- A header without a stride keeps `process_free_queue` where it is, and a message of the
maximal size behind another header takes `parse_rx_slots` out of the slot. -/
theorem walks_not_robust :
    ¬Robust (freeQueueTurn endless) UInt32.toNat 0 ∧
    ¬Robust (Ledger.releaseTurn 0 0 slotSize) (fun p => p.2.toNat)
      (.init ⟨0, 0, by decide⟩ fun _ => endless, 0) ∧
    ¬Cursor.Robust ⟨fun _ => maxMsgSize, fun _ => false, 0⟩ (.start 8 true) := by
  have hsize : endless.loadWord (0 + 4) = 0xfffffff1 := by decide
  have hnot : ¬Spaced (fun pos => endless.loadWord (pos + 4)) 4096 0 := by
    rintro (h | ⟨-, hpos, -, -⟩)
    · omega
    · rw [hsize] at hpos
      exact absurd hpos (by decide)
  refine ⟨fun h => hnot ((freeQueue_robust_iff _).1 h), fun h => ?_, fun h => ?_⟩
  · exact hnot ((Ledger.releaseMessages_robust_iff
      (.init ⟨0, 0, by decide⟩ fun _ => endless) 0 0).1 h)
  · have hturn : Cursor.turn ⟨fun _ => maxMsgSize, fun _ => false, 0⟩ (.start 8 true) =
        some ⟨4104, true, 4104, 1⟩ := by decide
    have hend := (h.within _ (.head hturn (.refl _))).1
    exact absurd hend (by decide)

end Slots
