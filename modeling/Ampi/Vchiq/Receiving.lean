-- SUMMARY: Every step of parse_rx_slots keeps the state of the slot transport a representation of a stream.
import Ampi.Vchiq.Recycling

/-!
# Receiving

The slot handler enters a slot, reads one frame after the other and leaves the slot when
its position is a multiple of the slot size. What it reads at its position is the next
frame of the stream.
-/

namespace Slots

open Layout (placed)

theorem Reception.msgType_of_claim {r : Reception} {msgid : UInt32}
    (h : r.admitted msgid = .claim) : msgType msgid = msgData := by
  by_contra hctrl
  unfold admitted at h
  cases r with
  | accept => cases h
  | claim | retry =>
    dsimp only at h
    rw [if_neg hctrl] at h
    cases h

namespace Represents

variable {s : State} {g : Stream} {f : Frame} {x : Nat × Frame}

/-- Before it is entered, no service holds anything in a slot. -/
theorem heldIn_eq_zero (h : Represents s g) (hdata : s.rxData = none)
    (hlt : g.rx / 4096 < g.taken) : s.heldIn (g.slotOf (g.rx / 4096)) = 0 := by
  apply List.countP_eq_zero.2
  intro a ha
  obtain ⟨x, hx, hlive, rfl⟩ := h.held_at a ha
  have hfin : x.1 / 4096 < g.rx / 4096 := by
    rcases h.held_le hx with hfin | ⟨-, hsome⟩
    · exact hfin
    · rw [hdata] at hsome
      cases hsome
  simpa using h.slotOf_ne_current hlt hfin hlive

theorem enterSlot (h : Represents s g) (hlt : g.rx / 4096 < g.taken) :
    Represents s.enterSlot.1 g ∧ s.enterSlot.1.rxData = some (g.slotOf (g.rx / 4096)) ∧
      s.enterSlot.2 = g.slotOf (g.rx / 4096) := by
  have htaken := h.taken_le
  have hrec := h.available_le
  have hring := h.recycled_le_add
  unfold State.enterSlot
  match hdata : s.rxData with
  | some slot =>
    obtain ⟨rfl, -, -⟩ := h.entered slot hdata
    exact ⟨h, hdata, rfl⟩
  | none =>
    have hslot : s.slotQueue (slotQueueIndexFromPos s.rxPos &&& slotQueueMask) =
        g.slotOf (g.rx / 4096) := by
      rw [h.rxPos, slotQueueIndex]
      exact h.entry _ (by omega) (by omega)
    have hzero := h.heldIn_eq_zero hdata hlt
    have hother {k : Nat} := h.slotOf_ne_current (k := k) hlt
    dsimp only
    rw [hslot]
    refine ⟨{ h with
      finished := ?_, dropping := ?_, entered := ?_, not_entered := ?_, handler := ?_ }, rfl, rfl⟩
    · intro k hk hlive hdrop
      dsimp only
      rw [Function.update_of_ne (hother hk hlive), Function.update_of_ne (hother hk hlive)]
      exact h.finished k hk hlive hdrop
    · intro k hk
      obtain ⟨hfin, hlive, hcounts⟩ := h.dropping k hk
      dsimp only
      rw [Function.update_of_ne (hother hfin hlive), Function.update_of_ne (hother hfin hlive)]
      exact ⟨hfin, hlive, hcounts⟩
    · rintro _ ⟨⟩
      refine ⟨rfl, hlt, ?_⟩
      dsimp only
      rw [Function.update_self, Function.update_self]
      change 1 = 0 + s.heldIn _ + 1
      omega
    · rintro ⟨⟩
    · have hpc := h.handler
      unfold HandlerAt at hpc ⊢
      dsimp only
      match s.handler, hpc with
      | .idle, hrx => exact hrx
      | .parsing txPos, hrx => exact hrx
      | .skipping txPos size, ⟨hn, n, f, hparsed, hf, hrx, hsize, _⟩ =>
        exact ⟨hn, n, f, hparsed, hf, hrx, hsize, rfl⟩

/-- The next frame is handled. -/
theorem see (h : Represents s g) (hf : g.frames[g.parsed]? = some f)
    (hrx : g.rx = g.upTo g.parsed) (hdata : s.rxData.isSome) {txPos : UInt32} {n : Nat}
    (hlo : g.parsed < n) (hhi : n ≤ g.published) (htx : txPos = .ofNat (g.upTo n)) {p : Packet}
    (hp : f.ReadsAs p) :
    Represents { s with seen := s.seen ++ [p], handler := .skipping txPos p.size }
      { g with parsed := g.parsed + 1 } := by
  have htake : g.frames.take (g.parsed + 1) = g.frames.take g.parsed ++ [f] := by
    rw [List.take_add_one, hf]
    rfl
  refine { h with
    parsed_le := hlo.trans_le hhi, unread := ?_, held_at := ?_, handler := ?_, seen := ?_ }
  · intro x hx
    apply h.unread x
    have hdrop : g.frames.drop g.parsed = f :: g.frames.drop (g.parsed + 1) := by
      rw [List.drop_eq_getElem?_toList_append, hf]
      rfl
    rw [hdrop]
    change x ∈ placed Frame.stride (g.upTo (g.parsed + 1)) _ at hx
    rw [g.upTo_succ hf] at hx
    exact List.mem_cons_of_mem _ hx
  · intro a ha
    obtain ⟨x, hx, hxlive, hax⟩ := h.held_at a ha
    refine ⟨x, ?_, hxlive, hax⟩
    dsimp only
    rw [htake, Layout.placed_append]
    exact List.mem_append_left _ hx
  · exact ⟨⟨n, hlo, hhi, htx⟩, g.parsed, f, rfl, hf, hrx, hp.size_eq, hdata⟩
  · dsimp only
    rw [htake]
    exact List.rel_append h.seen (.cons hp .nil)

/-- The message at the receiver's position is handed to its service. -/
theorem claim (h : Represents s g) (hx : x ∈ placed Frame.stride 0 (g.frames.take g.parsed))
    (hslot : x.1 / 4096 = g.rx / 4096) (hdata : s.rxData = some (g.slotOf (g.rx / 4096))) :
    Represents
      { s with
        useCount := Function.update s.useCount (g.slotOf (g.rx / 4096))
          (s.useCount (g.slotOf (g.rx / 4096)) + 1)
        held := (g.slotOf (g.rx / 4096), x.1 % 4096) :: s.held }
      g := by
  obtain ⟨-, hlt, hcounts⟩ := h.entered _ hdata
  have hother {k : Nat} := h.slotOf_ne_current (k := k) hlt
  have hheld (slot : Nat) :
      ((g.slotOf (g.rx / 4096), x.1 % 4096) :: s.held).countP (·.1 = slot) =
        s.heldIn slot + if g.slotOf (g.rx / 4096) = slot then 1 else 0 := by
    simp [List.countP_cons, State.heldIn]
  have hsame {k : Nat} (hk : k < g.rx / 4096) (hlive : k ∉ g.released) :=
    (hheld (g.slotOf k)).trans (by rw [if_neg (hother hk hlive).symm, Nat.add_zero])
  refine { h with
    held_at := ?_, finished := ?_, dropping := ?_, entered := ?_, handler := h.handler }
  · intro a ha
    rcases List.mem_cons.1 ha with rfl | ha
    · refine ⟨x, hx, ?_, by rw [hslot]⟩
      rw [hslot]
      exact h.not_released le_rfl
    · exact h.held_at a ha
  · intro k hk hlive hdrop
    dsimp only [State.heldIn]
    rw [Function.update_of_ne (hother hk hlive), hsame hk hlive]
    exact h.finished k hk hlive hdrop
  · intro k hk
    obtain ⟨hfin, hlive, hcounts⟩ := h.dropping k hk
    dsimp only [State.heldIn]
    rw [Function.update_of_ne (hother hfin hlive), hsame hfin hlive]
    exact ⟨hfin, hlive, hcounts⟩
  · intro slot hslot
    obtain ⟨rfl, -, -⟩ := h.entered slot hslot
    refine ⟨rfl, hlt, ?_⟩
    dsimp only [State.heldIn]
    rw [Function.update_self, hheld, if_pos rfl]
    omega

end Represents

namespace State

variable {s : State} {g : Stream} {txPos size : UInt32}

theorem senderAt_enterSlot (hs : SenderAt s g) : SenderAt s.enterSlot.1 g := by
  unfold enterSlot
  split
  · exact hs
  · exact hs

theorem move_enterSlot (hr : Represents s g) (hlt : g.rx / 4096 < g.taken) :
    Move s g s.enterSlot.1 g := by
  unfold enterSlot
  split
  case h_1 => exact .stay rfl
  case h_2 hdata =>
    have hslot : s.slotQueue (slotQueueIndexFromPos s.rxPos &&& slotQueueMask) =
        g.slotOf (g.rx / 4096) := by
      have := hr.taken_le
      have := hr.available_le
      have := hr.recycled_le_add
      rw [hr.rxPos, slotQueueIndex]
      exact hr.entry _ (by omega) (by omega)
    dsimp only
    rw [hslot]
    exact .enter hdata hlt rfl

/-- Where the handler is when it has not reached `tx_pos`. -/
theorem next_frame (hr : Represents s g) (hpc : s.handler = .parsing txPos)
    (hne : s.rxPos ≠ txPos) :
    g.rx = g.upTo g.parsed ∧ g.rx / 4096 < g.taken ∧ (∃ f, g.frames[g.parsed]? = some f) ∧
      ∃ n, g.parsed < n ∧ n ≤ g.published ∧ txPos = .ofNat (g.upTo n) := by
  have hparsing := hr.handler
  simp only [HandlerAt, hpc] at hparsing
  obtain ⟨hrx, n, hlo, hhi, htx⟩ := hparsing
  have hlt : g.parsed < n := by
    apply Nat.lt_of_le_of_ne hlo
    rintro rfl
    exact hne (by rw [hr.rxPos, hrx, htx])
  obtain ⟨f, hf⟩ : ∃ f, g.frames[g.parsed]? = some f := by
    have := hr.published_le
    exact ⟨g.frames[g.parsed], List.getElem?_eq_getElem (by omega)⟩
  have hslot := hr.slot_lt_taken (g.placed_upTo hf)
  exact ⟨hrx, hrx ▸ hslot, ⟨f, hf⟩, n, hlt, hhi, htx⟩

theorem follows_parseMessage (hnone : g.dropping = none) (hr : Represents s g)
    (hs : SenderAt s g) (hpc : s.handler = .parsing txPos) (hne : s.rxPos ≠ txPos)
    (r : Reception) : Follows s g (s.parseMessage txPos r) := by
  obtain ⟨hrx, hslot, ⟨f, hf⟩, n, hlt, hhi, htx⟩ := next_frame hr hpc hne
  obtain ⟨hr1, hdata, hentered⟩ := hr.enterSlot hslot
  have hs1 := senderAt_enterSlot hs
  have hmove := move_enterSlot hr hslot
  have hreads : f.ReadsAs
      (loadPacket (s.enterSlot.1.slotData (g.slotOf (g.rx / 4096))) (g.rx % 4096)) := by
    rw [hrx]
    apply hr1.unread (g.upTo g.parsed, f)
    rw [List.drop_eq_getElem?_toList_append, hf]
    exact List.mem_cons_self
  unfold State.parseMessage
  generalize s.enterSlot = entered at hr1 hdata hentered hs1 hreads hmove
  obtain ⟨s1, slot⟩ := entered
  dsimp only at hr1 hdata hentered hs1 hreads hmove ⊢
  have hoff : (s1.rxPos &&& slotMask).toNat = g.rx % 4096 := by rw [hr1.rxPos, and_slotMask]
  rw [hentered, hoff]
  have hsee := hr1.see hf hrx (hdata ▸ rfl) hlt hhi htx hreads
  apply Follows.head ⟨hr, hr1, hmove⟩ rfl rfl rfl
  split
  · exact .of_move hr1 (.see hf hrx rfl) hnone hsee hs1
  · next hclaim =>
    have hx : (g.rx, f) ∈ placed Frame.stride 0 (g.frames.take (g.parsed + 1)) := by
      rw [List.take_add_one, hf, Layout.placed_append, Nat.zero_add]
      apply List.mem_append_right
      rw [hrx]
      exact List.mem_cons_self
    have hlive := hr1.not_released (le_refl (g.rx / 4096))
    have htype := Reception.msgType_of_claim hclaim
    rw [hreads.msgid_eq] at htype
    have hdeliver := (hsee.writeMsgid
      ((loadPacket (s1.slotData (g.slotOf (g.rx / 4096))) (g.rx % 4096)).msgid ||| msgidClaimed)
      hx hlive).claim hx rfl hdata
    refine .of_move hr1 (.deliver hf hrx hdata htype ?_) hnone hdeliver hs1
    rw [← hreads.msgid_eq]
    rfl
  · exact .of_move hr1 (.stay rfl) hnone { hr1 with handler := hrx } hs1

theorem dropReference_comm (s : State) (slot : Nat) (rxData : Option Nat) :
    { s.dropReference slot with rxData } = ({ s with rxData }).dropReference slot := by
  unfold dropReference
  dsimp only
  split
  · rfl
  · rfl

theorem follows_skipMessage (hnone : g.dropping = none) (hr : Represents s g)
    (hs : SenderAt s g) (hpc : s.handler = .skipping txPos size) :
    Follows s g (s.skipMessage txPos size) := by
  have hskipping := hr.handler
  simp only [HandlerAt, hpc] at hskipping
  obtain ⟨hn, i, f, hparsed, hf, hrx, rfl, hsome⟩ := hskipping
  obtain ⟨slot, hdata⟩ := Option.isSome_iff_exists.1 hsome
  obtain ⟨rfl, hlt, hcounts⟩ := hr.entered slot hdata
  have hnext : g.upTo g.parsed = g.rx + f.stride := by rw [hparsed, g.upTo_succ hf, hrx]
  have hblock : g.rx % 4096 + f.stride ≤ 4096 := by
    rw [hrx]
    exact hr.inBlocks _ (g.placed_upTo hf)
  have hstride := f.size_add_le_stride
  have hpos : s.rxPos + calcStride f.size = .ofNat (g.upTo g.parsed) := by
    rw [hnext, UInt32.ofNat_add, hr.rxPos, Frame.ofNat_stride]
  unfold State.skipMessage
  dsimp only
  rw [hpos]
  split
  · -- the end of the slot
    next hmask =>
    have hend := and_slotMask_eq_zero.1 hmask
    have hdiv : g.upTo g.parsed / 4096 = g.rx / 4096 + 1 := by omega
    rw [hdata]
    dsimp only
    rw [dropReference_comm]
    have hopened : Represents
        { s with rxPos := .ofNat (g.upTo g.parsed), handler := .parsing txPos, rxData := none }
        { g with rx := g.upTo g.parsed, dropping := some (g.rx / 4096) } := by
      refine { hr with
        rxPos := rfl, released_lt := ?_, finished := ?_, dropping := ?_, entered := ?_,
        not_entered := fun _ => hend, handler := ⟨rfl, hn⟩ }
      · intro k hk
        have := hr.released_lt k hk
        dsimp only
        omega
      · intro k hk hlive hdrop
        have hne : k ≠ g.rx / 4096 := fun heq => hdrop (congrArg some heq.symm)
        dsimp only at hk
        exact hr.counts_of_finished hnone (by omega) hlive
      · rintro _ ⟨⟩
        refine ⟨?_, hr.not_released le_rfl, hcounts⟩
        dsimp only
        omega
      · rintro _ ⟨⟩
    have hmove := Move.leave hdata (by omega) (core_dropReference
      { s with rxPos := .ofNat (g.upTo g.parsed), handler := .parsing txPos, rxData := none }
      (g.slotOf (g.rx / 4096)))
    have hback : ({ g with rx := g.upTo g.parsed, dropping := none } : Stream) =
        { g with rx := g.upTo g.parsed } := by rw [← hnone]
    obtain ⟨hnone', hr', hs'⟩ := hopened.dropReference hs rfl
    rw [hback] at hnone' hr' hs'
    exact .of_move hr hmove hnone' hr' hs'
  · next hmask =>
    have hend := and_slotMask_eq_zero.not.1 hmask
    have hdiv : g.upTo g.parsed / 4096 = g.rx / 4096 := by omega
    refine .of_move hr (.advance hdiv rfl) hnone { hr with
      rxPos := rfl, released_lt := ?_, finished := ?_, dropping := ?_, entered := ?_,
      not_entered := ?_, handler := ⟨rfl, hn⟩ } hs
    · dsimp only
      rw [hdiv]
      exact hr.released_lt
    · dsimp only
      rw [hdiv]
      exact hr.finished
    · dsimp only
      rw [hdiv]
      exact hr.dropping
    · dsimp only
      rw [hdiv]
      exact hr.entered
    · intro hdata'
      rw [show s.rxData = none from hdata'] at hdata
      cases hdata

theorem follows_handlerStep (hnone : g.dropping = none) (hr : Represents s g)
    (hs : SenderAt s g) (r : Reception) : Follows s g (s.handlerStep r) := by
  unfold State.handlerStep
  split
  · next hpc =>
    have hidle := hr.handler
    simp only [HandlerAt, hpc] at hidle
    exact .of_move hr (.stay rfl) hnone { hr with
      handler := ⟨hidle, g.published, hr.parsed_le, le_rfl, hr.txPos⟩ } hs
  · next hpc =>
    split
    · have hparsing := hr.handler
      simp only [HandlerAt, hpc] at hparsing
      exact .of_move hr (.stay rfl) hnone { hr with handler := hparsing.1 } hs
    · next hne => exact follows_parseMessage hnone hr hs hpc hne r
  · next hpc => exact follows_skipMessage hnone hr hs hpc

/-- Every step is a chain of moves. -/
theorem follows_step (hnone : g.dropping = none) (hr : Represents s g) (hs : SenderAt s g)
    (e : Event) : Follows s g (s.step e) := by
  have hstay : Follows s g s := .of_move hr (.stay rfl) hnone hr hs
  cases e with
  | send m isBlocking =>
    dsimp only [State.step]
    split
    · next hidle => exact follows_queueMessage hnone hr hs hidle m isBlocking
    · exact hstay
  | sender => exact follows_senderStep hnone hr hs
  | handler r => exact follows_handlerStep hnone hr hs r
  | release slot off closing =>
    dsimp only [State.step]
    split
    · next hheld => exact follows_releaseHeader hnone hr hs hheld closing
    · exact hstay
  | recycle => exact follows_processFreeQueue hnone hr hs

/-- Every step keeps the state a representation of a stream. -/
theorem Sound.step (h : s.Sound) (e : Event) : (s.step e).Sound := by
  obtain ⟨g, hnone, hr, hs⟩ := h
  exact (follows_step hnone hr hs e).sound

end State

end Slots
