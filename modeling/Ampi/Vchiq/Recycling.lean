-- SUMMARY: Giving slots back: release_slot and process_free_queue keep the state a representation of a stream.
import Ampi.Vchiq.Sending

/-!
# Recycling

A use of a slot is given back when its last reference goes: the one of the slot handler
at the end of the slot, or the one of the last message that a service holds. The uses
are given back in any order; each goes to the end of the ring, and the sender walks over
it once more before it takes it again.
-/

namespace Slots

open Layout (placed Tiles)

/-- `process_free_queue` ends its walk where the frames of the slot end. -/
theorem walk_of_tiles {b : Block} {pos fuel : Nat}
    (h : Tiles (fun off => (calcStride (b.loadWord (off + 4))).toNat) slotSize.toNat pos)
    (hfuel : 4096 - pos < fuel * 8) : walk b fuel (.ofNat pos) = some slotSize := by
  have hsize : slotSize.toNat = 4096 := rfl
  induction h generalizing fuel with
  | done =>
    obtain ⟨fuel, rfl⟩ : ∃ n, fuel = n + 1 := ⟨fuel - 1, by omega⟩
    simp [walk, UInt32.ofNat_toNat]
  | @next pos hlt hpos htiles ih =>
    obtain ⟨fuel, rfl⟩ : ∃ n, fuel = n + 1 := ⟨fuel - 1, by omega⟩
    have hle := htiles.le
    have hnat : (UInt32.ofNat pos).toNat = pos := by
      rw [UInt32.toNat_ofNat']
      omega
    have hcond : UInt32.ofNat pos < slotSize := by
      rw [UInt32.lt_iff_toNat_lt, hnat]
      exact hlt
    have hnext : UInt32.ofNat pos + calcStride (b.loadWord (pos + 4)) =
        .ofNat (pos + (calcStride (b.loadWord (pos + 4))).toNat) := by
      rw [UInt32.ofNat_add, UInt32.ofNat_toNat]
    rw [walk, if_pos hcond, hnat, hnext]
    apply ih
    -- a stride that is not zero is at least a header
    rw [calcStride_toNat] at hpos hle ⊢
    omega

/-- The sender stands where it stood, as long as nothing of its own has changed. -/
theorem SenderAt.congr {s s' : State} {g g' : Stream} (h : SenderAt s g)
    (hsender : s'.sender = s.sender) (hdata : s'.txData = s.txData)
    (hlocal : s'.localTxPos = s.localTxPos) (hframes : g'.frames = g.frames)
    (hpub : g'.published = g.published) (htaken : g'.taken = g.taken)
    (hslot : ∀ k < g.taken, g'.slotOf k = g.slotOf k) :
    SenderAt s' g' := by
  have hend : g'.tx = g.tx := by rw [Stream.tx, hframes, Stream.tx]
  obtain ⟨htxData, hpc⟩ := h
  refine ⟨?_, ?_⟩
  · intro k hk
    rw [hdata, hslot k (by omega)]
    exact htxData k (htaken ▸ hk)
  · rw [hsender, hlocal, hframes, hpub, htaken, hend]
    cases hs : s.sender with
    | idle | waiting | publishing => simpa only [hs] using hpc
    | filling =>
      simp only [hs] at hpc ⊢
      rwa [hslot _ (by omega)]
    | fault => simp only [hs] at hpc

namespace Represents

variable {s : State} {g : Stream} {k : Nat}

/-- A finished slot is walked to its end. -/
theorem walk_finished (h : Represents s g) (hk : k < g.rx / 4096) (hlive : k ∉ g.released) :
    walk (s.slotData (g.slotOf k)) walkFuel 0 = some slotSize := by
  have htiles : Tiles (fun off => (calcStride ((s.slotData (g.slotOf k)).loadWord (off + 4))).toNat)
      4096 0 := by
    apply Layout.tiles_block (k := k) (fun f _ => ?_) h.inBlocks (Nat.zero_le _)
    · have := h.rx_le_tx
      change _ ≤ 0 + g.tx
      omega
    · intro x hx hslot
      have hsize := h.size_at x hx (hslot ▸ hlive)
      rw [hslot] at hsize
      rw [hsize]
      rfl
    · have := f.size_add_le_stride
      omega
  exact walk_of_tiles htiles (by decide)

/-- Uses that do not exist yet may have any slot. -/
theorem congr_slotOf (h : Represents s g) {slotOf : Nat → Nat}
    (heq : ∀ j < g.recycled, slotOf j = g.slotOf j) : Represents s { g with slotOf } := by
  have htaken := h.taken_le
  have havail := h.available_le
  have hfin := h.finished_le
  have hplaced {x : Nat × Frame} (hx : x ∈ placed Frame.stride 0 g.frames) :
      slotOf (x.1 / 4096) = g.slotOf (x.1 / 4096) := by
    have := h.slot_lt_taken hx
    exact heq _ (by omega)
  refine { h with
    entry := ?_, distinct := ?_, size_at := ?_, unread := ?_, freed := ?_, held_at := ?_,
    finished := ?_, dropping := ?_, entered := ?_, handler := h.handler }
  · intro j hj hring
    exact (h.entry j hj hring).trans (heq j hj).symm
  · intro i hi j hj hilive hjlive hij
    dsimp only at hij
    rw [heq i hi, heq j hj] at hij
    exact h.distinct i hi j hj hilive hjlive hij
  · intro x hx hxlive
    dsimp only
    rw [hplaced hx]
    exact h.size_at x hx hxlive
  · intro x hx
    dsimp only
    rw [hplaced (mem_of_unread hx)]
    exact h.unread x hx
  · intro j hj hjr
    dsimp only
    rw [heq j hjr]
    exact h.freed j hj hjr
  · intro a ha
    obtain ⟨x, hx, hxlive, rfl⟩ := h.held_at a ha
    refine ⟨x, hx, hxlive, ?_⟩
    dsimp only
    rw [hplaced (mem_of_read hx)]
  · intro j hj hjlive hne
    change j < g.rx / 4096 at hj
    dsimp only
    rw [heq j (by omega)]
    exact h.finished j hj hjlive hne
  · intro j hj
    have hdrop := h.dropping j hj
    dsimp only
    rw [heq j (by omega)]
    exact hdrop
  · intro slot hslot
    obtain ⟨hslot, hlt, hcounts⟩ := h.entered slot hslot
    exact ⟨hslot.trans (heq _ (by omega)).symm, hlt, hcounts⟩

/-- A finished use that nothing refers to any more goes back to the end of the ring. -/
theorem giveBack (h : Represents s g) (hk : g.dropping = some k)
    (hlast : s.heldIn (g.slotOf k) = 0) {releaseCount : Nat → Nat}
    (hcount : ∀ slot ≠ g.slotOf k, releaseCount slot = s.releaseCount slot) :
    Represents
      { s with
        releaseCount
        slotQueue := Function.update s.slotQueue (s.slotQueueRecycle &&& slotQueueMask) (g.slotOf k)
        slotQueueRecycle := s.slotQueueRecycle + 1 } (g.giveBack k) := by
  obtain ⟨hfin, hlive, -⟩ := h.dropping k hk
  have htaken := h.finished_le
  have havail := h.taken_le
  have hrec := h.available_le
  have hring := h.recycled_le_add
  have hkr : k < g.recycled := by omega
  -- the next use of the slot gets its name
  let slotOf := Function.update g.slotOf g.recycled (g.slotOf k)
  have hslotOf (j : Nat) (hj : j < g.recycled) : slotOf j = g.slotOf j :=
    Function.update_of_ne (by omega) ..
  have hnew : slotOf g.recycled = slotOf k := by
    rw [hslotOf k hkr]
    exact Function.update_self ..
  have h' := h.congr_slotOf hslotOf
  have hother {j : Nat} (hj : j < g.recycled) (hjlive : j ∉ insert k g.released) :
      slotOf j ≠ slotOf k := by
    intro heq
    have hjk := h'.distinct j hj k hkr (fun hmem => hjlive (Finset.mem_insert_of_mem hmem))
      hlive heq
    exact hjlive (hjk ▸ Finset.mem_insert_self ..)
  have hold {j : Nat} (hj : j ∉ insert k g.released) : j ∉ g.released :=
    fun hmem => hj (Finset.mem_insert_of_mem hmem)
  rw [← hslotOf k hkr] at hlast hcount ⊢
  change Represents _ { g with
    recycled := g.recycled + 1, released := insert k g.released, dropping := none, slotOf }
  refine { h' with
    available_le := ?_, slotQueueRecycle := ?_, released_lt := ?_, recycled_le := ?_, entry := ?_,
    distinct := ?_, size_at := ?_, freed := ?_, held_at := ?_, finished := ?_, dropping := ?_,
    entered := ?_, handler := h'.handler }
  · exact hrec.trans (Nat.le_succ _)
  · change s.slotQueueRecycle + 1 = _
    rw [h.slotQueueRecycle, UInt32.ofNat_add]
    rfl
  · intro j hj
    rcases Finset.mem_insert.1 hj with rfl | hj
    · exact hfin
    · exact h.released_lt j hj
  · have := h.recycled_le
    rw [Finset.card_insert_of_notMem hlive]
    change g.recycled + 1 ≤ _
    omega
  · intro j hj hlast64
    change j < g.recycled + 1 at hj
    change g.recycled + 1 ≤ j + 64 at hlast64
    dsimp only
    rw [h.slotQueueRecycle, and_slotQueueMask]
    rcases Nat.lt_succ_iff_lt_or_eq.1 hj with hj | rfl
    · have hne : UInt32.ofNat (j % 64) ≠ .ofNat (g.recycled % 64) := by
        rw [Ne, ← UInt32.toNat_inj, UInt32.toNat_ofNat', UInt32.toNat_ofNat']
        omega
      rw [Function.update_of_ne hne]
      exact h'.entry j hj (show g.recycled ≤ j + 64 by omega)
    · rw [Function.update_self]
      exact hnew.symm
  · intro i hi j hj hilive hjlive heq
    rcases Nat.lt_succ_iff_lt_or_eq.1 hi with hi | rfl
    · rcases Nat.lt_succ_iff_lt_or_eq.1 hj with hj | rfl
      · exact h'.distinct i hi j hj (hold hilive) (hold hjlive) heq
      · exact absurd (heq.trans hnew) (hother hi hilive)
    · rcases Nat.lt_succ_iff_lt_or_eq.1 hj with hj | rfl
      · exact absurd (heq.symm.trans hnew) (hother hj hjlive)
      · rfl
  · intro x hx hxlive
    exact h'.size_at x hx (hold hxlive)
  · intro j hj hjr
    rcases Nat.lt_succ_iff_lt_or_eq.1 hjr with hjr | rfl
    · exact h'.freed j hj hjr
    · dsimp only
      rw [hnew]
      exact h'.walk_finished hfin hlive
  · intro a ha
    obtain ⟨x, hx, hxlive, rfl⟩ := h'.held_at a ha
    refine ⟨x, hx, ?_, rfl⟩
    intro hmem
    rcases Finset.mem_insert.1 hmem with heq | hmem
    · have hzero := List.countP_eq_zero.1 hlast _ ha
      simp [heq] at hzero
    · exact hxlive hmem
  · intro j hj hjlive _
    change j < g.rx / 4096 at hj
    have hjk : g.dropping ≠ some j := by
      rw [hk]
      rintro ⟨⟩
      exact hjlive (Finset.mem_insert_self ..)
    dsimp only
    rw [hcount _ (hother (by omega) hjlive)]
    exact h'.finished j hj (hold hjlive) hjk
  · intro j hj
    cases hj
  · intro slot hslot
    obtain ⟨rfl, hlt, hcounts⟩ := h'.entered slot hslot
    have hnotk : g.rx / 4096 ∉ insert k g.released := by
      intro hmem
      rcases Finset.mem_insert.1 hmem with heq | hmem
      · omega
      · exact h.not_released le_rfl hmem
    change g.rx / 4096 < g.taken at hlt
    refine ⟨rfl, hlt, ?_⟩
    dsimp only
    rw [hcount _ (hother (j := g.rx / 4096) (by omega) hnotk)]
    exact hcounts

/-- The end of `release_slot`, for a finished use. -/
theorem dropReference (h : Represents s g) (hs : SenderAt s g) (hk : g.dropping = some k) :
    let g' := ({ g with dropping := none } : Stream).dropReference s k
    g'.dropping = none ∧ Represents (s.dropReference (g.slotOf k)) g' ∧
      SenderAt (s.dropReference (g.slotOf k)) g' := by
  obtain ⟨hfin, hlive, hcounts⟩ := h.dropping k hk
  have hother (slot : Nat) (hne : slot ≠ g.slotOf k) :
      Function.update s.releaseCount (g.slotOf k) (s.releaseCount (g.slotOf k) + 1) slot =
        s.releaseCount slot := Function.update_of_ne hne ..
  unfold State.dropReference Stream.dropReference
  dsimp only
  split
  · next hlast =>
    refine ⟨rfl, h.giveBack hk (by omega) hother, ?_⟩
    have := h.finished_le
    have := h.taken_le
    have := h.available_le
    have hold (j : Nat) (hj : j < g.taken) : j ≠ g.recycled := by omega
    exact hs.congr rfl rfl rfl rfl rfl rfl fun j hj => Function.update_of_ne (hold j hj) ..
  · next hmore =>
    refine ⟨rfl, { h with
      finished := ?_, dropping := ?_, entered := ?_, handler := h.handler }, hs⟩
    · intro j hj hjlive _
      change j < g.rx / 4096 at hj
      by_cases hjk : j = k
      · subst hjk
        dsimp only
        rw [Function.update_self]
        change s.useCount _ = _ + s.heldIn _ ∧ 0 < s.heldIn _
        omega
      · have hne : g.slotOf j ≠ g.slotOf k := by
          have := h.finished_le
          have := h.taken_le
          have := h.available_le
          exact h.slotOf_ne (by omega) (by omega) hjlive hlive hjk
        dsimp only
        rw [hother _ hne]
        exact h.finished j hj hjlive (by rw [hk]; rintro ⟨⟩; exact hjk rfl)
    · intro j hj
      cases hj
    · intro slot hslot
      obtain ⟨rfl, hlt, hopen⟩ := h.entered slot hslot
      refine ⟨rfl, hlt, ?_⟩
      dsimp only
      rw [hother _ (h.slotOf_ne_current hlt hfin hlive).symm]
      exact hopen

/-! ## Headers held by services -/

/-- The `msgid` of a message that has been read may change. -/
theorem writeMsgid (h : Represents s g) {x : Nat × Frame} (w : UInt32)
    (hx : x ∈ placed Frame.stride 0 (g.frames.take g.parsed)) (hlive : x.1 / 4096 ∉ g.released) :
    Represents
      { s with
        slotData := Function.update s.slotData (g.slotOf (x.1 / 4096))
          ((s.slotData (g.slotOf (x.1 / 4096))).storeWord (x.1 % 4096) w) }
      g := by
  have hx' := mem_of_read hx
  have hend : x.1 + x.2.stride ≤ 0 + g.upTo g.parsed := Layout.end_le_of_placed hx
  have hsize := x.2.size_add_le_stride
  apply h.write
  · have := h.slot_lt_taken hx'
    have := h.taken_le
    omega
  · exact hlive
  · intro y hy hslot
    have hysize := y.2.size_add_le_stride
    apply Block.loadWord_congr
    intro i hlo hhi
    apply Block.storeWord_of_disjoint
    rcases Layout.apart_of_placed hx' hy with rfl | hlt | hlt
    · omega
    · omega
    · omega
  · intro y hy hslot
    have hle := Layout.le_of_placed hy
    apply loadPacket_congr
    · intro i hlo hhi
      exact Block.storeWord_of_disjoint (by omega)
    · intro i hlo hhi
      exact Block.storeWord_of_disjoint (by omega)

/-- A service can only hold headers up to the one that the slot handler is at. -/
theorem held_le (h : Represents s g) {x : Nat × Frame}
    (hx : x ∈ placed Frame.stride 0 (g.frames.take g.parsed)) :
    x.1 / 4096 < g.rx / 4096 ∨
      x.1 / 4096 = g.rx / 4096 ∧ s.rxData = some (g.slotOf (g.rx / 4096)) := by
  have hsize := x.2.size_add_le_stride
  have hbefore : x.1 < g.rx ∨ x.1 = g.rx ∧ s.rxData.isSome := by
    have hend {n : Nat} (hx : x ∈ placed Frame.stride 0 (g.frames.take n)) :
        x.1 + x.2.stride ≤ 0 + g.upTo n := Layout.end_le_of_placed hx
    have hpc := h.handler
    unfold HandlerAt at hpc
    split at hpc
    · have := hend hx
      omega
    · have := hend hx
      have := hpc.1
      omega
    · obtain ⟨-, n, f, hparsed, hf, hrx, -, hdata⟩ := hpc
      rw [hparsed, List.take_add_one, hf, Layout.placed_append, List.mem_append] at hx
      rcases hx with hx | hx
      · have := hend hx
        omega
      · obtain rfl := List.mem_singleton.1 hx
        exact .inr ⟨by rw [hrx, Nat.zero_add]; rfl, hdata⟩
  have hentered (hsome : s.rxData.isSome) : s.rxData = some (g.slotOf (g.rx / 4096)) := by
    obtain ⟨slot, hslot⟩ := Option.isSome_iff_exists.1 hsome
    rw [hslot, (h.entered slot hslot).1]
  rcases hbefore with hlt | ⟨heq, hsome⟩
  · by_cases hslot : x.1 / 4096 < g.rx / 4096
    · exact .inl hslot
    · refine .inr ⟨by omega, hentered ?_⟩
      cases hdata : s.rxData with
      | some slot => rfl
      | none =>
        have := h.not_entered hdata
        omega
  · exact .inr ⟨by rw [heq], hentered hsome⟩

end Represents

namespace State

variable {s : State} {g : Stream} {slot off : Nat}

theorem heldIn_erase (h : (slot, off) ∈ s.held) (slot' : Nat) :
    (s.held.erase (slot, off)).countP (·.1 = slot') + (if slot = slot' then 1 else 0) =
      s.heldIn slot' := by
  have hperm := (List.perm_cons_erase h).countP_eq (p := fun a => decide (a.1 = slot'))
  rw [List.countP_cons] at hperm
  rw [heldIn, hperm]
  simp

theorem core_dropReference (s : State) (slot : Nat) :
    (s.dropReference slot).core =
      (s.slotData, s.rxData, s.useCount,
        Function.update s.releaseCount slot (s.releaseCount slot + 1), s.held) := by
  unfold dropReference
  dsimp only
  split
  · rfl
  · rfl

theorem follows_releaseHeader (hnone : g.dropping = none) (hr : Represents s g)
    (hs : SenderAt s g) (hheld : (slot, off) ∈ s.held) (closing : Bool) :
    Follows s g (s.releaseHeader slot off closing) := by
  obtain ⟨x, hx, hlive, hxeq⟩ := hr.held_at _ hheld
  obtain ⟨rfl, rfl⟩ := Prod.mk.inj hxeq
  unfold State.releaseHeader
  dsimp only
  split
  · exact .of_move hr (.stay rfl) hnone hr hs
  have hmove := Move.release hx hlive hheld (core_dropReference
    { s with
      slotData := Function.update s.slotData (g.slotOf (x.1 / 4096))
        ((s.slotData (g.slotOf (x.1 / 4096))).storeWord (x.1 % 4096)
          ((s.slotData (g.slotOf (x.1 / 4096))).loadWord (x.1 % 4096) &&& ~~~msgidClaimed))
      held := s.held.erase (g.slotOf (x.1 / 4096), x.1 % 4096) } (g.slotOf (x.1 / 4096)))
  have hcount := heldIn_erase hheld
  have hw := hr.writeMsgid
    ((s.slotData (g.slotOf (x.1 / 4096))).loadWord (x.1 % 4096) &&& ~~~msgidClaimed) hx hlive
  have hx' := Represents.mem_of_read hx
  have hxtaken := hr.slot_lt_taken hx'
  have htaken := hr.finished_le
  have havail := hr.taken_le
  have hrec := hr.available_le
  have hother {j : Nat} (hj : j < g.recycled) (hjlive : j ∉ g.released) (hne : j ≠ x.1 / 4096) :
      g.slotOf (x.1 / 4096) ≠ g.slotOf j :=
    hr.slotOf_ne (by omega) hj hlive hjlive hne.symm
  have hheld_at : ∀ a ∈ s.held.erase (g.slotOf (x.1 / 4096), x.1 % 4096), _ :=
    fun a ha => hr.held_at a (List.mem_of_mem_erase ha)
  generalize s.held.erase (g.slotOf (x.1 / 4096), x.1 % 4096) = held at hcount hheld_at hmove ⊢
  have hfinished {j : Nat} (hj : j < g.rx / 4096) (hjlive : j ∉ g.released)
      (hne : j ≠ x.1 / 4096) :
      s.useCount (g.slotOf j) = s.releaseCount (g.slotOf j) + held.countP (·.1 = g.slotOf j) ∧
        0 < held.countP (·.1 = g.slotOf j) := by
    have hsame := hcount (g.slotOf j)
    rw [if_neg (hother (by omega) hjlive hne)] at hsame
    have := hr.counts_of_finished hnone hj hjlive
    omega
  have hself := hcount (g.slotOf (x.1 / 4096))
  rw [if_pos rfl] at hself
  rcases hr.held_le hx with hfin | ⟨hopen, hdata⟩
  · -- the slot has been finished: this may be its last reference
    have hrelease := hr.counts_of_finished hnone hfin hlive
    have hopened : Represents
        { s with
          slotData := Function.update s.slotData (g.slotOf (x.1 / 4096))
            ((s.slotData (g.slotOf (x.1 / 4096))).storeWord (x.1 % 4096)
              ((s.slotData (g.slotOf (x.1 / 4096))).loadWord (x.1 % 4096) &&& ~~~msgidClaimed))
          held }
        { g with dropping := some (x.1 / 4096) } := by
      refine { hw with
        held_at := hheld_at, finished := ?_, dropping := ?_, entered := ?_, handler := hr.handler }
      · intro j hj hjlive hjk
        exact hfinished hj hjlive fun heq => hjk (congrArg some heq.symm)
      · rintro _ ⟨⟩
        have hlast : s.useCount (g.slotOf (x.1 / 4096)) = s.releaseCount (g.slotOf (x.1 / 4096)) +
            held.countP (·.1 = g.slotOf (x.1 / 4096)) + 1 := by omega
        exact ⟨hfin, hlive, hlast⟩
      · intro slot hslot
        obtain ⟨rfl, hlt, hcounts⟩ := hr.entered slot hslot
        have hsame := hcount (g.slotOf (g.rx / 4096))
        rw [if_neg (hother (by omega) (hr.not_released le_rfl) (by omega))] at hsame
        have hopen : s.useCount (g.slotOf (g.rx / 4096)) = s.releaseCount (g.slotOf (g.rx / 4096)) +
            held.countP (·.1 = g.slotOf (g.rx / 4096)) + 1 := by omega
        exact ⟨rfl, hlt, hopen⟩
    have hback : ({ g with dropping := none } : Stream) = g := by rw [← hnone]
    obtain ⟨hnone', hr', hs'⟩ := hopened.dropReference hs rfl
    rw [hback] at hnone' hr' hs'
    exact .of_move hr hmove hnone' hr' hs'
  · -- the slot is still being read: the slot handler holds on to it
    obtain ⟨-, hlt, hcounts⟩ := hr.entered _ hdata
    rw [← hopen] at hcounts
    have hmore : ¬ s.releaseCount (g.slotOf (x.1 / 4096)) + 1 =
        s.useCount (g.slotOf (x.1 / 4096)) := by omega
    have hstays : g.dropReference s (x.1 / 4096) = g := if_neg hmore
    rw [hstays] at hmove
    unfold State.dropReference at hmove ⊢
    dsimp only at hmove ⊢
    rw [if_neg hmore] at hmove ⊢
    refine .of_move hr hmove hnone { hw with
      held_at := hheld_at, finished := ?_, dropping := ?_, entered := ?_, handler := hr.handler } hs
    · intro j hj hjlive _
      dsimp only
      rw [Function.update_of_ne (hother (by omega) hjlive (by omega)).symm]
      exact hfinished hj hjlive (by omega)
    · intro j hj
      rw [hnone] at hj
      cases hj
    · intro slot hslot
      obtain ⟨rfl, -, -⟩ := hr.entered slot hslot
      refine ⟨rfl, hlt, ?_⟩
      have hopen' : s.useCount (g.slotOf (x.1 / 4096)) =
          s.releaseCount (g.slotOf (x.1 / 4096)) + 1 +
            held.countP (·.1 = g.slotOf (x.1 / 4096)) + 1 := by omega
      dsimp only
      rw [← hopen, Function.update_self]
      exact hopen'

theorem follows_processFreeQueue (hnone : g.dropping = none) (hr : Represents s g)
    (hs : SenderAt s g) : Follows s g s.processFreeQueue := by
  have hfin := hr.finished_le
  have htaken := hr.taken_le
  have hrec := hr.available_le
  have hring := hr.recycled_le_add
  unfold State.processFreeQueue
  split
  · exact .of_move hr (.stay rfl) hnone hr hs
  · next hne =>
    have hlt : g.available < g.recycled := by
      apply Nat.lt_of_le_of_ne hrec
      intro heq
      apply hne
      rw [hr.slotQueueAvailable, hr.slotQueueRecycle, heq]
    have hslot : s.slotQueue (s.slotQueueAvailable &&& slotQueueMask) = g.slotOf g.available := by
      rw [hr.slotQueueAvailable, and_slotQueueMask]
      exact hr.entry _ hlt (by omega)
    have hcount := hr.slotAvailable
    dsimp only
    rw [hslot, hr.freed _ le_rfl hlt]
    refine .of_move hr (.free rfl) hnone { hr with
      taken_le := htaken.trans (Nat.le_succ _), available_le := hlt, slotQueueAvailable := ?_,
      slotAvailable := ?_, freed := ?_, handler := hr.handler } hs
    · change s.slotQueueAvailable + 1 = _
      rw [hr.slotQueueAvailable, UInt32.ofNat_add]
      rfl
    · change g.taken + (s.slotAvailable + 1) = g.available + 1
      omega
    · intro k hk hkr
      exact hr.freed k (Nat.le_of_succ_le hk) hkr

end State

end Slots
