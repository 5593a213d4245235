-- SUMMARY: Quota accounting is exact: what the sender has counted is what process_free_queue finds.
import Ampi.Vchiq.Publishing
import Ampi.Vchiq.Rotation

/-!
# Recounting

The slot that the sender is in is the only one that can get another message, so that an
index that is not the one of this slot means the first message of its kind in it. For this
the index must not stand for this slot too early, either: it is set to the one before when a
service is added, and a port is not taken up again while its service is sending.
-/

namespace Turnover

open Slots Closing

/-! ## Sweeps -/

variable {data : Block} {fuel : Nat} {pos : UInt32} {hs : List (UInt32 × UInt32)} {w : Sweep}

theorem scan_le (h : scan data fuel pos = some hs) : pos ≤ slotSize := by
  cases fuel with
  | zero => cases h
  | succ fuel =>
    rw [scan] at h
    split at h
    · next hlt => exact UInt32.le_of_lt hlt
    · split at h
      · next heq => exact heq ▸ UInt32.le_refl _
      · cases h

/-- The sweep visits what the scan finds. -/
theorem sweep_of_scan (h : scan data fuel pos = some hs) :
    sweep data fuel pos w = some ((hs.map Prod.fst).foldl Sweep.visit w) := by
  induction fuel generalizing pos hs w with
  | zero => cases h
  | succ fuel ih =>
    rw [scan] at h
    rw [sweep]
    split at h
    · next hlt =>
      obtain ⟨rest, hrest, rfl⟩ := Option.map_eq_some_iff.1 h
      have hle := UInt32.not_lt.2 (scan_le hrest)
      rw [if_pos hlt]
      dsimp only
      rw [if_neg hle]
      exact ih hrest
    · next hlt =>
      split at h
      · obtain rfl := Option.some.inj h
        rw [if_neg hlt]
        rfl
      · cases h

/-- The walk of the transport is the same. -/
theorem walk_of_scan (h : scan data fuel pos = some hs) : walk data fuel pos = some slotSize := by
  induction fuel generalizing pos hs with
  | zero => cases h
  | succ fuel ih =>
    rw [scan] at h
    rw [walk]
    split at h
    · next hlt =>
      obtain ⟨rest, hrest, rfl⟩ := Option.map_eq_some_iff.1 h
      rw [if_pos hlt]
      exact ih hrest
    · next hlt =>
      split at h
      · next heq => rw [if_neg hlt, heq]
      · cases h

theorem toNat_pred {x : UInt16} (h : 0 < x.toNat) : (x - 1).toNat = x.toNat - 1 := by
  have hle : 1 ≤ x := UInt16.le_iff_toNat_le.2 h
  exact UInt16.toNat_sub_of_le _ _ hle

/-- What the visit of a message of the service on `port` does while the counts last. -/
theorem Sweep.visitData_eq {port : Nat} (hmessage : 0 < (w.accounts port).messageUseCount.toNat)
    (hslot : port ∉ w.serviceFound → 0 < (w.accounts port).slotUseCount.toNat) :
    let w' := w.visitData port
    (∀ q ≠ port, w'.accounts q = w.accounts q) ∧
      (w'.accounts port).messageUseCount.toNat + 1 = (w.accounts port).messageUseCount.toNat ∧
      (w'.accounts port).slotUseCount.toNat + (if port ∉ w.serviceFound then 1 else 0) =
        (w.accounts port).slotUseCount.toNat ∧
      (w'.accounts port).previousTxIndex = (w.accounts port).previousTxIndex ∧
      (∀ q, q ∈ w'.serviceFound ↔ q = port ∨ q ∈ w.serviceFound) ∧
      w'.dataFound = true ∧ w'.warnings = w.warnings := by
  have hpos : 0 < (w.accounts port).messageUseCount := UInt16.lt_iff_toNat_lt.2 hmessage
  have hne : (w.accounts port).messageUseCount ≠ 0 := fun h => by
    rw [h] at hmessage
    cases hmessage
  have hpred := toNat_pred hmessage
  intro w'
  by_cases hfound : port ∈ w.serviceFound
  · have hw' : w' = { w with
        accounts := Function.update w.accounts port (w.accounts port).freeMessage
        dataFound := true } := by
      simp [w', visitData, hfound, hne]
    rw [hw']
    refine ⟨fun q hq => Function.update_of_ne hq .., ?_⟩
    dsimp only
    rw [Function.update_self, if_neg (not_not.2 hfound)]
    refine ⟨?_, rfl, rfl, fun q => ?_, rfl, rfl⟩
    · simp only [Account.freeMessage, if_pos hpos]
      omega
    · exact ⟨.inr, fun h => h.elim (fun heq => heq ▸ hfound) id⟩
  · have hslotNat := hslot hfound
    have hslotPos : 0 < (w.accounts port).slotUseCount := UInt16.lt_iff_toNat_lt.2 hslotNat
    have hslotPred := toNat_pred hslotNat
    have hw' : w' = { w with
        accounts := Function.update w.accounts port (w.accounts port).freeMessage.freeSlot
        dataFound := true
        serviceFound := port :: w.serviceFound } := by
      have hfree : 0 < (w.accounts port).freeMessage.slotUseCount := hslotPos
      simp [w', visitData, hfound, hne, hfree]
    rw [hw']
    refine ⟨fun q hq => Function.update_of_ne hq .., ?_⟩
    dsimp only
    rw [Function.update_self, if_pos hfound]
    simp only [Account.freeSlot, Account.freeMessage, if_pos hpos, if_pos hslotPos]
    refine ⟨?_, ?_, trivial, fun q => List.mem_cons, trivial, trivial⟩
    · omega
    · omega

/-- What a sweep does while the counts last. -/
theorem sweep_counts (ms : List UInt32)
    (hmessage : ∀ port, ms.countP (isDataOf port) ≤ (w.accounts port).messageUseCount.toNat)
    (hslot : ∀ port ∉ w.serviceFound, ms.any (isDataOf port) = true →
      0 < (w.accounts port).slotUseCount.toNat) :
    let w' := ms.foldl Sweep.visit w
    (∀ port, (w'.accounts port).messageUseCount.toNat + ms.countP (isDataOf port) =
        (w.accounts port).messageUseCount.toNat) ∧
      (∀ port, (w'.accounts port).slotUseCount.toNat +
          (if port ∉ w.serviceFound ∧ ms.any (isDataOf port) = true then 1 else 0) =
        (w.accounts port).slotUseCount.toNat) ∧
      (∀ port, (w'.accounts port).previousTxIndex = (w.accounts port).previousTxIndex) ∧
      w'.dataFound = (w.dataFound || ms.any isData) ∧ w'.warnings = w.warnings := by
  induction ms generalizing w with
  | nil => simp
  | cons msgid ms ih =>
    rw [List.foldl_cons]
    cases hdata : isData msgid with
    | false =>
      have hof (port : Nat) : isDataOf port msgid = false := by
        rw [isDataOf, hdata, Bool.false_and]
      have hvisit : w.visit msgid = w := by
        rw [Sweep.visit, hdata]
        rfl
      have hcount (port : Nat) : (msgid :: ms).countP (isDataOf port) =
          ms.countP (isDataOf port) := List.countP_cons_of_neg (by simp [hof])
      have hany (port : Nat) : (msgid :: ms).any (isDataOf port) = ms.any (isDataOf port) := by
        rw [List.any_cons, hof, Bool.false_or]
      simp only [hcount, hany, hvisit, List.any_cons, hdata, Bool.false_or] at hmessage hslot ⊢
      exact ih hmessage hslot
    | true =>
      have hof (port : Nat) :
          isDataOf port msgid = decide ((msgSrcPort msgid).toNat = port) := by
        rw [isDataOf, hdata, Bool.true_and]
      have hvisit : w.visit msgid = w.visitData (msgSrcPort msgid).toNat := by
        rw [Sweep.visit, hdata]
        rfl
      rw [hvisit]
      generalize hport : (msgSrcPort msgid).toNat = here at hof
      have hself : isDataOf here msgid = true := by rw [hof, decide_eq_true rfl]
      have hother {port : Nat} (hne : port ≠ here) : isDataOf port msgid = false := by
        rw [hof, decide_eq_false (Ne.symm hne)]
      have hcount : (msgid :: ms).countP (isDataOf here) = ms.countP (isDataOf here) + 1 :=
        List.countP_cons_of_pos hself
      have hcount' {port : Nat} (hne : port ≠ here) :
          (msgid :: ms).countP (isDataOf port) = ms.countP (isDataOf port) :=
        List.countP_cons_of_neg (by simp [hother hne])
      have hany : (msgid :: ms).any (isDataOf here) = true := by
        rw [List.any_cons, hself, Bool.true_or]
      have hany' {port : Nat} (hne : port ≠ here) :
          (msgid :: ms).any (isDataOf port) = ms.any (isDataOf port) := by
        rw [List.any_cons, hother hne, Bool.false_or]
      have hpos : 0 < (w.accounts here).messageUseCount.toNat := by
        have := hmessage here
        omega
      obtain ⟨hsame, huse, hslotUse, hprev, hfound, hseen, hwarn⟩ :=
        Sweep.visitData_eq hpos fun hnot => hslot here hnot hany
      obtain ⟨ihuse, ihslot, ihprev, ihdata, ihwarn⟩ := ih (w := w.visitData here)
        (fun port => by
          by_cases hne : port = here
          · have := hmessage here
            rw [hne]
            omega
          · rw [hsame port hne, ← hcount' hne]
            exact hmessage port)
        (fun port hnot hin => by
          rw [hfound, not_or] at hnot
          rw [hsame port hnot.1]
          rw [← hany' hnot.1] at hin
          exact hslot port hnot.2 hin)
      refine ⟨fun port => ?_, fun port => ?_, fun port => ?_, ?_, ihwarn.trans hwarn⟩
      · have hrest := ihuse port
        by_cases hne : port = here
        · rw [hne] at hrest ⊢
          omega
        · rw [hsame port hne] at hrest
          rw [hcount' hne]
          exact hrest
      · have hrest := ihslot port
        by_cases hne : port = here
        · rw [hne] at hrest ⊢
          have hin : ¬(here ∉ (w.visitData here).serviceFound ∧
              ms.any (isDataOf here) = true) := fun h => h.1 ((hfound here).2 (.inl rfl))
          rw [if_neg hin, Nat.add_zero] at hrest
          simp only [hany, and_true]
          omega
        · have hiff : port ∉ (w.visitData here).serviceFound ↔ port ∉ w.serviceFound := by
            rw [hfound, or_iff_right hne]
          rw [hsame port hne, if_congr (and_congr_left' hiff) rfl rfl, ← hany' hne] at hrest
          exact hrest
      · refine (ihprev port).trans ?_
        by_cases hne : port = here
        · rw [hne]
          exact hprev
        · rw [hsame port hne]
      · rw [ihdata, hseen, List.any_cons, hdata, Bool.true_or, Bool.or_true]

/-! ## Counts over slots -/

section Slots

variable {slots : List Nat} {slot : Nat} (content : Nat → List UInt32) (v : List UInt32)

/-- One slot gets other messages. -/
theorem sum_update {f : List UInt32 → Nat} (hnodup : slots.Nodup) (hmem : slot ∈ slots) :
    (slots.map fun x => f (Function.update content slot v x)).sum + f (content slot) =
      (slots.map fun x => f (content x)).sum + f v := by
  induction slots with
  | nil => cases hmem
  | cons x slots ih =>
    obtain ⟨hx, hnodup⟩ := List.nodup_cons.1 hnodup
    rw [List.map_cons, List.map_cons, List.sum_cons, List.sum_cons]
    rcases List.mem_cons.1 hmem with rfl | hmem
    · have hrest : (slots.map fun x => f (Function.update content slot v x)) =
          slots.map fun x => f (content x) := by
        apply List.map_congr_left
        intro y hy
        have hne : y ≠ slot := fun heq => hx (heq ▸ hy)
        rw [Function.update_of_ne hne]
      rw [hrest, Function.update_self]
      omega
    · have hne : x ≠ slot := fun heq => hx (heq ▸ hmem)
      have := ih hnodup hmem
      rw [Function.update_of_ne hne]
      omega

theorem countP_eq_sum (p : Nat → Bool) (slots : List Nat) :
    slots.countP p = (slots.map fun x => if p x then 1 else 0).sum := by
  induction slots with
  | nil => rfl
  | cons x slots ih =>
    rw [List.countP_cons, List.map_cons, List.sum_cons, ih, Nat.add_comm]

/-- How many slots have a message of a kind, when one slot gets other messages. -/
theorem countP_update {p : UInt32 → Bool} (hnodup : slots.Nodup) (hmem : slot ∈ slots) :
    (slots.countP fun x => (Function.update content slot v x).any p) +
        (if (content slot).any p then 1 else 0) =
      (slots.countP fun x => (content x).any p) + if v.any p then 1 else 0 := by
  rw [countP_eq_sum, countP_eq_sum]
  exact sum_update (f := fun l => if l.any p then 1 else 0) content v hnodup hmem

end Slots

/-- Padding is not counted. -/
theorem countP_frames {p : UInt32 → Bool} (hp : p msgidPadding = false) (fs : List Frame) :
    (fs.map Frame.msgid).countP p = ((messages fs).map Message.msgid).countP p ∧
      (fs.map Frame.msgid).any p = ((messages fs).map Message.msgid).any p := by
  induction fs with
  | nil => exact ⟨rfl, rfl⟩
  | cons f fs ih =>
    cases f with
    | message m =>
      change (m.msgid :: fs.map Frame.msgid).countP p =
          (m.msgid :: (messages fs).map Message.msgid).countP p ∧
        (m.msgid :: fs.map Frame.msgid).any p =
          (m.msgid :: (messages fs).map Message.msgid).any p
      rw [List.countP_cons, List.countP_cons, List.any_cons, List.any_cons, ih.1, ih.2]
      exact ⟨rfl, rfl⟩
    | padding size fits =>
      change (msgidPadding :: fs.map Frame.msgid).countP p = _ ∧
        (msgidPadding :: fs.map Frame.msgid).any p = _
      rw [List.countP_cons_of_neg (by simp [hp]), List.any_cons, hp, Bool.false_or]
      exact ih

/-! ## Indices -/

theorem txIndex_ofNat {n : Nat} (hlt : n < 2 ^ 32) :
    Closing.State.txIndex (.ofNat n) = (n / 4096 : Nat) := by
  have hsize : slotSize.toNat = 4096 := rfl
  rw [Closing.State.txIndex, slotQueueIndexFromPos, UInt32.toNat_div, hsize, UInt32.toNat_ofNat',
    Nat.mod_eq_of_lt hlt]

theorem txIndex_pred {n : Nat} (hpos : 0 < n) (hlt : n < 2 ^ 32) :
    Closing.State.txIndex (.ofNat n - 1) = ((n - 1) / 4096 : Nat) := by
  have hone : (1 : UInt32) = .ofNat 1 := rfl
  have hpred : n - 1 < 2 ^ 32 := (Nat.sub_le n 1).trans_lt hlt
  rw [hone, ← UInt32.ofNat_sub hpos, txIndex_ofNat hpred]

theorem toNat_succ {x : UInt16} (h : x.toNat < 65535) : (x + 1).toNat = x.toNat + 1 := by
  have hone : (1 : UInt16).toNat = 1 := rfl
  rw [UInt16.toNat_add, hone]
  omega

/-- Another message may go into the slot that was taken last, and none that is counted
by `p` is on its way past its index. -/
def State.Open (s : State) (g : Ring) (p : UInt32 → Bool) : Prop :=
  match s.transport.sender with
  | .filling m _ _ => g.tx + (Frame.message m).stride < g.taken * 4096 ∨ p m.msgid = true
  | _ => g.tx < g.taken * 4096

/-- An index stands for the slot that was taken last if this has a message of its kind. -/
structure Indexed (s : State) (g : Ring) (p : UInt32 → Bool) (index : Int) : Prop where
  lt : index < g.taken
  current : ∀ k, g.taken = k + 1 → s.Open g p →
    (index = k ↔ (s.content (g.slotOf k)).any p = true)

structure Kept (r : SlotRange) (s : State) (g : Ring) : Prop where
  stands : Stands r s.transport g
  sender : SenderIn s.transport g
  read : g.read = s.read
  parsed : g.parsed = s.parsed
  content : ∀ slot, s.content slot = (messages (g.frames slot)).map Message.msgid
  /-- Only services that have been added send. -/
  sending : ∀ port, s.sending port = true → port ∈ s.added
  added : ∀ slot port, (s.content slot).any (isDataOf port) = true → port ∈ s.added
  index : ∀ port ∈ s.added, Indexed s g (isDataOf port) (s.books.accounts port).previousTxIndex
  dataIndex : Indexed s g isData s.books.previousDataIndex
  exact : Exact r s

namespace Kept

variable {r : SlotRange} {s : State} {g g' : Ring} {t : Slots.State} {m : Message}

theorem lt_of_open (h : Kept r s g) {p : UInt32 → Bool} (hopen : s.Open g p) :
    g.tx < g.taken * 4096 := by
  have hs := h.sender
  unfold SenderIn at hs
  unfold State.Open at hopen
  match hpc : s.transport.sender with
  | .idle | .waiting _ | .publishing _ | .fault =>
    rw [hpc] at hopen
    exact hopen
  | .filling m slot off =>
    rw [hpc] at hs
    omega

/-- The slot that was taken last is one of the sender's. -/
theorem current_mem (h : Kept r s g) {k : Nat} (hk : g.taken = k + 1)
    (hopen : g.tx < g.taken * 4096) : g.slotOf k ∈ r.slots := by
  obtain ⟨n, -, hlo, hhi⟩ := h.stands.txPos
  have htaken := h.stands.taken_le
  have havail := h.stands.available_le
  exact h.stands.slotOf_mem (by omega) (by omega)

theorem length_content_le (h : Kept r s g) (slot : Nat) : (s.content slot).length ≤ 512 := by
  have hshort := h.stands.short slot
  have hlength : (g.frames slot).length * 8 ≤ Layout.total Frame.stride (g.frames slot) := by
    apply Layout.length_mul_le_total
    intro f _
    have := f.size_add_le_stride
    omega
  have hfilter : (messages (g.frames slot)).length ≤ (g.frames slot).length :=
    List.length_filterMap_le ..
  rw [h.content, List.length_map]
  omega

theorem length_slots_le (r : SlotRange) : r.slots.length ≤ 64 := by
  have hfits : r.slotLast + 1 - r.slotFirst ≤ 64 := r.fits
  rw [SlotRange.slots, List.length_range', SlotRange.count]
  exact hfits

/-- No count reaches the end of its range. -/
theorem sum_le (h : Kept r s g) (p : UInt32 → Bool) :
    (r.slots.map fun slot => (s.content slot).countP p).sum ≤ 32768 := by
  have hsum : (r.slots.map fun slot => (s.content slot).countP p).sum ≤
      (r.slots.map fun slot => (s.content slot).countP p).length • 512 := by
    apply List.sum_le_card_nsmul
    intro n hn
    obtain ⟨slot, -, rfl⟩ := List.mem_map.1 hn
    exact List.countP_le_length.trans (h.length_content_le slot)
  have hlength := length_slots_le r
  rw [List.length_map, smul_eq_mul] at hsum
  omega

/-! ## Reservations -/

/-- A part of `queue_message` in which nothing is counted. -/
theorem advance (h : Kept r s g) (hstands : Stands r t g') (hsender : SenderIn t g')
    (hadv : g.Advances g') (hother : ∀ m slot off, s.transport.sender ≠ .filling m slot off)
    (hsending : ∀ port, State.sending { s with transport := t } port = true → port ∈ s.added) :
    Kept r { s with transport := t } g' := by
  have hindexed {p : UInt32 → Bool} {index : Int} (hindex : Indexed s g p index)
      (hopen' : State.Open { s with transport := t } g' p → g'.tx < g'.taken * 4096) :
      Indexed { s with transport := t } g' p index := by
    refine ⟨?_, fun k hk hopen => ?_⟩
    · have hlt := hindex.lt
      rcases hadv.turn with ⟨htaken, -⟩ | ⟨htaken, -⟩ <;> omega
    · have htx := hopen' hopen
      rcases hadv.turn with ⟨htaken, hle⟩ | ⟨htaken, htx', hempty⟩
      · have hopen₀ : s.Open g p := by
          unfold State.Open
          match hpc : s.transport.sender with
          | .idle | .waiting _ | .publishing _ | .fault =>
            dsimp only
            omega
          | .filling m slot off => exact absurd hpc (hother m slot off)
        rw [hadv.slotOf]
        exact hindex.current k (htaken ▸ hk) hopen₀
      · -- a fresh slot
        obtain rfl : g.taken = k := by omega
        have hnil : s.content (g.slotOf g.taken) = [] := by
          rw [h.content, ← hadv.messages, hempty]
          rfl
        rw [hadv.slotOf]
        dsimp only
        rw [hnil]
        exact iff_of_false hindex.lt.ne (by simp)
  have hlt {p : UInt32 → Bool} (hopen : State.Open { s with transport := t } g' p) :
      g'.tx < g'.taken * 4096 := by
    have hs := hsender
    unfold SenderIn at hs
    unfold State.Open at hopen
    match hpc : t.sender with
    | .idle | .waiting _ | .publishing _ | .fault =>
      dsimp only at hopen
      rw [hpc] at hopen
      exact hopen
    | .filling m slot off =>
      rw [hpc] at hs
      omega
  exact
    { stands := hstands
      sender := hsender
      read := hadv.read.trans h.read
      parsed := hadv.parsed.trans h.parsed
      content := fun slot => (h.content slot).trans (by rw [hadv.messages])
      sending := hsending
      added := h.added
      index := fun port hport => hindexed (h.index port hport) hlt
      dataIndex := hindexed h.dataIndex hlt
      exact := ⟨h.exact.message, h.exact.slot, h.exact.data, h.exact.warnings⟩ }

/-! ## Counting -/

/-- The message is in its slot, and not yet published. -/
theorem fill_indexed (h : Kept r s g) {slot off : Nat}
    (hfill : s.transport.sender = .filling m slot off) {p : UInt32 → Bool} {index : Int}
    (hindex : Indexed s g p index) :
    (p m.msgid = true → (index = (g.tx / 4096 : Nat) ↔ (s.content slot).any p = true)) ∧
      Indexed s.senderStep (g.push (g.tx / 4096) (.message m)) p
        (if p m.msgid = true then ((g.tx / 4096 : Nat) : Int) else index) := by
  have hs := h.sender
  rw [SenderIn, hfill] at hs
  obtain ⟨htaken, rfl, -⟩ := hs
  have hopen (hp : p m.msgid = true) : s.Open g p := by
    rw [State.Open, hfill]
    exact .inr hp
  have hcontent : s.senderStep.content (g.slotOf (g.tx / 4096)) =
      s.content (g.slotOf (g.tx / 4096)) ++ [m.msgid] := by
    simp only [State.senderStep, hfill, Function.update_self]
  refine ⟨fun hp => hindex.current _ htaken (hopen hp), ?_, fun k hk hopen' => ?_⟩
  · have hlt := hindex.lt
    change _ < ((g.taken : Nat) : Int)
    split <;> omega
  · change g.taken = k + 1 at hk
    obtain rfl : g.tx / 4096 = k := by omega
    change _ ↔ (s.senderStep.content (g.slotOf (g.tx / 4096))).any p = true
    rw [hcontent, List.any_append]
    by_cases hp : p m.msgid = true
    · rw [if_pos hp]
      simp [hp]
    · have hlt : s.Open g p := by
        rw [State.Open, hfill]
        unfold State.Open at hopen'
        simp only [State.senderStep, Slots.State.senderStep, hfill] at hopen'
        exact .inl hopen'
      rw [if_neg hp, hindex.current _ htaken hlt]
      simp [hp]

theorem count_eq (a : Account) (index : Int) :
    (a.count index).messageUseCount = a.messageUseCount + 1 ∧
      (a.count index).previousTxIndex = index ∧
      (a.count index).slotUseCount =
        if a.previousTxIndex = index then a.slotUseCount else a.slotUseCount + 1 := by
  unfold Account.count
  dsimp only
  by_cases hsame : index = a.previousTxIndex
  · rw [if_neg (not_not.2 hsame), if_pos hsame.symm]
    exact ⟨rfl, hsame.symm, rfl⟩
  · rw [if_pos hsame, if_neg (Ne.symm hsame)]
    exact ⟨rfl, rfl, rfl⟩

/-- The message is counted where it is the first of its kind in its slot. -/
theorem fill_counts (h : Kept r s g) {slot off : Nat}
    (hfill : s.transport.sender = .filling m slot off)
    (hindex : Closing.State.txIndex (s.transport.localTxPos - 1) = (g.tx / 4096 : Nat))
    (port : Nat) (hadded : isDataOf port m.msgid = true → port ∈ s.added) :
    let a := s.books.accounts port
    let a' := s.senderStep.books.accounts port
    let first := isDataOf port m.msgid = true ∧ ¬(s.content slot).any (isDataOf port) = true
    a'.messageUseCount.toNat =
        a.messageUseCount.toNat + (if isDataOf port m.msgid then 1 else 0) ∧
      a'.slotUseCount.toNat = a.slotUseCount.toNat + (if first then 1 else 0) ∧
      a'.previousTxIndex =
        if isDataOf port m.msgid = true then ((g.tx / 4096 : Nat) : Int)
        else a.previousTxIndex := by
  intro a a' first
  have hbooks : s.senderStep.books =
      if isData m.msgid then s.booksHere.countData (msgSrcPort m.msgid).toNat else s.books := by
    simp only [State.senderStep, hfill]
  by_cases hp : isDataOf port m.msgid = true
  · have hport := hp
    rw [isDataOf, Bool.and_eq_true, decide_eq_true_eq] at hport
    obtain ⟨hdata, rfl⟩ := hport
    have ha' : a' = a.count (g.tx / 4096 : Nat) := by
      simp only [a', a, hbooks, if_pos hdata, Books.countData, State.booksHere, hindex,
        Function.update_self]
    obtain ⟨huse, hprev, hslot⟩ := count_eq a (g.tx / 4096 : Nat)
    have hiff := (h.fill_indexed hfill (h.index _ (hadded hp))).1 hp
    have hmessage : a.messageUseCount.toNat = _ := h.exact.message _
    have hsum := h.sum_le (isDataOf (msgSrcPort m.msgid).toNat)
    have hfew : a.slotUseCount.toNat = _ := h.exact.slot _
    have hle : (r.slots.countP fun x => (s.content x).any (isDataOf (msgSrcPort m.msgid).toNat)) ≤
        64 := List.countP_le_length.trans (length_slots_le r)
    rw [ha', huse, hprev, hslot, if_pos hp, if_pos hp]
    refine ⟨toNat_succ (by omega), ?_, rfl⟩
    by_cases hany : (s.content slot).any (isDataOf (msgSrcPort m.msgid).toNat) = true
    · rw [if_pos (hiff.2 hany), if_neg fun hfirst => hfirst.2 hany]
      rfl
    · rw [if_neg fun heq => hany (hiff.1 heq), if_pos ⟨hp, hany⟩]
      exact toNat_succ (by omega)
  · have ha' : a' = a := by
      simp only [a', a, hbooks]
      split
      · next hdata =>
        have hne : port ≠ (msgSrcPort m.msgid).toNat := by
          rintro rfl
          exact hp (by simp [isDataOf, hdata])
        exact Function.update_of_ne hne ..
      · rfl
    rw [ha', if_neg hp, if_neg hp, if_neg fun hfirst => hp hfirst.1]
    exact ⟨rfl, rfl, rfl⟩

/-- The same for all services together. -/
theorem fill_data (h : Kept r s g) {slot off : Nat}
    (hfill : s.transport.sender = .filling m slot off)
    (hindex : Closing.State.txIndex (s.transport.localTxPos - 1) = (g.tx / 4096 : Nat)) :
    let first := isData m.msgid = true ∧ ¬(s.content slot).any isData = true
    s.senderStep.books.dataUseCount.toNat =
        s.books.dataUseCount.toNat + (if first then 1 else 0) ∧
      s.senderStep.books.previousDataIndex =
        if isData m.msgid = true then ((g.tx / 4096 : Nat) : Int)
        else s.books.previousDataIndex := by
  intro first
  have hbooks : s.senderStep.books =
      if isData m.msgid then s.booksHere.countData (msgSrcPort m.msgid).toNat else s.books := by
    simp only [State.senderStep, hfill]
  rw [hbooks]
  by_cases hp : isData m.msgid = true
  · have hiff := (h.fill_indexed hfill h.dataIndex).1 hp
    have hfew := h.exact.data
    have hle : (r.slots.countP fun x => (s.content x).any isData) ≤ 64 :=
      List.countP_le_length.trans (length_slots_le r)
    rw [if_pos hp, if_pos hp]
    simp only [Books.countData, State.booksHere, hindex]
    refine ⟨?_, trivial⟩
    by_cases hany : (s.content slot).any isData = true
    · rw [if_neg (not_not.2 (hiff.2 hany).symm), if_neg fun hfirst => hfirst.2 hany]
      rfl
    · rw [if_pos fun heq => hany (hiff.1 heq.symm), if_pos ⟨hp, hany⟩]
      exact toNat_succ (by omega)
  · rw [if_neg hp, if_neg hp, if_neg fun hfirst => hp hfirst.1]
    exact ⟨rfl, rfl⟩

theorem fill (h : Kept r s g) (hlt : s.transmitted < 2 ^ 31) {slot off : Nat}
    (hfill : s.transport.sender = .filling m slot off) :
    Kept r s.senderStep (g.push (g.tx / 4096) (.message m)) := by
  obtain ⟨hstands, hsender⟩ := h.stands.fill h.sender hfill
  have hs := h.sender
  rw [SenderIn, hfill] at hs
  obtain ⟨htaken, hslot, hoff, hfit, hlocal⟩ := hs
  have htx : g.tx < 2 ^ 31 := h.stands.written ▸ hlt
  have hstride := (Frame.message m).size_add_le_stride
  have hmem : slot ∈ r.slots := hslot ▸ h.current_mem htaken (by omega)
  have hnodup := r.nodup_slots
  have hindex : Closing.State.txIndex (s.transport.localTxPos - 1) = (g.tx / 4096 : Nat) := by
    rw [hlocal, txIndex_pred (by omega) (by omega)]
    congr 1
    omega
  have hcontent : s.senderStep.content =
      Function.update s.content slot (s.content slot ++ [m.msgid]) := by
    simp only [State.senderStep, hfill]
  have htransport : s.senderStep.transport = s.transport.senderStep := by
    simp only [State.senderStep, hfill]
  have hrest : s.senderStep.read = s.read ∧ s.senderStep.parsed = s.parsed ∧
      s.senderStep.added = s.added ∧ s.senderStep.warnings = s.warnings := by
    simp only [State.senderStep, hfill, and_self]
  obtain ⟨hread, hparsed, hadded, hwarn⟩ := hrest
  have hsending (port : Nat) (hp : isDataOf port m.msgid = true) : port ∈ s.added := by
    apply h.sending
    rw [State.sending, hfill]
    exact hp
  -- the sums with the message
  have hsum (p : UInt32 → Bool) :
      (r.slots.map fun x => (s.senderStep.content x).countP p).sum =
        (r.slots.map fun x => (s.content x).countP p).sum + if p m.msgid then 1 else 0 := by
    have := sum_update (f := List.countP p) s.content (s.content slot ++ [m.msgid]) hnodup hmem
    rw [hcontent]
    rw [List.countP_append, List.countP_singleton] at this
    omega
  have hcount (p : UInt32 → Bool) :
      (r.slots.countP fun x => (s.senderStep.content x).any p) =
        (r.slots.countP fun x => (s.content x).any p) +
          if p m.msgid = true ∧ ¬(s.content slot).any p = true then 1 else 0 := by
    have := countP_update (p := p) s.content (s.content slot ++ [m.msgid]) hnodup hmem
    rw [hcontent]
    rw [List.any_append, List.any_cons, List.any_nil, Bool.or_false] at this
    cases hp : p m.msgid <;> cases hany : (s.content slot).any p <;>
      simp [hp, hany] at this ⊢ <;> omega
  obtain ⟨hdataUse, hdataIndex⟩ := h.fill_data hfill hindex
  have hcounts (port : Nat) := h.fill_counts hfill hindex port (hsending port)
  refine
    { stands := htransport ▸ hstands
      sender := htransport ▸ hsender
      read := h.read.trans hread.symm
      parsed := h.parsed.trans hparsed.symm
      content := fun x => ?_
      sending := fun port hport => ?_
      added := fun x port hport => ?_
      index := fun port hport => ?_
      dataIndex := ?_
      exact := ⟨fun port => ?_, fun port => ?_, ?_, hwarn.trans h.exact.warnings⟩ }
  · rw [hcontent]
    dsimp only [Ring.push]
    by_cases hx : x = slot
    · rw [hx, ← hslot, Function.update_self, Function.update_self, messages_append,
        List.map_append, h.content]
      rfl
    · rw [← hslot, Function.update_of_ne hx, Function.update_of_ne hx]
      exact h.content x
  · rw [hadded]
    apply hsending
    rw [State.sending, htransport] at hport
    simpa only [Slots.State.senderStep, hfill] using hport
  · rw [hadded]
    rw [hcontent] at hport
    by_cases hx : x = slot
    · rw [hx, Function.update_self, List.any_append, Bool.or_eq_true] at hport
      rcases hport with hport | hport
      · exact h.added slot port hport
      · exact hsending port (by simpa using hport)
    · rw [Function.update_of_ne hx] at hport
      exact h.added x port hport
  · rw [hadded] at hport
    obtain ⟨-, -, hprev⟩ := hcounts port
    rw [hprev]
    exact (h.fill_indexed hfill (h.index port hport)).2
  · rw [hdataIndex]
    exact (h.fill_indexed hfill h.dataIndex).2
  · obtain ⟨huse, -⟩ := hcounts port
    rw [huse, hsum, h.exact.message]
  · obtain ⟨-, huse, -⟩ := hcounts port
    rw [huse, hcount, h.exact.slot]
  · rw [hdataUse, hcount, h.exact.data]

/-! ## The peer and the recycler -/

/-- Nothing that is counted, and nothing that an index is compared with, has changed. -/
theorem of_same {s' : State} (h : Kept r s g) (hstands : Stands r s'.transport g')
    (hsender : SenderIn s'.transport g') (hread : g'.read = s'.read)
    (hparsed : g'.parsed = s'.parsed) (hframes : g'.frames = g.frames)
    (hpos : (g'.tx, g'.taken) = (g.tx, g.taken)) (hslotOf : ∀ k < g.taken, g'.slotOf k = g.slotOf k)
    (hpc : s'.transport.sender = s.transport.sender)
    (hsame : (s'.books, s'.added, s'.warnings, s'.content) =
      (s.books, s.added, s.warnings, s.content)) : Kept r s' g' := by
  simp only [Prod.mk.injEq] at hpos hsame
  obtain ⟨htx, htaken⟩ := hpos
  obtain ⟨hbooks, hadded, hwarn, hcontent⟩ := hsame
  have hindexed {p : UInt32 → Bool} {index : Int} (hindex : Indexed s g p index) :
      Indexed s' g' p index := by
    refine ⟨htaken ▸ hindex.lt, fun k hk hopen => ?_⟩
    rw [htaken] at hk
    rw [State.Open, hpc, htx, htaken] at hopen
    rw [hcontent, hslotOf k (by omega)]
    exact hindex.current k hk hopen
  refine ⟨hstands, hsender, hread, hparsed, ?_, ?_, ?_, ?_, ?_, ⟨?_, ?_, ?_, ?_⟩⟩
  · rw [hcontent, hframes]
    exact h.content
  · intro port hport
    rw [State.sending, hpc] at hport
    exact hadded ▸ h.sending port hport
  · rw [hcontent, hadded]
    exact h.added
  · rw [hadded, hbooks]
    exact fun port hport => hindexed (h.index port hport)
  · rw [hbooks]
    exact hindexed h.dataIndex
  · rw [hbooks, hcontent]
    exact h.exact.message
  · rw [hbooks, hcontent]
    exact h.exact.slot
  · rw [hbooks, hcontent]
    exact h.exact.data
  · exact hwarn.trans h.exact.warnings

theorem parse (h : Kept r s g) : ∃ g', Kept r s.parse g' := by
  unfold State.parse
  split
  · next hend =>
    rw [← h.read] at hend
    obtain ⟨hstands, hslot⟩ := h.stands.parse hend
    refine ⟨_, h.of_same hstands h.sender ?_ ?_ rfl rfl (fun _ _ => rfl) rfl rfl⟩
    · exact congrArg Nat.succ h.read
    · dsimp only
      rw [← h.read, hslot, h.parsed]
  · exact ⟨g, h⟩

theorem giveBack (h : Kept r s g) (slot : Nat) (data : Block) :
    ∃ g', Kept r (s.giveBack slot data) g' := by
  unfold State.giveBack
  dsimp only
  split
  · next hok =>
    obtain ⟨hmem, hscan⟩ := hok
    rw [List.contains_iff_mem, ← h.parsed] at hmem
    have htaken := h.stands.taken_le
    have havail := h.stands.available_le
    have hslotOf {k : Nat} (hk : k < g.taken) :
        Function.update g.slotOf g.recycled slot k = g.slotOf k :=
      Function.update_of_ne (by omega) ..
    have hsender := h.sender
    refine ⟨_, h.of_same (h.stands.giveBack hmem hscan) ?_ h.read ?_ rfl rfl
      (fun k hk => hslotOf hk) rfl rfl⟩
    · unfold SenderIn at hsender ⊢
      match hpc : s.transport.sender with
      | .idle | .waiting _ | .publishing _ | .fault =>
        rw [hpc] at hsender
        exact hsender
      | .filling m slot' off =>
        rw [hpc] at hsender
        obtain ⟨htk, hslot, hrest⟩ := hsender
        exact ⟨htk, hslot.trans (hslotOf (by omega)).symm, hrest⟩
    · exact congrArg (List.erase · slot) h.parsed
  · exact ⟨g, h⟩

theorem isData_padding : isData msgidPadding = false ∧ ∀ port, isDataOf port msgidPadding = false :=
  ⟨rfl, fun _ => rfl⟩

theorem processFreeQueue (h : Kept r s g) : ∃ g', Kept r s.processFreeQueue g' := by
  unfold State.processFreeQueue
  dsimp only
  split
  · exact ⟨g, h⟩
  next hne =>
  obtain ⟨hlt, hslot⟩ := h.stands.slotQueue_available hne
  have hread := h.stands.read_le
  have htaken := h.stands.taken_le
  have htx := h.stands.tx_le
  have hscan := h.stands.full _ (.inr ⟨g.available, rfl, .inr ⟨le_rfl, hlt⟩⟩)
  have hmem := h.stands.slotOf_mem (k := g.available) (by omega) hlt
  generalize hcur : g.slotOf g.available = slot at *
  have hnodup := r.nodup_slots
  have hmap : ((g.frames slot).map header).map Prod.fst = (g.frames slot).map Frame.msgid :=
    List.map_map ..
  have hfound {p : UInt32 → Bool} (hp : p msgidPadding = false) :
      ((g.frames slot).map Frame.msgid).countP p = (s.content slot).countP p ∧
        ((g.frames slot).map Frame.msgid).any p = (s.content slot).any p := by
    rw [h.content]
    exact countP_frames hp _
  -- the sums without the slot
  have hsum (p : UInt32 → Bool) :
      (r.slots.map fun x => (Function.update s.content slot [] x).countP p).sum +
          (s.content slot).countP p =
        (r.slots.map fun x => (s.content x).countP p).sum :=
    sum_update (f := List.countP p) s.content [] hnodup hmem
  have hcount (p : UInt32 → Bool) :
      (r.slots.countP fun x => (Function.update s.content slot [] x).any p) +
          (if (s.content slot).any p then 1 else 0) =
        r.slots.countP fun x => (s.content x).any p :=
    countP_update s.content [] hnodup hmem
  obtain ⟨hmessage, hslotUse, hprev, hdata, hwarn⟩ := sweep_counts
    (w := { accounts := s.books.accounts, warnings := s.warnings })
    ((g.frames slot).map Frame.msgid)
    (fun port => by
      have hfew := hsum (isDataOf port)
      rw [(hfound (isData_padding.2 port)).1]
      dsimp only
      rw [h.exact.message]
      omega)
    (fun port _ hany => by
      have hfew := hcount (isDataOf port)
      rw [(hfound (isData_padding.2 port)).2] at hany
      rw [if_pos hany] at hfew
      dsimp only
      rw [h.exact.slot]
      omega)
  rw [hslot, sweep_of_scan hscan, hmap]
  dsimp only
  generalize ((g.frames slot).map Frame.msgid).foldl Sweep.visit
    { accounts := s.books.accounts, warnings := s.warnings } = w at *
  have htransport : s.transport.processFreeQueue =
      { s.transport with
        slotQueueAvailable := s.transport.slotQueueAvailable + 1
        slotAvailable := s.transport.slotAvailable + 1 } := by
    simp only [Slots.State.processFreeQueue, if_neg hne, hslot, walk_of_scan hscan]
  have hstands := h.stands.process hlt
  rw [hcur] at hstands
  rw [htransport]
  have hindexed {p : UInt32 → Bool} {index : Int} {s' : State} (hindex : Indexed s g p index)
      (hpc : s'.transport.sender = s.transport.sender)
      (hcontent : s'.content = Function.update s.content slot []) :
      Indexed s' { g with
        available := g.available + 1
        frames := Function.update g.frames slot [] } p index := by
    refine ⟨hindex.lt, fun k hk hopen => ?_⟩
    dsimp only at hk ⊢
    rw [State.Open, hpc] at hopen
    have hlt' := h.lt_of_open hopen
    obtain ⟨n, -, hlo, hhi⟩ := h.stands.txPos
    have hne : g.slotOf k ≠ slot := by
      rw [← hcur]
      intro heq
      have := h.stands.slotOf_inj (by omega) (by omega) (by omega) hlt heq
      omega
    rw [hcontent, Function.update_of_ne hne]
    exact hindex.current k hk hopen
  refine ⟨_,
    { stands := hstands
      sender := h.sender
      read := h.read
      parsed := h.parsed
      content := fun x => ?_
      sending := h.sending
      added := fun x port hport => ?_
      index := fun port hport => ?_
      dataIndex := hindexed h.dataIndex rfl rfl
      exact := ⟨fun port => ?_, fun port => ?_, ?_, hwarn.trans h.exact.warnings⟩ }⟩
  · dsimp only
    by_cases hx : x = slot
    · rw [hx, Function.update_self, Function.update_self]
      rfl
    · rw [Function.update_of_ne hx, Function.update_of_ne hx]
      exact h.content x
  · dsimp only at hport ⊢
    by_cases hx : x = slot
    · rw [hx, Function.update_self] at hport
      cases hport
    · rw [Function.update_of_ne hx] at hport
      exact h.added x port hport
  · dsimp only at hport ⊢
    rw [hprev port]
    exact hindexed (h.index port hport) rfl rfl
  · have hrest := hmessage port
    have hfew := hsum (isDataOf port)
    rw [(hfound (isData_padding.2 port)).1] at hrest
    dsimp only at hrest ⊢
    rw [h.exact.message] at hrest
    omega
  · have hrest := hslotUse port
    have hfew := hcount (isDataOf port)
    rw [(hfound (isData_padding.2 port)).2] at hrest
    dsimp only at hrest ⊢
    simp only [List.not_mem_nil, not_false_eq_true, true_and] at hrest
    rw [h.exact.slot] at hrest
    omega
  · have hfew := hcount isData
    have huse := h.exact.data
    dsimp only at hdata ⊢
    rw [(hfound isData_padding.1).2, Bool.false_or] at hdata
    rw [hdata]
    by_cases hany : (s.content slot).any isData = true
    · rw [if_pos hany] at hfew
      have hpos : 0 < s.books.dataUseCount.toNat := by omega
      rw [if_pos ⟨hany, UInt16.lt_iff_toNat_lt.2 hpos⟩, toNat_pred hpos]
      omega
    · rw [if_neg hany] at hfew
      rw [if_neg fun hboth => hany hboth.1]
      omega

/-! ## Services -/

/-- The books get other quotas, and other indices that are as good. -/
theorem of_books {s' : State} (h : Kept r s g) (hincl : s.added ⊆ s'.added)
    (hsame : (s'.transport, s'.warnings, s'.content, s'.read, s'.parsed) =
      (s.transport, s.warnings, s.content, s.read, s.parsed))
    (hdata : (s'.books.dataUseCount, s'.books.previousDataIndex) =
      (s.books.dataUseCount, s.books.previousDataIndex))
    (hcounts : ∀ port, (s'.books.accounts port).messageUseCount =
        (s.books.accounts port).messageUseCount ∧
      (s'.books.accounts port).slotUseCount = (s.books.accounts port).slotUseCount)
    (hindex : ∀ port ∈ s'.added,
      Indexed s g (isDataOf port) (s'.books.accounts port).previousTxIndex) : Kept r s' g := by
  simp only [Prod.mk.injEq] at hsame hdata
  obtain ⟨htransport, hwarn, hcontent, hread, hparsed⟩ := hsame
  obtain ⟨huse, hprev⟩ := hdata
  have hindexed {p : UInt32 → Bool} {index : Int} (hindex : Indexed s g p index) :
      Indexed s' g p index := by
    refine ⟨hindex.lt, fun k hk hopen => ?_⟩
    rw [State.Open, htransport] at hopen
    rw [hcontent]
    exact hindex.current k hk hopen
  refine ⟨htransport ▸ h.stands, htransport ▸ h.sender, h.read.trans hread.symm,
    h.parsed.trans hparsed.symm, hcontent ▸ h.content, fun port hport => ?_,
    fun slot port hport => ?_, fun port hport => hindexed (hindex port hport), ?_,
    ⟨fun port => ?_, fun port => ?_, ?_, hwarn.trans h.exact.warnings⟩⟩
  · rw [State.sending, htransport] at hport
    exact hincl (h.sending port hport)
  · rw [hcontent] at hport
    exact hincl (h.added slot port hport)
  · rw [hprev]
    exact hindexed h.dataIndex
  · rw [(hcounts port).1, hcontent]
    exact h.exact.message port
  · rw [(hcounts port).2, hcontent]
    exact h.exact.slot port
  · rw [huse, hcontent]
    exact h.exact.data

/-- Where `local_tx_pos` is, in the slot that was taken last or at its end. -/
theorem exists_local (h : Kept r s g) (hlt : s.transmitted < 2 ^ 31) :
    ∃ n < 2 ^ 32, s.transport.localTxPos = .ofNat n ∧ n ≤ g.taken * 4096 ∧
      ∀ port, s.sending port = false → s.Open g (isDataOf port) → n < g.taken * 4096 := by
  have htx : g.tx < 2 ^ 31 := h.stands.written ▸ hlt
  have hle := h.stands.tx_le
  have hs := h.sender
  unfold SenderIn at hs
  unfold State.sending State.Open
  match hpc : s.transport.sender with
  | .idle | .waiting _ | .publishing _ =>
    rw [hpc] at hs
    exact ⟨g.tx, by omega, hs.1, hle, fun _ _ hopen => hopen⟩
  | .fault =>
    rw [hpc] at hs
    exact hs.elim
  | .filling m slot off =>
    rw [hpc] at hs
    obtain ⟨htaken, -, hoff, hfit, hlocal⟩ := hs
    have hstride := (Frame.message m).stride_le
    refine ⟨_, by omega, hlocal, by omega, fun port hport hopen => ?_⟩
    dsimp only at hport hopen
    rw [hport] at hopen
    exact hopen.resolve_right nofun

theorem addService (h : Kept r s g) (hlt : s.transmitted < 2 ^ 31) {port : Nat}
    (hnot : s.sending port = false) :
    Kept r { s with books := s.booksHere.addService port, added := port :: s.added } g := by
  have hother {q : Nat} (hq : q ≠ port) :
      (s.booksHere.addService port).accounts q = s.books.accounts q := Function.update_of_ne hq ..
  obtain ⟨n, hn, hlocal, hle, hopenLt⟩ := h.exists_local hlt
  have hprev : ((s.booksHere.addService port).accounts port).previousTxIndex =
      if (s.books.accounts port).slotUseCount = 0 then ((n / 4096 : Nat) : Int) - 1
      else (s.books.accounts port).previousTxIndex := by
    rw [← txIndex_ofNat hn, ← hlocal]
    simp only [Books.addService, Function.update_self]
    split
    · next hzero => exact (if_pos hzero).symm
    · next hused => exact (if_neg hused).symm
  refine h.of_books (List.subset_cons_self ..) rfl rfl (fun q => ?_) (fun q hq => ?_)
  · by_cases hq : q = port
    · subst hq
      simp only [Books.addService, Function.update_self]
      split
      · exact ⟨rfl, rfl⟩
      · exact ⟨rfl, rfl⟩
    · dsimp only
      rw [hother hq]
      exact ⟨rfl, rfl⟩
  · dsimp only at hq ⊢
    by_cases hport : q = port
    · subst hport
      rw [hprev]
      split
      · next hzero =>
        have hnone : r.slots.countP (fun x => (s.content x).any (isDataOf q)) = 0 := by
          rw [← h.exact.slot, hzero]
          rfl
        refine ⟨by omega, fun k hk hopen => ?_⟩
        have hlocalLt := hopenLt q hnot hopen
        have hmem := h.current_mem hk (h.lt_of_open hopen)
        exact iff_of_false (by omega) (List.countP_eq_zero.1 hnone _ hmem)
      · next hused =>
        -- its messages of before are still in slots
        have hpos : 0 < r.slots.countP (fun x => (s.content x).any (isDataOf q)) := by
          rw [← h.exact.slot, Nat.pos_iff_ne_zero]
          exact fun hzero => hused (UInt16.toNat_inj.1 hzero)
        obtain ⟨x, -, hany⟩ := List.countP_pos_iff.1 hpos
        exact h.index q (h.added x q hany)
    · rw [hother hport]
      exact h.index q ((List.mem_cons.1 hq).resolve_left hport)

theorem setQuota (h : Kept r s g) {port : Nat} {a : Account}
    (ha : a.messageUseCount = (s.books.accounts port).messageUseCount ∧
      a.slotUseCount = (s.books.accounts port).slotUseCount ∧
      a.previousTxIndex = (s.books.accounts port).previousTxIndex) :
    Kept r
      { s with
        books := { s.books with accounts := Function.update s.books.accounts port a } } g := by
  have haccount (q : Nat) : (Function.update s.books.accounts port a q).messageUseCount =
        (s.books.accounts q).messageUseCount ∧
      (Function.update s.books.accounts port a q).slotUseCount =
        (s.books.accounts q).slotUseCount ∧
      (Function.update s.books.accounts port a q).previousTxIndex =
        (s.books.accounts q).previousTxIndex := by
    by_cases hq : q = port
    · rw [hq, Function.update_self]
      exact ha
    · rw [Function.update_of_ne hq]
      exact ⟨rfl, rfl, rfl⟩
  refine h.of_books (List.Subset.refl _) rfl rfl
    (fun q => ⟨(haccount q).1, (haccount q).2.1⟩) fun q hq => ?_
  dsimp only
  rw [(haccount q).2.2]
  exact h.index q hq

/-! ## Runs -/

theorem sending_after {res : Reservation} {port : Nat}
    (h : State.sending { s with transport := { t with sender := .after m res } } port = true) :
    isDataOf port m.msgid = true := by
  cases res with
  | header | wait => exact h
  | null | fault => cases h

theorem queueMessage (h : Kept r s g) (isBlocking : Bool)
    (hm : ∀ port, isDataOf port m.msgid = true → port ∈ s.added) :
    ∃ g', Kept r (s.queueMessage m isBlocking) g' := by
  unfold State.queueMessage
  split
  · next hidle =>
    obtain ⟨g', hstands, hsender, hadv⟩ := h.stands.queueMessage h.sender hidle m isBlocking
    refine ⟨g', h.advance hstands hsender hadv (fun m slot off hpc => ?_) fun port hport => ?_⟩
    · rw [hidle] at hpc
      cases hpc
    · exact hm port (sending_after hport)
  · exact ⟨g, h⟩

theorem senderStep (h : Kept r s g) (hlt : s.transmitted < 2 ^ 31) :
    ∃ g', Kept r s.senderStep g' := by
  by_cases hfill : ∃ m slot off, s.transport.sender = .filling m slot off
  · obtain ⟨m, slot, off, hfill⟩ := hfill
    exact ⟨_, h.fill hlt hfill⟩
  have hother (m : Message) (slot off : Nat) : s.transport.sender ≠ .filling m slot off :=
    fun hpc => hfill ⟨m, slot, off, hpc⟩
  obtain ⟨g', hstands, hsender, hadv⟩ := h.stands.senderStep h.sender hother
  have hstep : s.senderStep = { s with transport := s.transport.senderStep } := by
    unfold State.senderStep
    split
    · next m slot off hpc => exact absurd hpc (hother m slot off)
    · rfl
  rw [hstep]
  refine ⟨g', h.advance hstands hsender hadv hother fun port hport => ?_⟩
  apply h.sending
  unfold State.sending
  match hpc : s.transport.sender with
  | .idle | .fault => simpa only [State.sending, Slots.State.senderStep, hpc] using hport
  | .filling m slot off => exact absurd hpc (hother m slot off)
  | .publishing m =>
    simp only [State.sending, Slots.State.senderStep, hpc] at hport
    cases hport
  | .waiting m =>
    dsimp only
    simp only [Slots.State.senderStep, hpc] at hport
    split at hport
    · simpa only [State.sending, hpc] using hport
    · exact sending_after hport

theorem step (h : Kept r s g) (hlt : s.transmitted < 2 ^ 31) (e : Event) :
    ∃ g', Kept r (s.step e) g' := by
  cases e with
  | addService port =>
    dsimp only [State.step]
    split
    · exact ⟨g, h⟩
    · next hnot => exact ⟨g, h.addService hlt (by simpa using hnot)⟩
  | setSlotQuota port value =>
    dsimp only [State.step]
    rw [Books.setSlotQuota]
    split
    · exact ⟨g, h.setQuota ⟨rfl, rfl, rfl⟩⟩
    · exact ⟨g, h⟩
  | setMessageQuota port value =>
    dsimp only [State.step]
    rw [Books.setMessageQuota]
    split
    · exact ⟨g, h.setQuota ⟨rfl, rfl, rfl⟩⟩
    · exact ⟨g, h⟩
  | data call isBlocking =>
    dsimp only [State.step]
    split
    · next hadded =>
      refine h.queueMessage isBlocking fun port hport => ?_
      rw [isDataOf, Bool.and_eq_true, decide_eq_true_eq] at hport
      have hsrc : msgSrcPort call.message.msgid = call.localport :=
        msgSrcPort_makeMsg call.localport_lt call.remoteport_lt
      rw [← hport.2, hsrc]
      exact List.contains_iff_mem.1 hadded
    · exact ⟨g, h⟩
  | control call isBlocking =>
    refine h.queueMessage isBlocking fun port hport => ?_
    rw [isDataOf, Bool.and_eq_true] at hport
    exact absurd (of_decide_eq_true hport.1) call.control
  | sender => exact h.senderStep hlt
  | recycle => exact h.processFreeQueue
  | parse => exact h.parse
  | giveBack slot data => exact h.giveBack slot data

end Kept

theorem Kept.init (r : SlotRange) (slotData : Nat → Block) :
    ∃ g, Kept r (State.init r slotData) g := by
  have hfits : r.count ≤ 64 := r.fits
  have hnil (slot : Nat) : (State.init r slotData).content slot = [] := rfl
  refine ⟨{ available := r.count, recycled := r.count, slotOf := fun k => r.slotFirst + k }, ?_⟩
  refine
    { stands :=
        { tx_le := Nat.zero_le _
          taken_le := Nat.zero_le _
          available_le := le_rfl
          txPos := ⟨0, rfl, by simp, le_rfl⟩
          slotQueueRecycle := rfl
          slotQueueAvailable := rfl
          slotAvailable := Nat.zero_add _
          entry := fun k _ hk => ?_
          places := ?_
          short := fun _ => Nat.zero_le _
          empty := fun _ _ _ => rfl
          full := fun slot hfull => ?_
          current := fun k hk => (by cases hk)
          txData := fun k hk => (by cases hk)
          written := rfl }
      sender := ⟨rfl, by dsimp only; omega⟩
      read := rfl
      parsed := rfl
      content := fun _ => rfl
      sending := fun port h => (by cases h)
      added := fun slot port h => (by cases h)
      index := fun port h => (by cases h)
      dataIndex := ⟨neg_one_lt_zero, fun k hk => (by cases hk)⟩
      exact := ⟨fun port => ?_, fun port => ?_, ?_, rfl⟩ }
  · change (if (UInt32.ofNat (k % 64)).toNat < r.count then
      r.slotFirst + (UInt32.ofNat (k % 64)).toNat else 0) = r.slotFirst + k
    dsimp only at hk
    have hnat : (UInt32.ofNat (k % 64)).toNat = k := by
      rw [UInt32.toNat_ofNat']
      omega
    rw [hnat, if_pos hk]
  · dsimp only
    rw [List.append_nil, Nat.sub_zero, List.map_add_range', Nat.add_zero]
    exact .refl _
  · dsimp only [Ring.Full] at hfull
    rcases hfull with hmem | ⟨k, -, ⟨-, hend⟩ | ⟨hback, hrec⟩⟩
    · cases hmem
    · omega
    · omega
  · simp only [hnil, List.countP_nil, List.map_const', List.sum_replicate, smul_zero]
    rfl
  · simp only [hnil, List.any_nil, List.countP_false]
    rfl
  · simp only [hnil, List.any_nil, List.countP_false]
    rfl

/-! What has been put into the stream stays. -/

theorem written_reserveSpace (s : Slots.State) (space : UInt32) (isBlocking : Bool) :
    s.written <+: (s.reserveSpace space isBlocking).1.written := by
  obtain ⟨padding, -, hwritten, -⟩ := s.padding_reserveSpace space isBlocking
  exact ⟨padding, hwritten.symm⟩

theorem written_senderStep (s : Slots.State) : s.written <+: s.senderStep.written := by
  unfold Slots.State.senderStep
  split
  · exact List.prefix_rfl
  · exact List.prefix_rfl
  · split
    · exact List.prefix_rfl
    · dsimp only
      rw [(Slots.State.output_eq.1 (Slots.State.output_takeSlot _ _ _)).1]
  · exact List.prefix_append ..
  · exact List.prefix_rfl

namespace State

theorem written_queueMessage (s : State) (m : Message) (isBlocking : Bool) :
    s.transport.written <+: (s.queueMessage m isBlocking).transport.written := by
  unfold State.queueMessage
  split
  · exact written_reserveSpace s.transport _ isBlocking
  · exact List.prefix_rfl

theorem written_step (s : State) (e : Event) :
    s.transport.written <+: (s.step e).transport.written := by
  cases e with
  | addService port =>
    dsimp only [step]
    split <;> exact List.prefix_rfl
  | setSlotQuota port value => exact List.prefix_rfl
  | setMessageQuota port value => exact List.prefix_rfl
  | data call isBlocking =>
    dsimp only [step]
    split
    · exact s.written_queueMessage _ isBlocking
    · exact List.prefix_rfl
  | control call isBlocking => exact s.written_queueMessage _ isBlocking
  | sender =>
    dsimp only [step, senderStep]
    split <;> exact written_senderStep s.transport
  | recycle =>
    dsimp only [step, processFreeQueue]
    split
    · exact List.prefix_rfl
    · split
      · exact List.prefix_rfl
      · dsimp only [Slots.State.processFreeQueue]
        split
        · exact List.prefix_rfl
        · split <;> exact List.prefix_rfl
  | parse =>
    dsimp only [step, parse]
    split <;> exact List.prefix_rfl
  | giveBack slot data =>
    dsimp only [step, giveBack]
    split <;> exact List.prefix_rfl

theorem transmitted_le_step (s : State) (e : Event) : s.transmitted ≤ (s.step e).transmitted := by
  obtain ⟨headers, hheaders⟩ := s.written_step e
  unfold transmitted
  rw [← hheaders, List.map_append, List.sum_append]
  exact Nat.le_add_right ..

/-- The invariant holds as long as the positions have not come near their end. -/
theorem kept_run (r : SlotRange) (slotData : Nat → Block) (es : List Event) :
    (∃ g, Kept r ((State.init r slotData).run es) g) ∨
      2 ^ 31 ≤ ((State.init r slotData).run es).transmitted := by
  refine Machine.run_invariant (I := fun s => (∃ g, Kept r s g) ∨ 2 ^ 31 ≤ s.transmitted)
    (fun s e h => ?_) es (.inl (Kept.init r slotData))
  rcases Nat.lt_or_ge s.transmitted (2 ^ 31) with hlt | hge
  · obtain ⟨g, h⟩ := h.resolve_right (Nat.not_le.2 hlt)
    exact .inl (h.step hlt e)
  · exact .inr (hge.trans (s.transmitted_le_step e))

/-- For every run that puts less than 2^31 bytes into the stream, from slots with any
contents. -/
theorem exact_of_transmitted_lt (r : SlotRange) (slotData : Nat → Block) (es : List Event)
    (hlt : ((State.init r slotData).run es).transmitted < 2 ^ 31) :
    Exact r ((State.init r slotData).run es) := by
  obtain ⟨g, h⟩ := (kept_run r slotData es).resolve_right (Nat.not_le.2 hlt)
  exact h.exact

/-- A port that is taken up again while a message of its last service is in a slot. -/
theorem exact_of_transmitted_lt_reused :
    let call : DataCall := ⟨5, 7, [[1, 2, 3]], by decide, by decide, by decide⟩
    let es := [.addService 5, .data call true, .sender, .sender, .addService 5, .data call true,
      .sender, .sender]
    let s := (State.init ⟨1, 2, by decide⟩ fun _ _ => 0).run es
    s.transmitted < 2 ^ 31 ∧ Exact ⟨1, 2, by decide⟩ s := by
  intro call es s
  have hlt : s.transmitted < 2 ^ 31 := by decide
  exact ⟨hlt, exact_of_transmitted_lt _ _ es hlt⟩

end State

end Turnover
