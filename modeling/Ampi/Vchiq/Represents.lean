-- SUMMARY: What the state of a slot transport means as a stream, and how each of its operations moves the stream.
import Ampi.Vchiq.Stream

/-!
# Representation

`Represents s g`: the shared memory, the ring of slots and the counters of `s` stand for
the stream `g`. The uses of slots are numbered along the stream. The uses
from `taken` to `recycled` wait in `slot_queue`; those below the receiver's position
are finished, and given back once nothing refers to them.
-/

namespace Slots

open Layout (total placed InBlocks)

/-- The headers of `slot` that services hold. -/
def State.heldIn (s : State) (slot : Nat) : Nat := s.held.countP (·.1 = slot)

/-- Where the slot handler stands in the stream. -/
def HandlerAt (s : State) (g : Stream) : Prop :=
  match s.handler with
  | .idle => g.rx = g.upTo g.parsed
  | .parsing txPos =>
    g.rx = g.upTo g.parsed ∧
      ∃ n, g.parsed ≤ n ∧ n ≤ g.published ∧ txPos = .ofNat (g.upTo n)
  | .skipping txPos size =>
    (∃ n, g.parsed ≤ n ∧ n ≤ g.published ∧ txPos = .ofNat (g.upTo n)) ∧
      ∃ n f, g.parsed = n + 1 ∧ g.frames[n]? = some f ∧ g.rx = g.upTo n ∧ size = f.size ∧
        s.rxData.isSome

structure Represents (s : State) (g : Stream) : Prop where
  inBlocks : InBlocks Frame.stride 4096 0 g.frames
  parsed_le : g.parsed ≤ g.published
  published_le : g.published ≤ g.frames.length
  tx_le : g.tx ≤ g.taken * 4096
  taken_le : g.taken ≤ g.available
  available_le : g.available ≤ g.recycled
  txPos : s.txPos = .ofNat (g.upTo g.published)
  rxPos : s.rxPos = .ofNat g.rx
  slotQueueRecycle : s.slotQueueRecycle = .ofNat g.recycled
  slotQueueAvailable : s.slotQueueAvailable = .ofNat g.available
  slotAvailable : g.taken + s.slotAvailable = g.available
  /-- Only finished uses have been given back. -/
  released_lt : ∀ k ∈ g.released, k < g.rx / 4096
  recycled_le : g.recycled ≤ g.released.card + 64
  /-- The ring holds the last 64 uses. -/
  entry : ∀ k < g.recycled, g.recycled ≤ k + 64 → s.slotQueue (.ofNat (k % 64)) = g.slotOf k
  /-- A slot has one use that has not been given back. -/
  distinct : ∀ i < g.recycled, ∀ j < g.recycled, i ∉ g.released → j ∉ g.released →
    g.slotOf i = g.slotOf j → i = j
  /-- The sizes of all frames stay until their slot is given back. -/
  size_at : ∀ x ∈ placed Frame.stride 0 g.frames, x.1 / 4096 ∉ g.released →
    (s.slotData (g.slotOf (x.1 / 4096))).loadWord (x.1 % 4096 + 4) = x.2.size
  unread : ∀ x ∈ placed Frame.stride (g.upTo g.parsed) (g.frames.drop g.parsed),
    x.2.ReadsAs (loadPacket (s.slotData (g.slotOf (x.1 / 4096))) (x.1 % 4096))
  freed : ∀ k, g.available ≤ k → k < g.recycled →
    walk (s.slotData (g.slotOf k)) walkFuel 0 = some slotSize
  held_at : ∀ h ∈ s.held, ∃ x ∈ placed Frame.stride 0 (g.frames.take g.parsed),
    x.1 / 4096 ∉ g.released ∧ h = (g.slotOf (x.1 / 4096), x.1 % 4096)
  finished : ∀ k < g.rx / 4096, k ∉ g.released → g.dropping ≠ some k →
    s.useCount (g.slotOf k) = s.releaseCount (g.slotOf k) + s.heldIn (g.slotOf k) ∧
      0 < s.heldIn (g.slotOf k)
  dropping : ∀ k, g.dropping = some k →
    k < g.rx / 4096 ∧ k ∉ g.released ∧
      s.useCount (g.slotOf k) = s.releaseCount (g.slotOf k) + s.heldIn (g.slotOf k) + 1
  entered : ∀ slot, s.rxData = some slot →
    slot = g.slotOf (g.rx / 4096) ∧ g.rx / 4096 < g.taken ∧
      s.useCount slot = s.releaseCount slot + s.heldIn slot + 1
  not_entered : s.rxData = none → g.rx % 4096 = 0
  handler : HandlerAt s g
  sent : s.sent = messages (g.frames.take g.published)
  written : s.written = (placed Frame.stride 0 g.frames).map fun x =>
    ⟨.ofNat x.1, x.2.msgid, x.2.size⟩
  seen : List.Forall₂ Frame.ReadsAs (g.frames.take g.parsed) s.seen

namespace Represents

variable {s : State} {g : Stream} {k : Nat} {x : Nat × Frame}

/-! ## Positions -/

theorem rx_le (h : Represents s g) : g.rx ≤ g.upTo g.parsed := by
  have hpc := h.handler
  unfold HandlerAt at hpc
  split at hpc
  · exact hpc.le
  · exact hpc.1.le
  · obtain ⟨-, n, f, hparsed, -, hrx, -, -⟩ := hpc
    rw [hparsed, hrx]
    exact g.upTo_mono (Nat.le_succ n)

/-- The receiver is at most a frame behind what it has handled. -/
theorem upTo_parsed_le (h : Represents s g) : g.upTo g.parsed ≤ g.rx + 4096 := by
  have hpc := h.handler
  unfold HandlerAt at hpc
  split at hpc
  · exact hpc.ge.trans (Nat.le_add_right _ _)
  · exact hpc.1.ge.trans (Nat.le_add_right _ _)
  · obtain ⟨-, n, f, hparsed, hf, hrx, -, -⟩ := hpc
    rw [hparsed, g.upTo_succ hf, hrx]
    exact Nat.add_le_add_left f.stride_le _

theorem dvd_rx (h : Represents s g) : 8 ∣ g.rx := by
  have hpc := h.handler
  unfold HandlerAt at hpc
  split at hpc
  · exact hpc ▸ g.dvd_upTo _
  · exact hpc.1 ▸ g.dvd_upTo _
  · obtain ⟨-, n, f, -, -, hrx, -, -⟩ := hpc
    exact hrx ▸ g.dvd_upTo n

theorem rx_le_tx (h : Represents s g) : g.rx ≤ g.tx :=
  h.rx_le.trans (g.upTo_le_tx _)

theorem finished_le (h : Represents s g) : g.rx / 4096 ≤ g.taken := by
  have := h.rx_le_tx
  have := h.tx_le
  omega

/-- Uses that the receiver has not finished are not given back. -/
theorem not_released (h : Represents s g) (hk : g.rx / 4096 ≤ k) : k ∉ g.released :=
  fun hmem => (h.released_lt k hmem).not_ge hk

theorem card_released_le (h : Represents s g) : g.released.card ≤ g.rx / 4096 := by
  have hsub : g.released ⊆ Finset.range (g.rx / 4096) :=
    fun k hk => Finset.mem_range.2 (h.released_lt k hk)
  simpa using Finset.card_le_card hsub

theorem recycled_le_add (h : Represents s g) : g.recycled ≤ g.rx / 4096 + 64 := by
  have := h.recycled_le
  have := h.card_released_le
  omega

/-- A frame lies in a slot that has been taken. -/
theorem slot_lt_taken (h : Represents s g) (hx : x ∈ placed Frame.stride 0 g.frames) :
    x.1 / 4096 < g.taken := by
  have hend := Layout.end_le_of_placed hx
  have := h.tx_le
  have := x.2.size_add_le_stride
  rw [Nat.zero_add] at hend
  change _ ≤ g.tx at hend
  omega

/-- The ring gives different slots to uses that have not been given back. -/
theorem slotOf_ne (h : Represents s g) {i j : Nat} (hi : i < g.recycled) (hj : j < g.recycled)
    (hilive : i ∉ g.released) (hjlive : j ∉ g.released) (hne : i ≠ j) :
    g.slotOf i ≠ g.slotOf j :=
  fun heq => hne (h.distinct i hi j hj hilive hjlive heq)

/-- No finished use has the slot that the receiver is at. -/
theorem slotOf_ne_current (h : Represents s g) (hlt : g.rx / 4096 < g.taken)
    (hk : k < g.rx / 4096) (hlive : k ∉ g.released) : g.slotOf k ≠ g.slotOf (g.rx / 4096) := by
  have := h.taken_le
  have := h.available_le
  exact h.slotOf_ne (by omega) (by omega) hlive (h.not_released le_rfl) hk.ne

/-- Services hold all the references that a finished use has left. -/
theorem counts_of_finished (h : Represents s g) (hnone : g.dropping = none) (hk : k < g.rx / 4096)
    (hlive : k ∉ g.released) :
    s.useCount (g.slotOf k) = s.releaseCount (g.slotOf k) + s.heldIn (g.slotOf k) ∧
      0 < s.heldIn (g.slotOf k) :=
  h.finished k hk hlive (by rw [hnone]; simp)

/-- The frames already handled are frames of the stream. -/
theorem mem_of_read {n : Nat} (hx : x ∈ placed Frame.stride 0 (g.frames.take n)) :
    x ∈ placed Frame.stride 0 g.frames := by
  rw [Layout.placed_take_or_drop n]
  exact .inl hx

/-- The frames not yet handled lie where the receiver stands or behind. -/
theorem mem_of_unread (hx : x ∈ placed Frame.stride (g.upTo g.parsed) (g.frames.drop g.parsed)) :
    x ∈ placed Frame.stride 0 g.frames := by
  rw [Layout.placed_take_or_drop g.parsed, Nat.zero_add]
  exact .inr hx

/-! ## Writing into a slot -/

/-- Replacing the contents of a slot in use, where the sizes of its frames stay and so
does all of its frames that are still to be read. -/
theorem write (h : Represents s g) {b : Block} (hk : k < g.available) (hlive : k ∉ g.released)
    (hsize : ∀ x ∈ placed Frame.stride 0 g.frames, x.1 / 4096 = k →
      b.loadWord (x.1 % 4096 + 4) = (s.slotData (g.slotOf k)).loadWord (x.1 % 4096 + 4))
    (hunread : ∀ x ∈ placed Frame.stride (g.upTo g.parsed) (g.frames.drop g.parsed),
      x.1 / 4096 = k →
        loadPacket b (x.1 % 4096) = loadPacket (s.slotData (g.slotOf k)) (x.1 % 4096)) :
    Represents { s with slotData := Function.update s.slotData (g.slotOf k) b } g := by
  have hother {j : Nat} (hj : j < g.recycled) (hjlive : j ∉ g.released) (hne : j ≠ k) :
      Function.update s.slotData (g.slotOf k) b (g.slotOf j) = s.slotData (g.slotOf j) := by
    have := h.available_le
    exact Function.update_of_ne (h.slotOf_ne hj (by omega) hjlive hlive hne) ..
  have hlt {x : Nat × Frame} (hx : x ∈ placed Frame.stride 0 g.frames) :
      x.1 / 4096 < g.recycled := by
    have := h.slot_lt_taken hx
    have := h.taken_le
    have := h.available_le
    omega
  refine { h with size_at := ?_, unread := ?_, freed := ?_ }
  · intro x hx hxlive
    dsimp only
    by_cases hxk : x.1 / 4096 = k
    · rw [hxk, Function.update_self, hsize x hx hxk, ← hxk]
      exact h.size_at x hx hxlive
    · rw [hother (hlt hx) hxlive hxk]
      exact h.size_at x hx hxlive
  · intro x hx
    dsimp only
    by_cases hxk : x.1 / 4096 = k
    · rw [hxk, Function.update_self, hunread x hx hxk, ← hxk]
      exact h.unread x hx
    · have hxlive : x.1 / 4096 ∉ g.released := by
        apply h.not_released
        have := Layout.le_of_placed hx
        have := h.rx_le
        omega
      rw [hother (hlt (mem_of_unread hx)) hxlive hxk]
      exact h.unread x hx
  · intro j hj hjr
    have hjlive : j ∉ g.released := by
      apply h.not_released
      have := h.finished_le
      have := h.taken_le
      omega
    dsimp only
    rw [hother hjr hjlive (by omega)]
    exact h.freed j hj hjr

/-! ## The sender -/

theorem handlerAt_push {f : Frame} {s' : State} (hs : s'.handler = s.handler ∧ s'.rxData = s.rxData)
    (hparsed : g.parsed ≤ g.published) (hpub : g.published ≤ g.frames.length) (h : HandlerAt s g) :
    HandlerAt s' (g.push f) := by
  have hupTo {n : Nat} (hn : n ≤ g.published) : (g.push f).upTo n = g.upTo n :=
    g.upTo_push (hn.trans hpub)
  unfold HandlerAt at h ⊢
  rw [hs.1]
  match hpc : s.handler with
  | .idle =>
    simp only [hpc] at h ⊢
    exact h.trans (hupTo hparsed).symm
  | .parsing txPos =>
    simp only [hpc] at h ⊢
    obtain ⟨hrx, n, hlo, hhi, htx⟩ := h
    exact ⟨hrx.trans (hupTo hparsed).symm, n, hlo, hhi, by rw [hupTo hhi, htx]⟩
  | .skipping txPos size =>
    simp only [hpc] at h ⊢
    obtain ⟨⟨n, hlo, hhi, htx⟩, i, f', hi, hf', hrx, hsize, hdata⟩ := h
    refine ⟨⟨n, hlo, hhi, by rw [hupTo hhi, htx]⟩, i, f', hi, ?_,
      hrx.trans (hupTo (by omega)).symm, hsize, by rwa [hs.2]⟩
    rw [← hf']
    exact List.getElem?_append_left (by omega)

/-- Writing another frame at the end of the stream, in the slot that was taken last. -/
theorem append (h : Represents s g) {f : Frame} {b : Block} (htaken : g.taken = g.tx / 4096 + 1)
    (hfit : g.tx % 4096 + f.stride ≤ 4096)
    (hkeep : ∀ i < g.tx % 4096, b i = s.slotData (g.slotOf (g.tx / 4096)) i)
    (hreads : f.ReadsAs (loadPacket b (g.tx % 4096))) :
    Represents
      { s with
        slotData := Function.update s.slotData (g.slotOf (g.tx / 4096)) b
        written := s.written ++ [⟨.ofNat g.tx, f.msgid, f.size⟩] }
      (g.push f) := by
  have hlive : g.tx / 4096 ∉ g.released := by
    apply h.not_released
    have := h.rx_le_tx
    omega
  -- the frames of the slot end where the new one starts
  have hbelow {x : Nat × Frame} (hx : x ∈ placed Frame.stride 0 g.frames)
      (hslot : x.1 / 4096 = g.tx / 4096) {i : Nat} (hi : i < x.1 % 4096 + x.2.stride) :
      b i = s.slotData (g.slotOf (g.tx / 4096)) i := by
    apply hkeep
    have hend : x.1 + x.2.stride ≤ 0 + g.tx := Layout.end_le_of_placed hx
    omega
  have hw := h.write (b := b) (k := g.tx / 4096) (by have := h.taken_le; omega) hlive
    (by
      intro x hx hslot
      have hstride := x.2.size_add_le_stride
      exact Block.loadWord_congr fun i hlo hhi => hbelow hx hslot (by omega))
    (by
      intro x hx hslot
      have hstride := x.2.size_add_le_stride
      have hsize := (h.unread x hx).size_eq
      rw [hslot] at hsize
      apply loadPacket_congr
      · intro i hlo hhi
        exact hbelow (mem_of_unread hx) hslot (by omega)
      · intro i hlo hhi
        apply hbelow (mem_of_unread hx) hslot
        change i < _ + 8 + (loadPacket _ _).size.toNat at hhi
        rw [hsize] at hhi
        omega)
  have hupTo {n : Nat} (hn : n ≤ g.published) : (g.push f).upTo n = g.upTo n :=
    g.upTo_push (hn.trans h.published_le)
  have htake {n : Nat} (hn : n ≤ g.published) : (g.push f).frames.take n = g.frames.take n :=
    g.take_push (hn.trans h.published_le)
  have hself : Function.update s.slotData (g.slotOf (g.tx / 4096)) b (g.slotOf (g.tx / 4096)) = b :=
    Function.update_self ..
  refine { hw with
    inBlocks := ?_, published_le := ?_, tx_le := ?_, txPos := ?_, size_at := ?_, unread := ?_,
    held_at := ?_, handler := ?_, sent := ?_, written := ?_, seen := ?_ }
  · intro x hx
    rw [Stream.placed_push, List.mem_append, List.mem_singleton, Nat.zero_add] at hx
    rcases hx with hx | rfl
    · exact h.inBlocks x hx
    · exact hfit
  · exact h.published_le.trans (by simp [Stream.push])
  · rw [Stream.tx_push]
    change _ ≤ g.taken * 4096
    omega
  · exact h.txPos.trans (congrArg UInt32.ofNat (hupTo le_rfl).symm)
  · intro x hx hxlive
    rw [Stream.placed_push, List.mem_append, List.mem_singleton, Nat.zero_add] at hx
    rcases hx with hx | rfl
    · exact hw.size_at x hx hxlive
    · change (Function.update s.slotData (g.slotOf (g.tx / 4096)) b
        (g.slotOf (g.tx / 4096))).loadWord (g.tx % 4096 + 4) = f.size
      rw [hself]
      exact hreads.size_eq
  · intro x hx
    have hparsed : g.parsed ≤ g.frames.length := h.parsed_le.trans h.published_le
    change x ∈ placed Frame.stride ((g.push f).upTo g.parsed)
      ((g.frames ++ [f]).drop g.parsed) at hx
    rw [hupTo h.parsed_le, List.drop_append_of_le_length hparsed, Layout.placed_append,
      List.mem_append, Stream.upTo, Layout.total_take_add_drop] at hx
    rcases hx with hx | hx
    · exact hw.unread x hx
    · obtain rfl := List.mem_singleton.1 hx
      change f.ReadsAs (loadPacket (Function.update s.slotData (g.slotOf (g.tx / 4096)) b
        (g.slotOf (g.tx / 4096))) (g.tx % 4096))
      rw [hself]
      exact hreads
  · change ∀ y ∈ s.held, ∃ x ∈ placed Frame.stride 0 ((g.push f).frames.take g.parsed), _
    rw [htake h.parsed_le]
    exact h.held_at
  · exact handlerAt_push ⟨rfl, rfl⟩ h.parsed_le h.published_le h.handler
  · exact h.sent.trans (congrArg messages (htake le_rfl).symm)
  · rw [Stream.placed_push, List.map_append, ← h.written, Nat.zero_add]
    rfl
  · change List.Forall₂ Frame.ReadsAs ((g.push f).frames.take g.parsed) s.seen
    rw [htake h.parsed_le]
    exact h.seen

theorem messages_pending (h : Represents s g) :
    messages g.frames = s.sent ++ messages (g.frames.drop g.published) := by
  rw [h.sent, ← messages_append, List.take_append_drop]

/-- Showing the receiver all that has been written. -/
theorem publish (h : Represents s g) {sent : List Message} (hsent : sent = messages g.frames) :
    Represents { s with txPos := .ofNat g.tx, sent } { g with published := g.frames.length } := by
  have hle := h.published_le
  refine { h with
    parsed_le := h.parsed_le.trans hle, published_le := le_rfl, txPos := ?_, handler := ?_,
    sent := ?_ }
  · exact congrArg UInt32.ofNat g.upTo_length.symm
  · have hpc := h.handler
    unfold HandlerAt at hpc ⊢
    dsimp only
    match s.handler, hpc with
    | .idle, hrx => exact hrx
    | .parsing txPos, ⟨hrx, n, hlo, hhi, htx⟩ => exact ⟨hrx, n, hlo, hhi.trans hle, htx⟩
    | .skipping txPos size, ⟨⟨n, hlo, hhi, htx⟩, hskip⟩ =>
      exact ⟨⟨n, hlo, hhi.trans hle, htx⟩, hskip⟩
  · rw [List.take_length]
    exact hsent

/-- The next use that the sender takes is in the ring. -/
theorem slotQueue_taken (h : Represents s g) (hfree : 0 < s.slotAvailable) :
    s.slotQueue (.ofNat (g.taken % 64)) = g.slotOf g.taken := by
  have := h.slotAvailable
  have := h.available_le
  have := h.recycled_le_add
  have := h.finished_le
  exact h.entry g.taken (by omega) (by omega)

/-- The assertion of `reserve_space` holds, also when the positions have wrapped. -/
theorem not_bug (h : Represents s g) (hfree : 0 < s.slotAvailable) :
    UInt32.ofNat (g.taken * 4096) ≠ s.slotQueueAvailable * slotSize := by
  have := h.slotAvailable
  have := h.available_le
  have := h.recycled_le_add
  have := h.finished_le
  have hmul : s.slotQueueAvailable * slotSize = .ofNat (g.available * 4096) := by
    have hsize : slotSize = .ofNat 4096 := rfl
    rw [h.slotQueueAvailable, hsize, UInt32.ofNat_mul]
  rw [hmul]
  intro heq
  have := (ofNat_eq_ofNat (by omega) (by omega)).1 heq
  omega

theorem take (h : Represents s g) (hfree : 0 < s.slotAvailable) :
    Represents { s with slotAvailable := s.slotAvailable - 1 } { g with taken := g.taken + 1 } := by
  have hcount := h.slotAvailable
  refine { h with tx_le := ?_, taken_le := ?_, slotAvailable := ?_, entered := ?_ }
  · exact h.tx_le.trans (Nat.mul_le_mul_right 4096 (Nat.le_succ g.taken))
  · change g.taken + 1 ≤ g.available
    omega
  · change g.taken + 1 + (s.slotAvailable - 1) = g.available
    omega
  · intro slot hslot
    obtain ⟨hslot, hlt, hcounts⟩ := h.entered slot hslot
    exact ⟨hslot, Nat.lt_succ_of_lt hlt, hcounts⟩

end Represents

end Slots
