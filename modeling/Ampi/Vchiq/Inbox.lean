-- SUMMARY: The way of a message from its slot through the queue of its service to vchi_msg_dequeue.
import Ampi.Vchiq.Framing
import Ampi.Vchiq.Retrying

/-!
# Receiving a message

`shim_callback` puts the headers of a service into its queue, and `vchi_msg_dequeue` copies the
data from the slot when it takes one out. The sender goes on meanwhile, and gets slots back and
writes into them.
-/

namespace Slots

open Layout (placed)

variable {r : SlotRange} {s s' : State} {g g' : Stream} {x y : Nat × Frame} {k : Nat}

/-! ## The data in the slots -/

/-- The data of a message that has been read is in its slot. -/
def Stored (s : State) (g : Stream) : Prop :=
  ∀ x ∈ placed Frame.stride 0 (g.frames.take g.parsed), g.Current (x.1 / 4096) →
    ∀ m, x.2 = .message m →
      (s.slotData (g.headerOf x).1).load ((g.headerOf x).2 + 8) m.size.toNat = m.elements.flatten

theorem load_update {slotData : Nat → Block} {slot slot' off n : Nat} {b : Block}
    (h : slot' = slot → b.load off n = (slotData slot).load off n) :
    (Function.update slotData slot b slot').load off n = (slotData slot').load off n := by
  by_cases heq : slot' = slot
  · rw [heq, Function.update_self, h heq]
  · rw [Function.update_of_ne heq]

namespace Represents

/-- Writing the `msgid` of a header changes no data. -/
theorem load_writeMsgid (h : Represents s g) {w : UInt32}
    (hx : x ∈ placed Frame.stride 0 g.frames) (hxk : g.Current (x.1 / 4096))
    (hy : y ∈ placed Frame.stride 0 g.frames) (hyk : g.Current (y.1 / 4096)) :
    (Function.update s.slotData (g.headerOf x).1
        ((s.slotData (g.headerOf x).1).storeWord (g.headerOf x).2 w)
        (g.headerOf y).1).load ((g.headerOf y).2 + 8) y.2.size.toNat =
      (s.slotData (g.headerOf y).1).load ((g.headerOf y).2 + 8) y.2.size.toNat := by
  apply load_update
  intro hslot
  have hxsize := x.2.size_add_le_stride
  have hysize := y.2.size_add_le_stride
  apply Block.load_congr
  intro i hlo hhi
  apply Block.storeWord_of_disjoint
  change y.1 % 4096 + 8 ≤ i at hlo
  change i < y.1 % 4096 + 8 + y.2.size.toNat at hhi
  change i < x.1 % 4096 ∨ x.1 % 4096 + 4 ≤ i
  rcases h.apart hx hxk hy hyk hslot.symm with rfl | hlt | hlt
  · omega
  · omega
  · omega

/-- The frame that the receiver is at, with its data as it was sent. -/
theorem next_data (h : Represents s g) {m : Message}
    (hf : g.frames[g.parsed]? = some (.message m)) (hrx : g.rx = g.upTo g.parsed) :
    (s.slotData (g.slotOf (g.rx / 4096))).load (g.rx % 4096 + 8) m.size.toNat =
      m.elements.flatten := by
  have hreads : (Frame.message m).ReadsAs
      (loadPacket (s.slotData (g.slotOf (g.rx / 4096))) (g.rx % 4096)) := by
    rw [hrx]
    apply h.unread (g.upTo g.parsed, .message m)
    rw [List.drop_eq_getElem?_toList_append, hf]
    exact List.mem_cons_self
  have hsize : (s.slotData (g.slotOf (g.rx / 4096))).loadWord (g.rx % 4096 + 4) = m.size :=
    hreads.size_eq
  have hdata := congrArg Packet.data (show loadPacket _ _ = m.packet from hreads)
  dsimp only [loadPacket, Message.packet] at hdata
  rwa [hsize] at hdata

end Represents

namespace Stored

theorem congr (h : Stored s g) (hdata : s'.slotData = s.slotData) : Stored s' g := by
  unfold Stored
  rw [hdata]
  exact h

theorem of_core (h : Stored s g) (hcore : s'.core = s.core) : Stored s' g :=
  h.congr (State.core_eq.1 hcore).1

/-- The uses that there are keep their slots. -/
theorem dropReference (h : Stored s g) (hle : g.available ≤ g.recycled)
    (hlt : ∀ x ∈ placed Frame.stride 0 (g.frames.take g.parsed), x.1 / 4096 < g.recycled) :
    Stored s (g.dropReference s' k) := by
  unfold Stream.dropReference
  split
  · have hslot {j : Nat} (hj : j < g.recycled) : (g.giveBack k).slotOf j = g.slotOf j :=
      Function.update_of_ne hj.ne ..
    intro x hx hxk m hm
    have hheader : (g.giveBack k).headerOf x = g.headerOf x := by
      rw [Stream.headerOf, hslot (hlt x hx), Stream.headerOf]
    have hcur : g.Current (x.1 / 4096) := by
      intro j hkj hj
      rw [← hslot (hj.trans_le hle), ← hslot (hlt x hx)]
      exact hxk j hkj hj
    rw [hheader]
    exact h x hx hcur m hm
  · exact h

theorem append (h : Stored s g) (hr : Represents s g) {f : Frame} {b : Block}
    (htaken : g.taken = g.tx / 4096 + 1)
    (hkeep : ∀ i < g.tx % 4096, b i = s.slotData (g.slotOf (g.tx / 4096)) i)
    (hcore : s'.core = (Function.update s.slotData (g.slotOf (g.tx / 4096)) b, s.core.2)) :
    Stored s' (g.push f) := by
  obtain ⟨hdata, -⟩ := State.core_eq.1 hcore
  have htake := g.take_push (f := f) (hr.parsed_le.trans hr.published_le)
  change ∀ x ∈ placed Frame.stride 0 ((g.push f).frames.take g.parsed), g.Current _ → _
  rw [htake]
  intro x hx hxk m hm
  refine Eq.trans ?_ (h x hx hxk m hm)
  rw [hdata]
  apply load_update
  intro hslot
  have hend := hr.end_le_tx htaken hx hxk hslot
  have hsize := x.2.size_add_le_stride
  rw [hm] at hend hsize
  change m.size.toNat + 8 ≤ _ at hsize
  exact Block.load_congr fun i hlo hhi => hkeep i (by
    change i < x.1 % 4096 + 8 + m.size.toNat at hhi
    omega)

theorem see (h : Stored s g) (hr : Represents s g) {f : Frame}
    (hf : g.frames[g.parsed]? = some f) (hrx : g.rx = g.upTo g.parsed) :
    Stored s { g with parsed := g.parsed + 1 } := by
  intro x hx hxk m hm
  rcases Marked.mem_take_succ hf hrx hx with hx | rfl
  · exact h x hx hxk m hm
  · obtain rfl : f = .message m := hm
    exact hr.next_data hf hrx

/-- A write to the `msgid` of a header changes none of it. -/
theorem writeMsgid {n : Nat} (h : Stored s { g with parsed := n }) (hr : Represents s g)
    {w : UInt32} (hx : x ∈ placed Frame.stride 0 g.frames) (hxk : g.Current (x.1 / 4096))
    (hdata : s'.slotData = Function.update s.slotData (g.headerOf x).1
      ((s.slotData (g.headerOf x).1).storeWord (g.headerOf x).2 w)) :
    Stored s' { g with parsed := n } := by
  intro y hy hyk m hm
  have hsame := hr.load_writeMsgid (w := w) hx hxk (Represents.mem_of_read hy) hyk
  have hsize : y.2.size = m.size := by rw [hm]; rfl
  rw [hsize] at hsame
  rw [hdata]
  exact hsame.trans (h y hy hyk m hm)

theorem move (h : Stored s g) (hr : Represents s g) (hg : g.Conserved r)
    (hm : Move s g s' g') : Stored s' g' := by
  have htaken := hr.taken_le
  have havail := hr.available_le
  have hlt (x : Nat × Frame) (hx : x ∈ placed Frame.stride 0 (g.frames.take g.parsed)) :
      x.1 / 4096 < g.recycled := by
    have := hr.slot_lt_taken (Represents.mem_of_read hx)
    omega
  cases hm with
  | stay hcore => exact h.of_core hcore
  | append htk hkeep hcore => exact h.append hr htk hkeep hcore
  | publish hcore | take hcore | advance _ hcore => exact h.of_core hcore
  | free hcore =>
    intro x hx hxk m hm
    exact h.of_core hcore x hx (fun j hkj hj => hxk j hkj (Nat.lt_succ_of_lt hj)) m hm
  | enter _ _ hcore => exact h.congr (State.core_eq.1 hcore).1
  | see hf hrx hcore => exact (h.see hr hf hrx).of_core hcore
  | @deliver f hf hrx hentered _ hcore =>
    obtain ⟨hdata, -⟩ := State.core_eq.1 hcore
    obtain ⟨-, hslot, -⟩ := hr.entered _ hentered
    have hcur : g.Current (g.rx / 4096) :=
      hr.current_of_live hg (by omega) (hr.not_released le_rfl)
    have hmem := Represents.mem_of_read (hr.next hf hrx).1
    exact (h.see hr hf hrx).writeMsgid hr hmem hcur hdata
  | leave hentered hend hcore =>
    have h' : Stored s' { g with rx := g.upTo g.parsed } := h.congr (State.core_eq.1 hcore).1
    exact h'.dropReference havail hlt
  | release hx hlive hmem hcore =>
    obtain ⟨hdata, -⟩ := State.core_eq.1 hcore
    have hx' := Represents.mem_of_read hx
    have hxt := hr.slot_lt_taken hx'
    have hcur := hr.current_of_live hg (by omega) hlive
    have h' : Stored s' g := writeMsgid h hr hx' hcur hdata
    exact h'.dropReference havail hlt

theorem init (r : SlotRange) (slotData : Nat → Block) : Stored (.init r slotData) (.init r) := by
  intro x hx
  cases hx

end Stored

/-! ## Headers that are waiting -/

/-- The frames that have been read and have the `msgid`. -/
def Stream.ours (g : Stream) (msgid : UInt32) : List (Nat × Frame) :=
  (placed Frame.stride 0 (g.frames.take g.parsed)).filter (·.2.msgid = msgid)

/-- What is known of the transport. -/
structure Base (r : SlotRange) (s : State) (g : Stream) : Prop where
  none : g.dropping = none
  represents : Represents s g
  senderAt : SenderAt s g
  conserved : g.Conserved r
  marked : Marked s g
  stored : Stored s g

namespace Represents

/-- A use is current as long as a service holds a header in its slot. -/
theorem current_follows (h : Represents s g) (h' : Represents s' g') (hg' : g'.Conserved r)
    (hext : g.Extends g') (hnear : g.Near g') {off : Nat} (hk : k < g.taken)
    (hcur : g.Current k) (hheld : (g.slotOf k, off) ∈ s'.held) : g'.Current k := by
  have htaken := h.taken_le
  have havail := h.available_le
  intro j hkj hj
  rw [hext.slotOf k (by omega)]
  rcases Nat.lt_or_ge j g.available with hlt | hge
  · rw [hext.slotOf j (by omega)]
    exact hcur j hkj hlt
  · -- the sender has just got the slot back
    obtain ⟨y, hy, heq⟩ := h'.legible_of_held hg' hheld
    obtain ⟨hslot, -⟩ := Prod.mk.inj heq
    have hyt := h'.slot_lt_taken (mem_of_read hy.read)
    have hyavail := hnear.taken
    rw [hslot]
    exact hy.current j (by omega) hj

end Represents

namespace Base

theorem init (r : SlotRange) (slotData : Nat → Block) : Base r (.init r slotData) (.init r) :=
  ⟨rfl, State.represents_init r slotData, State.senderAt_init r slotData, .init r,
    .init r slotData, .init r slotData⟩

theorem follows (h : Base r s g) (hfollows : Follows s g s') :
    ∃ g', Base r s' g' ∧ g.Extends g' ∧ g.Near g' := by
  obtain ⟨g', hnone, hr, hs, hnear, hmoves⟩ := hfollows
  obtain ⟨hconserved, hmarked, hstored, hext⟩ := Moves.keep
    (I := fun s' g' => g'.Conserved r ∧ Marked s' g' ∧ Stored s' g' ∧ g.Extends g')
    (fun hr _ hm h => ⟨h.1.move hr hm, h.2.1.move hr h.1 hm, h.2.2.1.move hr h.1 hm,
      h.2.2.2.trans (.move hr hm)⟩)
    hmoves ⟨h.conserved, h.marked, h.stored, .refl g⟩
  exact ⟨g', ⟨hnone, hr, hs, hconserved, hmarked, hstored⟩, hext, hnear⟩

/-- A frame that has been read stays legible as long as its header is held. -/
theorem legible (h : Base r s g) (h' : Base r s' g') (hext : g.Extends g') (hnear : g.Near g')
    (hx : g.Legible x) (hheld : g.headerOf x ∈ s'.held) :
    g'.Legible x ∧ g'.headerOf x = g.headerOf x := by
  have hxt := h.represents.slot_lt_taken (Represents.mem_of_read hx.read)
  refine ⟨⟨?_, h.represents.current_follows h'.represents h'.conserved hext hnear hxt hx.current
    hheld⟩, h.represents.headerOf_extends hext hx⟩
  obtain ⟨frames, hframes⟩ := hext.parsed
  rw [← hframes, Layout.placed_append]
  exact List.mem_append_left _ hx.read

/-- What is in the slot of a message that can be read. -/
theorem loadPacket_data (h : Base r s g) (hx : g.Legible x) {m : Message}
    (hm : x.2 = .message m) :
    (loadPacket (s.slotData (g.headerOf x).1) (g.headerOf x).2).data = m.elements.flatten ∧
      (loadPacket (s.slotData (g.headerOf x).1) (g.headerOf x).2).size = m.size := by
  have hsize := h.marked.size x hx.read hx.current
  rw [hm] at hsize
  change _ = m.size at hsize
  refine ⟨?_, hsize⟩
  dsimp only [loadPacket]
  rw [hsize]
  exact h.stored x hx.read hx.current m hm

theorem ours_same (h : Base r s g) (h' : Base r s' g') (hext : g.Extends g')
    (hseen : s'.seen = s.seen) (msgid : UInt32) : g'.ours msgid = g.ours msgid := by
  have hlength := h'.represents.seen.length_eq
  rw [hseen, ← h.represents.seen.length_eq] at hlength
  rw [Stream.ours, ← hext.parsed.eq_of_length hlength.symm, Stream.ours]

/-- One more message has been read. -/
theorem ours_next (h : Base r s g) (h' : Base r s' g') (hext : g.Extends g') {p : Packet}
    (hseen : s'.seen = s.seen ++ [p]) (msgid : UInt32) :
    ∃ f : Frame, f.ReadsAs p ∧
      (g.upTo g.parsed, f) ∈ placed Frame.stride 0 (g'.frames.take g'.parsed) ∧
      g'.ours msgid =
        g.ours msgid ++ if p.msgid = msgid then [(g.upTo g.parsed, f)] else [] := by
  obtain ⟨frames, hframes⟩ := hext.parsed
  have hreads := h'.represents.seen
  rw [hseen, ← hframes] at hreads
  have hlast := List.forall₂_drop s.seen.length hreads
  rw [List.drop_left, List.drop_left' h.represents.seen.length_eq] at hlast
  obtain ⟨f, rest, hf, hrest, rfl⟩ := List.forall₂_cons_right_iff.1 hlast
  obtain rfl := List.forall₂_nil_right_iff.1 hrest
  have hplaced : placed Frame.stride 0 (g'.frames.take g'.parsed) =
      placed Frame.stride 0 (g.frames.take g.parsed) ++ [(g.upTo g.parsed, f)] := by
    rw [← hframes, Layout.placed_append, Nat.zero_add]
    rfl
  refine ⟨f, hf, ?_, ?_⟩
  · rw [hplaced]
    exact List.mem_append_right _ List.mem_cons_self
  · rw [Stream.ours, hplaced, List.filter_append, List.filter_cons, List.filter_nil, Stream.ours,
      hf.msgid_eq]
    simp only [decide_eq_true_eq]

end Base

/-! ## What is seen and held -/

namespace State

/-- What the receiver has handled, and what services hold. -/
def reading (s : State) : List Packet × List (Nat × Nat) := (s.seen, s.held)

/-- What the sender leaves to the slot handler and the recycle thread. -/
def received (s : State) :
    List Packet × List (Nat × Nat) × UInt32 × HandlerPc × UInt32 × UInt32 :=
  (s.seen, s.held, s.rxPos, s.handler, s.slotQueueRecycle, s.slotQueueAvailable)

theorem reading_of_received {s s' : State} (h : s'.received = s.received) :
    s'.reading = s.reading := by
  obtain ⟨hseen, hrest⟩ := Prod.mk.inj h
  obtain ⟨hheld, -⟩ := Prod.mk.inj hrest
  rw [reading, reading, hseen, hheld]

theorem received_reserveAt (s : State) (txPos space : UInt32) :
    (s.reserveAt txPos space).1.received = s.received := by
  unfold reserveAt
  split <;> rfl

theorem received_takeSlot (s : State) (txPos space : UInt32) :
    (s.takeSlot txPos space).1.received = s.received := by
  unfold takeSlot
  split
  · rfl
  · exact received_reserveAt _ txPos space

theorem received_reserveBehind (s : State) (txPos space : UInt32) (isBlocking : Bool) :
    (s.reserveBehind txPos space isBlocking).1.received = s.received := by
  unfold reserveBehind
  split
  · split
    · rfl
    · exact received_takeSlot _ txPos space
  · exact received_reserveAt s txPos space

theorem received_queueMessage (s : State) (m : Message) (isBlocking : Bool) :
    (s.queueMessage m isBlocking).received = s.received := by
  change (s.reserveSpace (calcStride m.size) isBlocking).1.received = s.received
  unfold reserveSpace
  dsimp only
  split
  · split
    · rfl
    · exact received_reserveBehind _ _ _ isBlocking
  · exact received_reserveBehind s _ _ isBlocking

theorem received_senderStep (s : State) : s.senderStep.received = s.received := by
  unfold senderStep
  split
  · rfl
  · rfl
  · split
    · rfl
    · exact received_takeSlot _ _ _
  · rfl
  · rfl

/-- A step of the sender. -/
theorem received_sender (s : State) {e : Event}
    (he : e = .sender ∨ ∃ m isBlocking, e = .send m isBlocking) :
    (s.step e).received = s.received := by
  obtain rfl | ⟨m, isBlocking, rfl⟩ := he
  · exact received_senderStep s
  · dsimp only [step]
    split
    · exact received_queueMessage s m isBlocking
    · rfl

theorem reading_processFreeQueue (s : State) : s.processFreeQueue.reading = s.reading := by
  unfold processFreeQueue
  split
  · rfl
  · dsimp only
    split <;> rfl

theorem reading_dropReference (s : State) (slot : Nat) :
    (s.dropReference slot).reading = s.reading := by
  unfold dropReference
  dsimp only
  split <;> rfl

theorem reading_skipMessage (s : State) (txPos size : UInt32) :
    (s.skipMessage txPos size).reading = s.reading := by
  unfold skipMessage
  dsimp only
  split
  · split
    · rfl
    · exact reading_dropReference _ _
  · rfl

theorem reading_enterSlot (s : State) : s.enterSlot.1.reading = s.reading := by
  unfold enterSlot
  split <;> rfl

/-- A header that is given back is held no more; the others are. -/
theorem reading_releaseHeader (s : State) (slot off : Nat) (closing : Bool) :
    (s.releaseHeader slot off closing).seen = s.seen ∧
      ∀ a ∈ s.held, a ≠ (slot, off) → a ∈ (s.releaseHeader slot off closing).held := by
  unfold releaseHeader
  dsimp only
  split
  · exact ⟨rfl, fun a ha _ => ha⟩
  · obtain ⟨hseen, hheld⟩ := Prod.mk.inj (reading_dropReference _ slot)
    exact ⟨hseen, fun a ha hne => hheld ▸ (List.mem_erase_of_ne hne).2 ha⟩

/-- The slot handler is about to take up a message that has this `msgid`. -/
def nextIsFor (s : State) (msgid : UInt32) : Bool :=
  match s.handler with
  | .parsing txPos => s.rxPos ≠ txPos ∧ s.nextPacket.msgid = msgid
  | _ => false

/-- The messages that have been sent with this `msgid`. -/
def sentPayloads (s : State) (msgid : UInt32) : List (List UInt8) :=
  (s.sent.filter (·.msgid = msgid)).map (·.elements.flatten)

/-- Those that have been seen on the other side. -/
def seenPayloads (s : State) (msgid : UInt32) : List (List UInt8) :=
  (s.seen.filter (·.msgid = msgid)).map (·.data)

/-- What the slot handler does with the next message: it handles it, and may claim it, or
puts it off. -/
theorem reading_parseMessage (s : State) (txPos : UInt32) (r : Reception) :
    (s.parseMessage txPos r).reading = s.reading ∧ r.admitted s.nextPacket.msgid = .retry ∨
      (s.parseMessage txPos r).seen = s.seen ++ [s.nextPacket] ∧
        (s.parseMessage txPos r).held =
          (if r.admitted s.nextPacket.msgid = .claim then [s.nextHeader] else []) ++ s.held := by
  have hpos : s.enterSlot.1.rxPos = s.rxPos := (enterSlot_fields s).2.1
  have hpacket : s.nextPacket = loadPacket (s.enterSlot.1.slotData s.enterSlot.2)
      (s.enterSlot.1.rxPos &&& slotMask).toNat := by
    rw [nextPacket, nextHeader, hpos]
  have hheader : s.nextHeader = (s.enterSlot.2, (s.enterSlot.1.rxPos &&& slotMask).toNat) := by
    rw [nextHeader, hpos]
  have hreading := reading_enterSlot s
  rw [hpacket, hheader]
  unfold parseMessage
  generalize s.enterSlot = entered at hreading ⊢
  obtain ⟨s1, slot⟩ := entered
  obtain ⟨hseen, hheld⟩ := Prod.mk.inj hreading
  dsimp only at hseen hheld ⊢
  split
  · next hr =>
    rw [hr, hseen, hheld]
    exact .inr ⟨rfl, rfl⟩
  · next hr =>
    rw [hr, hseen, hheld]
    exact .inr ⟨rfl, rfl⟩
  · next hr => exact .inl ⟨hreading, hr⟩

/-- The step in which the message with this `msgid` is claimed. -/
theorem claim_next {msgid : UInt32} (htype : msgType msgid = msgData) (hnext : s.nextIsFor msgid) :
    ∃ txPos, s.handler = .parsing txPos ∧ s.rxPos ≠ txPos ∧ s.nextPacket.msgid = msgid ∧
      (s.step (.handler .claim)).seen = s.seen ++ [s.nextPacket] ∧
      (s.step (.handler .claim)).held = s.nextHeader :: s.held := by
  unfold nextIsFor at hnext
  split at hnext
  case h_2 => cases hnext
  case h_1 txPos hpc =>
  obtain ⟨hne, hmsgid⟩ := of_decide_eq_true hnext
  have hadmitted : Reception.claim.admitted s.nextPacket.msgid = .claim := by
    rw [hmsgid]
    exact if_pos htype
  have hstep : s.step (.handler .claim) = s.parseMessage txPos .claim := by
    change s.handlerStep .claim = _
    unfold handlerStep
    rw [hpc]
    exact if_neg hne
  obtain ⟨-, hretry⟩ | ⟨hseen, hheld⟩ := s.reading_parseMessage txPos .claim
  · rw [hadmitted] at hretry
    cases hretry
  · rw [hadmitted, if_pos rfl] at hheld
    rw [hstep]
    exact ⟨txPos, hpc, hne, hmsgid, hseen, hheld⟩

/-- A step that takes up no message with this `msgid`. -/
theorem handlerStep_elsewhere {msgid : UInt32} (hnext : ¬ s.nextIsFor msgid) (r : Reception) :
    ((s.handlerStep r).seen = s.seen ∨
      ∃ p, (s.handlerStep r).seen = s.seen ++ [p] ∧ p.msgid ≠ msgid) ∧
      ∀ a ∈ s.held, a ∈ (s.handlerStep r).held := by
  unfold nextIsFor at hnext
  unfold handlerStep
  split
  · exact ⟨.inl rfl, fun a ha => ha⟩
  · next txPos hpc =>
    split
    · exact ⟨.inl rfl, fun a ha => ha⟩
    · next hne =>
      obtain ⟨hreading, -⟩ | ⟨hseen, hheld⟩ := s.reading_parseMessage txPos r
      · obtain ⟨hseen, hheld⟩ := Prod.mk.inj hreading
        exact ⟨.inl hseen, fun a ha => hheld ▸ ha⟩
      · refine ⟨.inr ⟨s.nextPacket, hseen, fun hmsgid => ?_⟩, fun a ha => ?_⟩
        · rw [hpc] at hnext
          exact hnext (decide_eq_true ⟨hne, hmsgid⟩)
        · rw [hheld]
          exact List.mem_append_right _ ha
  · next txPos size hpc =>
    obtain ⟨hseen, hheld⟩ := Prod.mk.inj (s.reading_skipMessage txPos size)
    exact ⟨.inl hseen, fun a ha => hheld ▸ ha⟩

end State

theorem filter_interleaved {msgid : UInt32} (htype : msgType msgid ≠ msgPadding)
    {seen sent : List Packet} (h : Interleaved seen sent) :
    seen.filter (·.msgid = msgid) = sent.filter (·.msgid = msgid) := by
  induction h with
  | nil => rfl
  | message p _ ih =>
    rw [List.filter_cons, List.filter_cons, ih]
  | @padding seen sent p hp _ ih =>
    have hne : ¬ (decide (p.msgid = msgid)) = true := by
      rw [decide_eq_true_eq]
      rintro rfl
      exact htype hp
    rw [List.filter_cons, if_neg hne, ih]

theorem filter_packets (ms : List Message) (msgid : UInt32) :
    ((ms.map Message.packet).filter (·.msgid = msgid)).map (·.data) =
      (ms.filter (·.msgid = msgid)).map (·.elements.flatten) := by
  induction ms with
  | nil => rfl
  | cons m ms ih =>
    rw [List.map_cons, List.filter_cons, List.filter_cons]
    change (List.map _ (if decide (m.msgid = msgid) = true then _ else _)) = _
    split
    · rw [List.map_cons, List.map_cons, ih]
      rfl
    · exact ih

/-- Of each service, the first part of what has been sent is seen, and all of it in the end. -/
theorem seenPayloads_prefix {msgid : UInt32} (htype : msgType msgid ≠ msgPadding)
    (h : ∃ delivered, delivered <+: s.sent.map Message.packet ∧ Interleaved s.seen delivered ∧
      (s.rxPos = s.txPos → delivered = s.sent.map Message.packet)) :
    s.seenPayloads msgid <+: s.sentPayloads msgid ∧
      (s.rxPos = s.txPos → s.seenPayloads msgid = s.sentPayloads msgid) := by
  obtain ⟨delivered, hinit, hseen, hall⟩ := h
  have hpayloads : s.seenPayloads msgid =
      (delivered.filter (·.msgid = msgid)).map (·.data) := by
    rw [State.seenPayloads, filter_interleaved htype hseen]
  constructor
  · rw [hpayloads, State.sentPayloads, ← filter_packets]
    exact (hinit.filter _).map _
  · intro hpos
    rw [hpayloads, hall hpos, filter_packets]
    rfl

/-! ## The service -/

/-- A message that `vchi_msg_dequeue` has returned. -/
structure Taken where
  maxDataSizeToRead : UInt32
  data : List UInt8
  actualMsgSize : UInt32
  deriving DecidableEq, Repr

/-- The message has been copied as far as there was room. -/
def Taken.IsOf (t : Taken) (payload : List UInt8) : Prop :=
  t.data = payload.take t.maxDataSizeToRead.toNat ∧ t.actualMsgSize.toNat = payload.length

/-- An open service of the receiver, with its queue. -/
structure Inbox where
  transport : State
  size : Nat
  queue : List (Nat × Nat) := []
  /-- The header with which the slot handler is in `vchiu_queue_push`. -/
  pushing : Option (Nat × Nat) := none
  taken : List Taken := []

namespace Inbox

inductive Event where
  | transport (e : Slots.Event)
  /-- The test of the loop in `vchiu_queue_push`. -/
  | push
  /-- `vchi_msg_dequeue` with `VCHI_FLAGS_NONE`. -/
  | dequeue (maxDataSizeToRead : UInt32)

def init (r : SlotRange) (slotData : Nat → Block) (size : Nat) : Inbox where
  transport := .init r slotData
  size

/-- The headers of the service that have not been taken. -/
def waiting (i : Inbox) : List (Nat × Nat) := i.queue ++ i.pushing.toList

/-- What is in the slots behind these headers. -/
def inSlots (i : Inbox) : List (List UInt8) :=
  i.waiting.map fun a => (loadPacket (i.transport.slotData a.1) a.2).data

/-- The slot handler, which calls `shim_callback` for a message to the service. -/
def handler (i : Inbox) (msgid : UInt32) (r : Reception) : Inbox :=
  match i.pushing with
  | some _ => i
  | none =>
    if i.transport.nextIsFor msgid then
      { i with
        transport := i.transport.step (.handler .claim)
        pushing := some i.transport.nextHeader }
    else { i with transport := i.transport.step (.handler r) }

def push (i : Inbox) : Inbox :=
  match i.pushing with
  | some header =>
    if i.queue.length < i.size then { i with queue := i.queue ++ [header], pushing := none }
    else i
  | none => i

def dequeue (i : Inbox) (maxDataSizeToRead : UInt32) : Inbox :=
  match i.queue with
  | [] => i
  | (slot, off) :: queue =>
    let header := loadPacket (i.transport.slotData slot) off
    { i with
      transport := i.transport.step (.release slot off false)
      queue
      taken := i.taken ++
        [⟨maxDataSizeToRead, header.data.take maxDataSizeToRead.toNat, header.size⟩] }

/-- The peer sends to the service with `msgid`. Nobody else releases what it holds. -/
def step (msgid : UInt32) (i : Inbox) : Event → Inbox
  | .transport (.handler r) => i.handler msgid r
  | .transport (.release slot off closing) =>
    if i.waiting.contains (slot, off) then i
    else { i with transport := i.transport.step (.release slot off closing) }
  | .transport e => { i with transport := i.transport.step e }
  | .push => i.push
  | .dequeue maxDataSizeToRead => i.dequeue maxDataSizeToRead

abbrev run (msgid : UInt32) : Inbox → List Event → Inbox := Machine.run (step msgid)

end Inbox

/-- A message with one element. -/
def Message.ofPayload (msgid : UInt32) (payload : List UInt8)
    (h : payload.length ≤ maxMsgSize.toNat) : Message where
  msgid
  elements := [payload]
  fits := by simpa using h
  single _ := Nat.le_refl _

/-- What a frame brings. -/
def Frame.payload : Frame → List UInt8
  | message m => m.elements.flatten
  | padding _ _ => []

/-- What has been read of a service is what has been seen of it. -/
theorem payloads_ours {msgid : UInt32} (htype : msgType msgid ≠ msgPadding)
    {frames : List Frame} {seen : List Packet} (h : List.Forall₂ Frame.ReadsAs frames seen)
    (pos : Nat) :
    ((placed Frame.stride pos frames).filter (·.2.msgid = msgid)).map (·.2.payload) =
      (seen.filter (·.msgid = msgid)).map (·.data) := by
  induction h generalizing pos with
  | nil => rfl
  | @cons f p frames seen hf _ ih =>
    rw [Layout.placed, List.filter_cons, List.filter_cons, hf.msgid_eq]
    split
    · next hmsgid =>
      cases f with
      | message m =>
        obtain rfl : p = m.packet := hf
        rw [List.map_cons, List.map_cons, ih]
        rfl
      | padding size fits =>
        obtain rfl : msgidPadding = msgid := of_decide_eq_true hmsgid
        exact absurd rfl htype
    · exact ih _

namespace Inbox

variable {i : Inbox} {msgid : UInt32} {old fresh : List (Nat × Frame)}

/-- Of the messages to the service, `old` have been taken and `fresh` have not. -/
structure At (r : SlotRange) (msgid : UInt32) (i : Inbox) (g : Stream)
    (old fresh : List (Nat × Frame)) : Prop where
  base : Base r i.transport g
  ours : g.ours msgid = old ++ fresh
  taken : List.Forall₂ (fun t x => t.IsOf x.2.payload) i.taken old
  waiting : i.waiting = fresh.map g.headerOf
  legible : ∀ x ∈ fresh, g.Legible x
  held : ∀ a ∈ i.waiting, a ∈ i.transport.held
  nodup : i.waiting.Nodup

namespace At

theorem init (r : SlotRange) (slotData : Nat → Block) (size : Nat) (msgid : UInt32) :
    At r msgid (.init r slotData size) (.init r) [] [] where
  base := .init r slotData
  ours := rfl
  taken := .nil
  waiting := rfl
  legible x hx := by cases hx
  held a ha := by cases ha
  nodup := List.nodup_nil

/-- What is waiting stays legible as long as it is held. -/
theorem keep (h : At r msgid i g old fresh) (hbase : Base r s' g') (hext : g.Extends g')
    (hnear : g.Near g') (hheld : ∀ a ∈ i.waiting, a ∈ s'.held) :
    (∀ x ∈ fresh, g'.Legible x) ∧ i.waiting = fresh.map g'.headerOf := by
  have hfresh (x : Nat × Frame) (hx : x ∈ fresh) :
      g'.Legible x ∧ g'.headerOf x = g.headerOf x := by
    refine h.base.legible hbase hext hnear (h.legible x hx) (hheld _ ?_)
    rw [h.waiting]
    exact List.mem_map_of_mem hx
  refine ⟨fun x hx => (hfresh x hx).1, ?_⟩
  rw [h.waiting]
  exact List.map_congr_left fun x hx => (hfresh x hx).2.symm

/-- The transport goes on, without a message for the service. -/
theorem elsewhere (h : At r msgid i g old fresh) (hfollows : Follows i.transport g s')
    (hseen : s'.seen = i.transport.seen ∨
      ∃ p, s'.seen = i.transport.seen ++ [p] ∧ p.msgid ≠ msgid)
    (hheld : ∀ a ∈ i.waiting, a ∈ s'.held) :
    ∃ g', At r msgid { i with transport := s' } g' old fresh := by
  obtain ⟨g', hbase, hext, hnear⟩ := h.base.follows hfollows
  have hours : g'.ours msgid = g.ours msgid := by
    rcases hseen with hseen | ⟨p, hseen, hne⟩
    · exact h.base.ours_same hbase hext hseen msgid
    · obtain ⟨f, -, -, hours⟩ := h.base.ours_next hbase hext hseen msgid
      rw [hours, if_neg hne, List.append_nil]
  obtain ⟨hlegible, hwaiting⟩ := h.keep hbase hext hnear hheld
  exact ⟨g', hbase, hours.trans h.ours, h.taken, hwaiting, hlegible, hheld, h.nodup⟩

/-- The transport goes on, and nothing is seen or given back. -/
theorem unseen (h : At r msgid i g old fresh) (e : Slots.Event)
    (hreading : (i.transport.step e).reading = i.transport.reading) :
    ∃ g', At r msgid { i with transport := i.transport.step e } g' old fresh := by
  obtain ⟨hseen, hheld⟩ := Prod.mk.inj hreading
  exact h.elsewhere (State.follows_step h.base.none h.base.represents h.base.senderAt e)
    (.inl hseen) fun a ha => hheld ▸ h.held a ha

/-- The slot handler comes to a message for the service. -/
theorem claim (h : At r msgid i g old fresh) (htype : msgType msgid = msgData)
    (hnone : i.pushing = none) (hnext : i.transport.nextIsFor msgid) :
    ∃ g' x, At r msgid
      { i with
        transport := i.transport.step (.handler .claim)
        pushing := some i.transport.nextHeader } g' old (fresh ++ [x]) := by
  have hr := h.base.represents
  obtain ⟨txPos, hpc, hne, hmsgid, hseen, hheld⟩ := State.claim_next htype hnext
  obtain ⟨hrx, hlt, -⟩ := State.next_frame hr hpc hne
  obtain ⟨-, -, hslot⟩ := hr.enterSlot hlt
  have hheader : i.transport.nextHeader = (g.slotOf (g.rx / 4096), g.rx % 4096) := by
    rw [State.nextHeader, hslot, hr.rxPos, and_slotMask]
  obtain ⟨g', hbase, hext, hnear⟩ :=
    h.base.follows (State.follows_step h.base.none hr h.base.senderAt (.handler .claim))
  obtain ⟨f, -, hread, hours⟩ := h.base.ours_next hbase hext hseen msgid
  rw [hmsgid, if_pos rfl] at hours
  have hkept (a : Nat × Nat) (ha : a ∈ i.waiting) :
      a ∈ (i.transport.step (.handler .claim)).held := by
    rw [hheld]
    exact List.mem_cons_of_mem _ (h.held a ha)
  obtain ⟨hlegible, hqueue⟩ := h.keep hbase hext hnear hkept
  have hnew : i.transport.nextHeader ∈ (i.transport.step (.handler .claim)).held := by
    rw [hheld]
    exact List.mem_cons_self
  have htaken := hr.taken_le
  have havail := hr.available_le
  have hcur : g'.Current (g.rx / 4096) := by
    rw [hheader] at hnew
    exact hr.current_follows hbase.represents hbase.conserved hext hnear hlt
      (hr.current_of_live h.base.conserved (by omega) (hr.not_released le_rfl)) hnew
  have hplace : g'.headerOf (g.upTo g.parsed, f) = i.transport.nextHeader := by
    rw [Stream.headerOf, ← hrx, hext.slotOf _ (by omega), hheader]
  have hwaiting : i.waiting = i.queue := by
    rw [Inbox.waiting, hnone]
    exact List.append_nil _
  rw [hwaiting] at hqueue
  refine ⟨g', (g.upTo g.parsed, f), hbase, ?_, h.taken, ?_, ?_, ?_, ?_⟩
  · rw [hours, h.ours, List.append_assoc]
  · change i.queue ++ [i.transport.nextHeader] = _
    rw [List.map_append, ← hqueue, List.map_singleton, hplace]
  · intro x hx
    rcases List.mem_append.1 hx with hx | hx
    · exact hlegible x hx
    · obtain rfl := List.mem_singleton.1 hx
      exact ⟨hread, hrx ▸ hcur⟩
  · intro a ha
    rcases List.mem_append.1 ha with ha | ha
    · exact hkept a (hwaiting ▸ ha)
    · obtain rfl : a = i.transport.nextHeader := List.mem_singleton.1 ha
      exact hnew
  · have hfree : i.transport.nextHeader ∉ i.queue := by
      intro hmem
      have hheld' := h.held _ (hwaiting.symm ▸ hmem)
      rw [hheader] at hheld'
      exact hr.next_notMem_held hrx hlt hheld'
    have hnodup := h.nodup
    rw [hwaiting] at hnodup
    exact List.nodup_append.2 ⟨hnodup, List.nodup_singleton _, fun a ha b hb heq =>
      hfree (List.mem_singleton.1 hb ▸ heq ▸ ha)⟩

theorem handler (h : At r msgid i g old fresh) (htype : msgType msgid = msgData)
    (result : Reception) :
    ∃ g' fresh, At r msgid (i.handler msgid result) g' old fresh := by
  unfold Inbox.handler
  split
  · exact ⟨g, fresh, h⟩
  · next hnone =>
    split
    · next hnext =>
      obtain ⟨g', x, h'⟩ := h.claim htype hnone hnext
      exact ⟨g', _, h'⟩
    · next hnext =>
      obtain ⟨hseen, hheld⟩ := i.transport.handlerStep_elsewhere hnext result
      have hfollows := State.follows_step h.base.none h.base.represents h.base.senderAt
        (.handler result)
      obtain ⟨g', h'⟩ := h.elsewhere hfollows hseen fun a ha => hheld a (h.held a ha)
      exact ⟨g', fresh, h'⟩

theorem push (h : At r msgid i g old fresh) : At r msgid i.push g old fresh := by
  unfold Inbox.push
  split
  · next header hpushing =>
    split
    · have hwaiting : i.waiting = i.queue ++ [header] := by
        rw [Inbox.waiting, hpushing]
        rfl
      have hsame : Inbox.waiting { i with queue := i.queue ++ [header], pushing := none } =
          i.waiting := by
        rw [hwaiting]
        exact List.append_nil _
      exact ⟨h.base, h.ours, h.taken, hsame.trans h.waiting, h.legible, hsame ▸ h.held,
        hsame ▸ h.nodup⟩
    · exact h
  · exact h

theorem message (h : At r msgid i g old fresh) (htype : msgType msgid = msgData)
    (hx : x ∈ fresh) : ∃ m : Message, x.2 = .message m := by
  have hmem : x ∈ g.ours msgid := by
    rw [h.ours]
    exact List.mem_append_right _ hx
  have hmsgid : x.2.msgid = msgid := of_decide_eq_true (List.mem_filter.1 hmem).2
  rw [← hmsgid] at htype
  cases hf : x.2 with
  | message m => exact ⟨m, rfl⟩
  | padding size fits =>
    rw [hf] at htype
    exact absurd (show msgType msgidPadding = msgData from htype) (by decide)

/-- What `vchi_msg_dequeue` copies is the message. -/
theorem copies (h : At r msgid i g old fresh) (htype : msgType msgid = msgData)
    (hx : x ∈ fresh) (maxDataSizeToRead : UInt32) :
    let header := loadPacket (i.transport.slotData (g.headerOf x).1) (g.headerOf x).2
    Taken.IsOf ⟨maxDataSizeToRead, header.data.take maxDataSizeToRead.toNat, header.size⟩
      x.2.payload := by
  intro header
  obtain ⟨m, hm⟩ := h.message htype hx
  obtain ⟨hdata, hsize⟩ := h.base.loadPacket_data (h.legible x hx) hm
  have hpayload : x.2.payload = m.elements.flatten := by
    rw [hm]
    rfl
  refine ⟨?_, ?_⟩
  · rw [hpayload, ← hdata]
  · rw [hpayload, ← m.toNat_size, ← hsize]

/-- `vchi_msg_dequeue` returns the oldest message that has not been taken. -/
theorem dequeue (h : At r msgid i g old fresh) (htype : msgType msgid = msgData)
    (maxDataSizeToRead : UInt32) :
    ∃ g' old fresh, At r msgid (i.dequeue maxDataSizeToRead) g' old fresh := by
  unfold Inbox.dequeue
  split
  · exact ⟨g, old, fresh, h⟩
  · next slot off queue hqueue =>
    have hwaiting : i.waiting = (slot, off) :: (queue ++ i.pushing.toList) := by
      rw [Inbox.waiting, hqueue]
      rfl
    obtain ⟨x, rest, rfl, hheader, hrest⟩ :=
      List.map_eq_cons_iff.1 (h.waiting.symm.trans hwaiting)
    have hcopies := h.copies htype List.mem_cons_self maxDataSizeToRead
    rw [hheader] at hcopies
    have hnodup := h.nodup
    rw [hwaiting, List.nodup_cons] at hnodup
    have hheld := h.held
    rw [hwaiting] at hheld
    dsimp only at hcopies ⊢
    generalize (⟨_, _, _⟩ : Taken) = t at hcopies ⊢
    -- the header leaves the queue, and is given back after that
    have hpopped : At r msgid { i with queue, taken := i.taken ++ [t] } g (old ++ [x]) rest :=
      { base := h.base
        ours := by rw [h.ours, List.append_cons]
        taken := List.rel_append h.taken (.cons hcopies .nil)
        waiting := hrest.symm
        legible := fun y hy => h.legible y (List.mem_cons_of_mem _ hy)
        held := fun a ha => hheld a (List.mem_cons_of_mem _ ha)
        nodup := hnodup.2 }
    obtain ⟨hseen, hkept⟩ := i.transport.reading_releaseHeader slot off false
    have hstep : i.transport.step (.release slot off false) =
        i.transport.releaseHeader slot off false := if_pos (hheld _ List.mem_cons_self)
    rw [← hstep] at hseen hkept
    obtain ⟨g', h'⟩ := hpopped.elsewhere
      (State.follows_step h.base.none h.base.represents h.base.senderAt _) (.inl hseen)
      fun a ha => hkept a (hpopped.held a ha) fun heq => hnodup.1 (heq ▸ ha)
    exact ⟨g', _, _, h'⟩

/-- A header that is not waiting is given back. -/
theorem release (h : At r msgid i g old fresh) {slot off : Nat} (closing : Bool)
    (hnot : (slot, off) ∉ i.waiting) :
    ∃ g', At r msgid { i with transport := i.transport.step (.release slot off closing) } g'
      old fresh := by
  obtain ⟨hseen, hkept⟩ := i.transport.reading_releaseHeader slot off closing
  by_cases hmem : (slot, off) ∈ i.transport.held
  · have hstep : i.transport.step (.release slot off closing) =
        i.transport.releaseHeader slot off closing := if_pos hmem
    rw [← hstep] at hseen hkept
    exact h.elsewhere (State.follows_step h.base.none h.base.represents h.base.senderAt _)
      (.inl hseen) fun a ha => hkept a (h.held a ha) fun heq => hnot (heq ▸ ha)
  · exact h.unseen _ (congrArg State.reading (if_neg hmem))

theorem step (h : At r msgid i g old fresh) (htype : msgType msgid = msgData) (e : Event) :
    ∃ g' old fresh, At r msgid (i.step msgid e) g' old fresh := by
  cases e with
  | push => exact ⟨g, old, fresh, h.push⟩
  | dequeue maxDataSizeToRead => exact h.dequeue htype maxDataSizeToRead
  | transport e =>
    cases e with
    | send m isBlocking =>
      obtain ⟨g', h'⟩ := h.unseen _
        (State.reading_of_received (i.transport.received_sender (.inr ⟨m, isBlocking, rfl⟩)))
      exact ⟨g', old, fresh, h'⟩
    | sender =>
      obtain ⟨g', h'⟩ := h.unseen _
        (State.reading_of_received (i.transport.received_sender (.inl rfl)))
      exact ⟨g', old, fresh, h'⟩
    | recycle =>
      obtain ⟨g', h'⟩ := h.unseen .recycle i.transport.reading_processFreeQueue
      exact ⟨g', old, fresh, h'⟩
    | handler result =>
      obtain ⟨g', fresh, h'⟩ := h.handler htype result
      exact ⟨g', old, fresh, h'⟩
    | release slot off closing =>
      dsimp only [Inbox.step]
      split
      · exact ⟨g, old, fresh, h⟩
      · next hnot =>
        obtain ⟨g', h'⟩ := h.release closing fun hmem => hnot (List.contains_iff_mem.2 hmem)
        exact ⟨g', old, fresh, h'⟩

/-- What has been read of the service. -/
theorem payloads (h : At r msgid i g old fresh) (htype : msgType msgid = msgData) :
    old.map (·.2.payload) ++ i.inSlots = i.transport.seenPayloads msgid := by
  have hne : msgType msgid ≠ msgPadding := by
    rw [htype]
    decide
  have hours := payloads_ours hne h.base.represents.seen 0
  have hslots : i.inSlots = fresh.map (·.2.payload) := by
    rw [inSlots, h.waiting, List.map_map]
    refine List.map_congr_left fun x hx => ?_
    obtain ⟨m, hm⟩ := h.message htype hx
    rw [hm]
    exact (h.base.loadPacket_data (h.legible x hx) hm).1
  rw [hslots, ← List.map_append, ← h.ours]
  exact hours

end At

/-- What has become of the messages to the service; those with these payloads have been
dequeued. -/
structure Delivers (i : Inbox) (msgid : UInt32) (payloads : List (List UInt8)) : Prop where
  taken : List.Forall₂ Taken.IsOf i.taken payloads
  /-- The rest is in the slots, whatever has been written into slots that came back. -/
  seen : payloads ++ i.inSlots = i.transport.seenPayloads msgid
  sent : i.transport.seenPayloads msgid <+: i.transport.sentPayloads msgid
  all : i.transport.rxPos = i.transport.txPos →
    i.transport.seenPayloads msgid = i.transport.sentPayloads msgid

/-- For every run of all parties, a service dequeues what was sent to it, in order and
without a gap. -/
theorem messages_dequeued (r : SlotRange) (slotData : Nat → Block) (size : Nat)
    (es : List Event) (htype : msgType msgid = msgData) :
    ∃ payloads, ((init r slotData size).run msgid es).Delivers msgid payloads := by
  have hstep (i : Inbox) (e : Event) (h : ∃ g old fresh, At r msgid i g old fresh) :
      ∃ g old fresh, At r msgid (i.step msgid e) g old fresh := by
    obtain ⟨_, _, _, h⟩ := h
    exact h.step htype e
  have hinit : ∃ g old fresh, At r msgid (init r slotData size) g old fresh :=
    ⟨.init r, [], [], .init r slotData size msgid⟩
  have hne : msgType msgid ≠ msgPadding := by
    rw [htype]
    decide
  obtain ⟨g, old, fresh, h⟩ := Machine.run_invariant hstep es hinit
  obtain ⟨hsent, hall⟩ := seenPayloads_prefix hne h.base.represents.received
  exact ⟨old.map (·.2.payload), List.forall₂_map_right_iff.2 h.taken, h.payloads htype, hsent,
    hall⟩

/-! ## Two messages -/

def fourSlots : SlotRange := ⟨1, 4, by decide⟩

def oneSent (msgid : UInt32) (payload : List UInt8)
    (h : payload.length ≤ maxMsgSize.toNat) : List Event :=
  [.transport (.send (.ofPayload msgid payload h) true), .transport .sender, .transport .sender]

/-- The queue has one place, and the first message has more than there is room for. -/
def twoMessages : List Event :=
  oneSent 0x05001002 [1, 2, 3] (by decide) ++ oneSent 0x05002003 [9] (by decide) ++
    oneSent 0x05001002 [4, 5] (by decide) ++
    (List.replicate 8 [.transport (.handler .accept), .push]).flatten ++
    [.dequeue 2, .push, .transport (.handler .accept), .dequeue 16] ++
    List.replicate 3 (.transport (.handler .accept))

abbrev twoDequeued : Inbox :=
  (init fourSlots (fun _ _ => 0) 1).run 0x05001002 twoMessages

theorem messages_dequeued_two :
    twoDequeued.taken = [⟨2, [1, 2], 3⟩, ⟨16, [4, 5], 2⟩] ∧
      List.Forall₂ Taken.IsOf twoDequeued.taken [[1, 2, 3], [4, 5]] := by
  refine ⟨by decide +kernel, ?_⟩
  have hpos : twoDequeued.transport.rxPos = twoDequeued.transport.txPos := by decide +kernel
  have hslots : twoDequeued.inSlots = [] := by decide +kernel
  have hsent : twoDequeued.transport.sentPayloads 0x05001002 = [[1, 2, 3], [4, 5]] := by
    decide +kernel
  have htype : msgType 0x05001002 = msgData := by decide
  obtain ⟨payloads, h⟩ : ∃ payloads, twoDequeued.Delivers 0x05001002 payloads :=
    messages_dequeued fourSlots (fun _ _ => 0) 1 twoMessages htype
  have hseen := h.seen
  rw [hslots, List.append_nil, h.all hpos, hsent] at hseen
  exact hseen ▸ h.taken

end Inbox

end Slots
