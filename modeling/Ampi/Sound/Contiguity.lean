-- SUMMARY: Whether each WRITE header is followed by its own packets, and the overlaps that have to be excluded.
import Ampi.Frames
import Ampi.Sound.Trace

/-!
# Chunk contiguity

`WriteChunk` sends a header and its packets one by one, and each send may hand the
CPU to the other context. Nothing keeps that context from queueing a message of
its own in between: there is no lock around the sends.
-/

namespace Sound

def AudioMsg.kind : AudioMsg → Frames.Kind
  | .write count _ _ _ _ => .header count.toNat
  | .data bytes => .part bytes.length
  | .request _ => .single

/-- The messages queued on the service, as frames. -/
def frames (log : List Obs) : List Frames.Kind := (audioMsgs log).map AudioMsg.kind

theorem frames_quiet {log log' : List Obs} (h : QuietLog log log') : frames log' = frames log := by
  simp [frames, audioMsgs_quiet h]

/-- The call that the main thread is in has still a message to queue. -/
def MainPc.willSend : MainPc → Bool
  | .idle | .startRelease _ | .cancelWait | .cancelRelease => false
  | .queueMessage p _ (.release _) | .waitEvent p => p ≠ .setControl ∧ p ≠ .stop
  | _ => true

theorem MainMove.willSend {m m' : MainPc} (h : MainMove m m') (hm : m.willSend = false) :
    m'.willSend = false := by
  cases h with
  | wait h | configured h | controlled h => cases h <;> simp_all [MainPc.willSend]
  | _ => simp_all [MainPc.willSend]

/-- The bytes of the announced chunk that are still to be queued. -/
def WritePc.owes : WritePc → Nat
  | .header _ _ => 0
  | .data nBytes _ _ => nBytes.toNat

def MainPc.owes : MainPc → Nat
  | .write _ w => w.owes
  | _ => 0

def SlotPc.owes : SlotPc → Nat
  | .write w => w.owes
  | _ => 0

theorem MainMove.owes {m m' : MainPc} (h : MainMove m m') : m.owes = 0 ∧ m'.owes = 0 := by
  cases h with
  | wait h | configured h | controlled h | controlSet h => cases h <;> exact ⟨rfl, rfl⟩
  | _ => exact ⟨rfl, rfl⟩

theorem SlotMove.owes {pc pc' : SlotPc} (h : SlotMove pc pc') : pc.owes = 0 ∧ pc'.owes = 0 := by
  cases h <;> exact ⟨rfl, rfl⟩

theorem primed_owes (d : Device) (n : Priming) : (Sys.primed d n).owes = 0 := by
  cases n with
  | first => cases h : d.chunkCallback <;> simp [Sys.primed, h, MainPc.owes]
  | second => rfl

theorem MainPc.owes_of_not_inWriteChunk {pc : MainPc} (h : pc.inWriteChunk = false) :
    pc.owes = 0 := by
  cases pc <;> simp_all [MainPc.inWriteChunk, MainPc.owes]

theorem MainPc.inWriteChunk_of_not_willSend {pc : MainPc} (h : pc.willSend = false) :
    pc.inWriteChunk = false := by
  cases pc <;> simp_all [MainPc.inWriteChunk, MainPc.willSend]

theorem SlotPc.owes_of_not_inWriteChunk {pc : SlotPc} (h : pc.inWriteChunk = false) :
    pc.owes = 0 := by
  cases pc <;> simp_all [SlotPc.inWriteChunk, SlotPc.owes]

/-! ## The packets of a chunk -/

theorem bytesToQueue_le (n : UInt32) : bytesToQueue n ≤ n := by
  unfold bytesToQueue
  split
  · exact UInt32.le_refl _
  next h => exact UInt32.le_of_lt (UInt32.not_le.1 h)

theorem kind_data (n : UInt32) (b : Buffer) (off : Nat) :
    (WritePc.data n b off).msg.kind = .part (bytesToQueue n).toNat := by
  simp [WritePc.msg, AudioMsg.kind]

/-- A packet leaves the rest of the chunk owed. -/
theorem owed_packet {l : List Frames.Kind} {n : UInt32} (h : Frames.owed l = some n.toNat) :
    Frames.owed (l ++ [.part (bytesToQueue n).toNat]) = some (n - bytesToQueue n).toNat := by
  rw [UInt32.toNat_sub_of_le _ _ (bytesToQueue_le n)]
  exact Frames.owed_part h (bytesToQueue_le n)

namespace Sys

/-- In every state of every run each header is followed by its packets; only a
chunk that `WriteChunk` is still sending may be short. -/
def ChunksContiguous (s : Sys) : Prop :=
  ∀ es, Frames.Contiguous (frames (s.run es).log)
    ((s.run es).main.inWriteChunk ∨ (s.run es).slot.inWriteChunk)

/-- Calls that queue messages do not overlap: `Start`, `SetControl` and the second
half of `Cancel` begin only while `Callback` is not inside `WriteChunk`, and
`Callback` enters `WriteChunk` only when the main thread has nothing more to queue.
No packet is refused. -/
def overlapFree (s : Sys) : Event → Bool
  | .start => s.dev.state = .created ∨ s.dev.state = .idle → !s.slot.inWriteChunk
  | .setControl _ _ => !s.slot.inWriteChunk
  | .resume =>
    match s.main with
    | .cancelWait => s.dev.state ≠ .cancelled → !s.slot.inWriteChunk
    | _ => true
  | .mainReturn nResult =>
    match s.main with
    | .write _ (.data _ _ _) => nResult = 0
    | _ => true
  | .slotReturn nResult =>
    match s.slot with
    | .write (.data _ _ _) => nResult = 0
    | _ => s.refillTest (.slotReturn nResult) → s.dev.state ≠ .cancelled → s.dev.chunkCallback →
        !s.main.willSend
  | _ => true

/-- At most one context has messages to queue, and it alone owes bytes. -/
structure OneWriter (s : Sys) : Prop where
  exclusive : s.slot.inWriteChunk → s.main.willSend = false
  owed : Frames.owed (frames s.log) = some (s.main.owes + s.slot.owes)

namespace OneWriter

/-- While the main thread has messages to queue, `Callback` is not inside `WriteChunk`. -/
theorem slotFree {s : Sys} (h : OneWriter s) (hm : s.main.willSend = true) :
    s.slot.inWriteChunk = false := by
  by_contra hw
  simpa [hm] using h.exclusive (by simpa using hw)

theorem mainOwes {s : Sys} (h : OneWriter s) (hs : s.slot.inWriteChunk = true) :
    s.main.owes = 0 :=
  MainPc.owes_of_not_inWriteChunk (MainPc.inWriteChunk_of_not_willSend (h.exclusive hs))

/-- The main thread moves without queueing anything. -/
theorem ofMain {s s' : Sys} (h : OneWriter s) (hslot : s'.slot = s.slot)
    (hl : frames s'.log = frames s.log) (ho : s'.main.owes = s.main.owes)
    (hex : s.slot.inWriteChunk → s'.main.willSend = false) : OneWriter s' :=
  ⟨hslot ▸ hex, by rw [hl, h.owed, hslot, ho]⟩

/-- The slot handler moves without queueing anything. -/
theorem ofSlot {s s' : Sys} (h : OneWriter s) (hmain : s'.main = s.main)
    (hl : frames s'.log = frames s.log) (ho : s'.slot.owes = s.slot.owes)
    (hex : s'.slot.inWriteChunk → s.main.willSend = false) : OneWriter s' :=
  ⟨hmain ▸ hex, by rw [hl, h.owed, hmain, ho]⟩

/-- The main thread queues a message. -/
theorem mainQueues {s s' : Sys} (h : OneWriter s) (hm : s.main.willSend = true) {m : AudioMsg}
    {os : List Obs} (hslot : s'.slot = s.slot) (hl : s'.log = s.log ++ .queued .main m :: os)
    (hos : audioMsgs os = [])
    (ho : ∀ l, Frames.owed l = some s.main.owes →
      Frames.owed (l ++ [m.kind]) = some s'.main.owes) : OneWriter s' := by
  have hw := h.slotFree hm
  have hsl := SlotPc.owes_of_not_inWriteChunk hw
  refine ⟨fun hw' => by simp [hslot, hw] at hw', ?_⟩
  have hf : frames s'.log = frames s.log ++ [m.kind] := by
    simp [hl, frames, audioMsgs] at hos ⊢
    exact hos
  rw [hf, hslot, hsl]
  exact ho _ (by rw [h.owed, hsl]; rfl)

/-- `Callback` queues a message. -/
theorem slotQueues {s s' : Sys} (h : OneWriter s) (hs : s.slot.inWriteChunk = true) {m : AudioMsg}
    (hmain : s'.main = s.main) (hl : s'.log = s.log ++ [.queued .slotHandler m])
    (ho : ∀ l, Frames.owed l = some s.slot.owes →
      Frames.owed (l ++ [m.kind]) = some s'.slot.owes) : OneWriter s' := by
  have hm := h.mainOwes hs
  refine ⟨fun _ => hmain ▸ h.exclusive hs, ?_⟩
  have hf : frames s'.log = frames s.log ++ [m.kind] := by simp [hl, frames, audioMsgs]
  rw [hf, hmain, hm, Nat.zero_add]
  exact ho _ (by rw [h.owed, hm, Nat.zero_add])

theorem owed_lastPacket {l : List Frames.Kind} {n : UInt32} (hn : n - bytesToQueue n = 0)
    (h : Frames.owed l = some n.toNat) :
    Frames.owed (l ++ [.part (bytesToQueue n).toNat]) = some 0 := by
  simpa [hn] using owed_packet h

theorem step {s s' : Sys} {e : Event} (h : OneWriter s) (hok : s.overlapFree e)
    (hs : Step s e s') : OneWriter s' := by
  have quiet : ∀ os, audioMsgs os = [] → frames (s.log ++ os) = frames s.log := by
    intro os hos
    simp [frames, hos]
  cases hs with
  | stay | setChunkCallback => exact ⟨h.exclusive, h.owed⟩
  | mainMove _ hm _ hl =>
    exact h.ofMain rfl (frames_quiet hl) (hm.owes.2.trans hm.owes.1.symm)
      fun hw => hm.willSend (h.exclusive hw)
  | slotMove _ hm _ hl =>
    exact h.ofSlot rfl (frames_quiet hl) (hm.owes.2.trans hm.owes.1.symm)
      (by simp [hm.inWriteChunk])
  -- the main thread enters a call that queues messages
  | setControl hm =>
    have hw : s.slot.inWriteChunk = false := by simpa [overlapFree] using hok
    exact h.ofMain rfl rfl (by simp [hm, MainPc.owes]) (by simp [hw])
  | startRefused hm =>
    exact h.ofMain rfl (quiet _ rfl) (by simp [hm]) fun _ => rfl
  | startCreated hm hst | startIdle hm hst =>
    have hw : s.slot.inWriteChunk = false := by simpa [overlapFree, hst] using hok
    exact h.ofMain rfl rfl (by simp [hm, MainPc.owes]) (by simp [hw])
  | cancelResumed hm hst =>
    have hw : s.slot.inWriteChunk = false := by simpa [overlapFree, hm, hst] using hok
    exact h.ofMain rfl rfl (by simp [hm, MainPc.owes]) (by simp [hw])
  -- it stays in the call, or leaves it
  | startFails _ _ hw _ hl =>
    exact h.ofMain rfl (frames_quiet hl) (MainPc.owes_of_not_inWriteChunk hw).symm fun _ => rfl
  | opened hm | running hm | reset hm | resetSilent hm =>
    have hw := h.slotFree (by simp [hm, MainPc.willSend])
    exact h.ofMain rfl (quiet _ rfl) (by simp [hm, MainPc.owes]) (by simp [hw])
  | mainEnd hm =>
    have hw := h.slotFree (by simp [hm, MainPc.willSend])
    exact h.ofMain rfl (quiet _ (audioMsgs_primedObs ..)) ((primed_owes ..).trans (by rw [hm]; rfl))
      (by simp [hw])
  | mainChunk hm =>
    have hw := h.slotFree (by simp [hm, MainPc.willSend])
    exact h.ofMain rfl rfl (by simp [hm, MainPc.owes, WritePc.owes]) (by simp [hw])
  | @mainNotSent n w r hm _ hr =>
    have hw : w.owes = 0 := by
      cases w with
      | header => rfl
      | data => simp [overlapFree, hm, hr] at hok
    exact h.ofMain rfl rfl (by simp [hm, MainPc.owes, hw]) fun _ => rfl
  | cancelled hm => exact h.ofMain rfl rfl (by simp [hm, MainPc.owes]) fun _ => rfl
  | stopped hm => exact h.ofMain rfl (quiet _ rfl) (by simp [hm, MainPc.owes]) fun _ => rfl
  -- it queues a message
  | mainHeader hm =>
    refine h.mainQueues (by simp [hm, MainPc.willSend]) rfl rfl rfl fun l hl => ?_
    rw [hm] at hl
    exact Frames.owed_header hl _
  | mainHeaderOnly hm =>
    refine h.mainQueues (by simp [hm, MainPc.willSend]) rfl (List.append_assoc ..)
      (audioMsgs_primedObs ..) fun l hl => ?_
    rw [hm] at hl
    rw [primed_owes]
    exact Frames.owed_header hl _
  | mainPacket hm =>
    refine h.mainQueues (by simp [hm, MainPc.willSend]) rfl rfl rfl fun l hl => ?_
    rw [hm] at hl
    rw [kind_data]
    exact owed_packet hl
  | mainLastPacket hm _ hn =>
    refine h.mainQueues (by simp [hm, MainPc.willSend]) rfl (List.append_assoc ..)
      (audioMsgs_primedObs ..) fun l hl => ?_
    rw [hm] at hl
    rw [kind_data, primed_owes]
    exact owed_lastPacket hn hl
  | @queued p m hm =>
    refine h.mainQueues (by simp [hm, MainPc.willSend]) rfl rfl rfl fun l hl => ?_
    rw [hm] at hl
    exact Frames.owed_single hl
  -- `Callback` outside `WriteChunk`
  | slotError hm | result hm | other hm | completeIgnored hm | badCookie hm | completed hm
  | terminating hm | refillSilent hm | slotEnd hm =>
    exact h.ofSlot rfl (by simp [frames, audioMsgs]) (by simp [hm, SlotPc.owes])
      (by simp [SlotPc.inWriteChunk])
  | @slotNotSent w r hm _ hr =>
    have hw : w.owes = 0 := by
      cases w with
      | header => rfl
      | data => simp [overlapFree, hm, hr] at hok
    exact h.ofSlot rfl rfl (by simp [hm, SlotPc.owes, hw]) (by simp [SlotPc.inWriteChunk])
  -- and inside it
  | refill hm hc hst hk hr hcb =>
    have htest := refillTest_eq_true hm hc ⟨hst.1, hst.2.1⟩ hk hr
    have hfree : s.main.willSend = false := by
      simpa [overlapFree, hm, htest, hst, hcb] using hok
    exact h.ofSlot rfl (quiet _ rfl) (by simp [hm, SlotPc.owes]) fun _ => hfree
  | slotChunk hm =>
    have hfree := h.exclusive (by simp [hm, SlotPc.inWriteChunk])
    exact h.ofSlot rfl rfl (by simp [hm, SlotPc.owes, WritePc.owes]) fun _ => hfree
  | slotHeader hm =>
    refine h.slotQueues (by simp [hm, SlotPc.inWriteChunk]) rfl rfl fun l hl => ?_
    rw [hm] at hl
    exact Frames.owed_header hl _
  | slotHeaderOnly hm =>
    refine h.slotQueues (by simp [hm, SlotPc.inWriteChunk]) rfl rfl fun l hl => ?_
    rw [hm] at hl
    exact Frames.owed_header hl _
  | slotPacket hm =>
    refine h.slotQueues (by simp [hm, SlotPc.inWriteChunk]) rfl rfl fun l hl => ?_
    rw [hm] at hl
    rw [kind_data]
    exact owed_packet hl
  | slotLastPacket hm _ hn =>
    refine h.slotQueues (by simp [hm, SlotPc.inWriteChunk]) rfl rfl fun l hl => ?_
    rw [hm] at hl
    rw [kind_data]
    exact owed_lastPacket hn hl

end OneWriter

/-- Chunks are contiguous in every run whose steps are all `overlapFree`. -/
theorem chunks_contiguous {sampleRate chunkSize : UInt32} {destination : SoundDestination}
    {es : List Event}
    (hok : Machine.Along step (overlapFree · ·) (ctor sampleRate chunkSize destination) es) :
    Frames.Contiguous (frames ((ctor sampleRate chunkSize destination).run es).log)
      (((ctor sampleRate chunkSize destination).run es).main.inWriteChunk ∨
        ((ctor sampleRate chunkSize destination).run es).slot.inWriteChunk) := by
  have h := hok.invariant (I := OneWriter) (fun s e h hse => h.step hse (step_rule s e))
    ⟨nofun, rfl⟩
  refine (Frames.contiguous_of_owed h.owed).mono fun hpos => ?_
  by_contra hw
  obtain ⟨hm, hs⟩ := not_or.1 hw
  rw [MainPc.owes_of_not_inWriteChunk (by simpa using hm),
    SlotPc.owes_of_not_inWriteChunk (by simpa using hs)] at hpos
  simp at hpos

theorem chunks_contiguous_session :
    Frames.Contiguous
      (frames ((ctor 44100 1 .auto).run (twoChunksQueued ++ [.setControl 0 .hdmi])).log)
      (((ctor 44100 1 .auto).run (twoChunksQueued ++ [.setControl 0 .hdmi])).main.inWriteChunk ∨
        ((ctor 44100 1 .auto).run (twoChunksQueued ++ [.setControl 0 .hdmi])).slot.inWriteChunk) :=
  chunks_contiguous (by decide +kernel)

/-- `Callback` has queued a header when the main thread gets the CPU and queues a
`CONTROL`. -/
def interleavedControl : List Event :=
  twoChunksQueued ++ [.deliver .msgAvailable (.complete 2 writeCookie1 writeCookie2), .slotReturn 0,
    .slotReturn 0, .chunkReturn ⟨1, some fun _ => 0⟩, .slotReturn 0, .setControl 0 .hdmi,
    .mainReturn 0, .mainReturn 0]

theorem not_chunksContiguous : ¬ (ctor 44100 1 .auto).ChunksContiguous := by
  intro h
  obtain ⟨parts, rest, hpost, hsum⟩ := h interleavedControl
    (frames ((ctor 44100 1 .auto).run twoChunksQueued).log) 2 [.single] (by decide +kernel)
  cases parts with
  | nil =>
    obtain rfl : [.single] = rest := hpost
    simp at hsum
  | cons p parts => simp at hpost

end Sys
end Sound
