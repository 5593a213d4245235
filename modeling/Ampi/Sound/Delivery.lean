-- SUMMARY: From WriteChunk to the other side of the slots: the samples arrive as they were, in order.
import Ampi.Sound.Contiguity
import Ampi.Sound.Packets
import Ampi.Vchiq.Inbox

/-!
# Delivery

The messages of the sound device are DATA messages of one service among all that are sent
through the slots. Whoever reads the slots on the other side finds the samples by the counts
that the `WRITE` headers announce.
-/

namespace Sound

open Slots (msgType msgData msgPadding)

/-! ## Memory images -/

/-- The words of `VC_AUDIO_MSG_T` that are set. -/
def Request.words : Request → List UInt32
  | .config channels samplerate bps => [2, channels, samplerate, bps]
  | .control volume dest => [3, volume, dest]
  | .openAudio => [4]
  | .start => [6]
  | .stop draining => [7, draining]

/-- `sizeof (VC_AUDIO_MSG_T)`. -/
def audioMsgSize : Nat := 20

/-- What is passed to `vchi_msg_queue` for a message. The members of the union that have not
been set are whatever was there. -/
def AudioMsg.Image (payload : List UInt8) : AudioMsg → Prop
  | .request r => ∃ unset, payload = r.words.flatMap Block.wordBytes ++ unset ∧
      payload.length = audioMsgSize
  | .write count cookie1 cookie2 silence maxPacket =>
    payload =
      [8, count, cookie1, cookie2, silence ||| maxPacket <<< 16].flatMap Block.wordBytes
  | .data bytes => payload = bytes

/-- The word at an offset of a message. -/
def word (payload : List UInt8) (off : Nat) : UInt32 :=
  (Block.store (fun _ => 0) 0 payload).loadWord off

theorem word_zero (w : UInt32) (rest : List UInt8) :
    word (Block.wordBytes w ++ rest) 0 = w := by
  have hstore : Block.store (fun _ => 0) 0 (Block.wordBytes w ++ rest) =
      (Block.storeWord (fun _ => 0) 0 w).store 4 rest := (Block.store_append rest).symm
  rw [word, hstore, Block.loadWord_congr fun i _ hi => Block.store_of_disjoint (.inl (by omega))]
  exact Block.loadWord_storeWord

theorem word_four (w w' : UInt32) (rest : List UInt8) :
    word (Block.wordBytes w ++ (Block.wordBytes w' ++ rest)) 4 = w' := by
  have hstore : Block.store (fun _ => 0) 0 (Block.wordBytes w ++ (Block.wordBytes w' ++ rest)) =
      ((Block.storeWord (fun _ => 0) 0 w).storeWord 4 w').store 8 rest := by
    have hfirst : (Block.storeWord (fun _ => 0) 0 w).store 4 (Block.wordBytes w' ++ rest) = _ :=
      Block.store_append _
    have hsecond : ((Block.storeWord (fun _ => 0) 0 w).storeWord 4 w').store 8 rest = _ :=
      Block.store_append rest
    exact hfirst.symm.trans hsecond.symm
  rw [word, hstore, Block.loadWord_congr fun i _ hi => Block.store_of_disjoint (.inl (by omega))]
  exact Block.loadWord_storeWord

theorem word_nil (off : Nat) : word [] off = 0 := by
  simp [word, Block.loadWord]

/-! ## The other side -/

/-- What is owed of the chunk that has been announced, and the samples so far. -/
structure Playback where
  owed : Nat := 0
  samples : List UInt8 := []

/-- Between chunks a message is looked at for its type; within one it is samples. -/
def Playback.take (p : Playback) (payload : List UInt8) : Playback :=
  if p.owed = 0 then
    if word payload 0 = 8 then { p with owed := (word payload 4).toNat } else p
  else ⟨p.owed - payload.length, p.samples ++ payload⟩

def Playback.takes (p : Playback) (payloads : List (List UInt8)) : Playback :=
  payloads.foldl take p

namespace Playback

theorem takes_append (p : Playback) (l l' : List (List UInt8)) :
    p.takes (l ++ l') = (p.takes l).takes l' := List.foldl_append

theorem samples_take (p : Playback) (payload : List UInt8) :
    p.samples <+: (p.take payload).samples := by
  unfold take
  split
  · split <;> exact List.prefix_refl _
  · exact List.prefix_append _ _

theorem samples_takes (p : Playback) (l : List (List UInt8)) :
    p.samples <+: (p.takes l).samples := by
  induction l generalizing p with
  | nil => exact List.prefix_refl _
  | cons payload l ih => exact (p.samples_take payload).trans (ih (p.take payload))

end Playback

/-- The samples in a message. -/
def AudioMsg.samples : AudioMsg → List UInt8
  | .data bytes => bytes
  | _ => []

/-- Unless the framing is broken, what is taken for samples is the samples. -/
theorem takes_images {ms : List AudioMsg} {payloads : List (List UInt8)}
    (himages : List.Forall₂ (fun m payload => m.Image payload) ms payloads) {k n : Nat}
    (howed : (ms.map AudioMsg.kind).foldl Frames.owedStep (some k) = some n)
    (samples : List UInt8) :
    Playback.takes ⟨k, samples⟩ payloads = ⟨n, samples ++ ms.flatMap AudioMsg.samples⟩ := by
  induction himages generalizing k samples with
  | nil =>
    obtain rfl : k = n := Option.some.inj howed
    simp [Playback.takes]
  | @cons m payload ms payloads himage _ ih =>
    rw [List.map_cons, List.foldl_cons] at howed
    suffices ∃ k', Frames.owedStep (some k) m.kind = some k' ∧
        Playback.take ⟨k, samples⟩ payload = ⟨k', samples ++ m.samples⟩ by
      obtain ⟨k', hstep, htake⟩ := this
      rw [hstep] at howed
      change Playback.takes (Playback.take _ _) payloads = _
      rw [htake, ih howed, List.flatMap_cons, List.append_assoc]
    cases m with
    | request r =>
      obtain ⟨unset, hpayload, -⟩ := himage
      have htype : word payload 0 ≠ 8 := by
        subst hpayload
        cases r <;>
          · simp only [Request.words, List.flatMap_cons, List.append_assoc]
            rw [word_zero]
            decide
      cases k with
      | zero => exact ⟨0, rfl, by simp [Playback.take, htype, AudioMsg.samples]⟩
      | succ k => simp [AudioMsg.kind, Frames.owedStep] at howed
    | write count cookie1 cookie2 silence maxPacket =>
      have hpayload : payload = _ := himage
      have htype : word payload 0 = 8 := by
        rw [hpayload, List.flatMap_cons, word_zero]
      have hcount : word payload 4 = count := by
        rw [hpayload, List.flatMap_cons, List.flatMap_cons, word_four]
      cases k with
      | zero =>
        exact ⟨count.toNat, rfl, by simp [Playback.take, htype, hcount, AudioMsg.samples]⟩
      | succ k => simp [AudioMsg.kind, Frames.owedStep] at howed
    | data bytes =>
      obtain rfl : payload = bytes := himage
      cases k with
      | zero =>
        -- no more than nothing can be sent before a header
        cases payload with
        | nil => exact ⟨0, rfl, by simp [Playback.take, word_nil, AudioMsg.samples]⟩
        | cons b bs => simp [AudioMsg.kind, Frames.owedStep] at howed
      | succ k =>
        have hle : payload.length ≤ k + 1 := by
          by_contra hlt
          simp [AudioMsg.kind, Frames.owedStep, hlt] at howed
        refine ⟨k + 1 - payload.length, ?_, rfl⟩
        simp [AudioMsg.kind, Frames.owedStep, hle]

/-! ## What the device sends -/

/-- The bytes of a chunk that have been announced and not been queued. -/
def WritePc.unsent : WritePc → List UInt8
  | .header _ _ => []
  | .data nBytes buffer offset => buffer.bytes offset nBytes.toNat

def MainPc.unsent : MainPc → List UInt8
  | .write _ w => w.unsent
  | _ => []

def SlotPc.unsent : SlotPc → List UInt8
  | .write w => w.unsent
  | _ => []

/-- The chunk that a send announces. -/
def WritePc.chunk : WritePc → List UInt8
  | .header nBytes buffer => buffer.bytes 0 nBytes.toNat
  | .data _ _ _ => []

def MainPc.chunk : MainPc → List UInt8
  | .write _ w => w.chunk
  | _ => []

def SlotPc.chunk : SlotPc → List UInt8
  | .write w => w.chunk
  | _ => []

namespace Sys

/-- The chunk of which the header is queued in a step. -/
def announces (s : Sys) : Event → List UInt8
  | .mainReturn nResult => if nResult = 0 ∧ s.slot.inCallback = false then s.main.chunk else []
  | .slotReturn nResult => if nResult = 0 ∧ s.main.inCallback = false then s.slot.chunk else []
  | _ => []

/-- The chunks of which the header is queued in a run. -/
def announced (s : Sys) : List Event → List UInt8
  | [] => []
  | e :: es => s.announces e ++ (s.step e).announced es

/-- The samples that have been queued, and those that are announced. -/
def content (s : Sys) : List UInt8 :=
  (audioMsgs s.log).flatMap AudioMsg.samples ++ (s.main.unsent ++ s.slot.unsent)

end Sys

theorem MainMove.unsent {m m' : MainPc} (h : MainMove m m') :
    m.unsent = [] ∧ m'.unsent = [] := by
  cases h with
  | wait h | configured h | controlled h | controlSet h => cases h <;> exact ⟨rfl, rfl⟩
  | _ => exact ⟨rfl, rfl⟩

theorem SlotMove.unsent {pc pc' : SlotPc} (h : SlotMove pc pc') :
    pc.unsent = [] ∧ pc'.unsent = [] := by
  cases h <;> exact ⟨rfl, rfl⟩

theorem primed_unsent (d : Device) (n : Priming) : (Sys.primed d n).unsent = [] := by
  cases n with
  | first => cases h : d.chunkCallback <;> simp [Sys.primed, h, MainPc.unsent]
  | second => rfl

theorem MainPc.unsent_of_not_inWriteChunk {pc : MainPc} (h : pc.inWriteChunk = false) :
    pc.unsent = [] := by
  cases pc <;> simp_all [MainPc.inWriteChunk, MainPc.unsent]

theorem SlotPc.unsent_of_not_inWriteChunk {pc : SlotPc} (h : pc.inWriteChunk = false) :
    pc.unsent = [] := by
  cases pc <;> simp_all [SlotPc.inWriteChunk, SlotPc.unsent]

/-- A packet and what is behind it. -/
theorem unsent_packet (nBytes : UInt32) (buffer : Buffer) (offset : Nat) :
    (WritePc.data nBytes buffer offset).unsent =
      (WritePc.data nBytes buffer offset).msg.samples ++
        (WritePc.data (nBytes - bytesToQueue nBytes) buffer
          (offset + (bytesToQueue nBytes).toNat)).unsent := by
  have hmin := bytesToQueue_toNat nBytes
  have hsub := sub_bytesToQueue_toNat nBytes
  have hbytes : nBytes.toNat =
      (bytesToQueue nBytes).toNat + (nBytes - bytesToQueue nBytes).toNat := by omega
  change buffer.bytes offset nBytes.toNat = buffer.bytes offset (bytesToQueue nBytes).toNat ++ _
  rw [hbytes, buffer.bytes_add]
  rfl

theorem unsent_lastPacket {nBytes : UInt32} (hn : nBytes - bytesToQueue nBytes = 0)
    (buffer : Buffer) (offset : Nat) :
    (WritePc.data nBytes buffer offset).unsent =
      (WritePc.data nBytes buffer offset).msg.samples := by
  have hpacket := unsent_packet nBytes buffer offset
  rw [hn] at hpacket
  rw [hpacket]
  exact List.append_nil _

namespace Sys

theorem content_main {s s' : Sys} {os : List Obs} (sent : List UInt8)
    (hl : s'.log = s.log ++ os) (hslot : s'.slot = s.slot)
    (hsent : (audioMsgs os).flatMap AudioMsg.samples = sent)
    (hunsent : s.main.unsent = sent ++ s'.main.unsent) : s'.content = s.content := by
  rw [content, content, hl, hslot, audioMsgs_append, List.flatMap_append, hsent, hunsent]
  simp only [List.append_assoc]

theorem content_slot {s s' : Sys} {os : List Obs} (sent : List UInt8)
    (hl : s'.log = s.log ++ os) (hmain : s'.main = s.main) (hnone : s.main.unsent = [])
    (hsent : (audioMsgs os).flatMap AudioMsg.samples = sent)
    (hunsent : s.slot.unsent = sent ++ s'.slot.unsent) : s'.content = s.content := by
  rw [content, content, hl, hmain, audioMsgs_append, List.flatMap_append, hsent, hunsent, hnone]
  simp only [List.append_assoc, List.nil_append]

/-- While `Callback` is inside `WriteChunk` the main thread is not. -/
theorem main_unsent {s : Sys} (h : OneWriter s) (hs : s.slot.inWriteChunk = true) :
    s.main.unsent = [] :=
  MainPc.unsent_of_not_inWriteChunk (MainPc.inWriteChunk_of_not_willSend (h.exclusive hs))

/-- And the other way around. -/
theorem slot_unsent {s : Sys} (h : OneWriter s) (hm : s.main.willSend = true) :
    s.slot.unsent = [] :=
  SlotPc.unsent_of_not_inWriteChunk (h.slotFree hm)

theorem bytes_eq_nil {buffer : Buffer} {offset : Nat} {nBytes : UInt32}
    (h : buffer.bytes offset nBytes.toNat = []) : nBytes = 0 := by
  have hlength := congrArg List.length h
  rw [Buffer.length_bytes] at hlength
  exact UInt32.toNat_inj.1 hlength

/-- A step that announces nothing leaves the content. -/
theorem content_quiet {s s' : Sys} {e : Event} (h : OneWriter s) (hok : s.overlapFree e)
    (hs : Step s e s') (hnone : s.announces e = []) : s'.content = s.content := by
  cases hs with
  | stay | setChunkCallback => rfl
  | mainMove _ hm _ hl => simp [content, audioMsgs_quiet hl, hm.unsent]
  | slotMove _ hm _ hl => simp [content, audioMsgs_quiet hl, hm.unsent]
  | setControl hm | startRefused hm | startCreated hm | startIdle hm | opened hm | running hm
  | reset hm | resetSilent hm | queued hm | cancelled hm | cancelResumed hm | stopped hm =>
    simp [content, hm, MainPc.unsent, audioMsgs, AudioMsg.samples]
  | startFails _ _ hw _ hl =>
    have hidle : MainPc.idle.unsent = [] := rfl
    simp [content, audioMsgs_quiet hl, MainPc.unsent_of_not_inWriteChunk hw, hidle]
  | mainEnd hm =>
    refine content_main [] rfl rfl ?_ ?_
    · rw [audioMsgs_primedObs]
      rfl
    · rw [hm, primed_unsent]
      rfl
  | mainChunk hm => simp [content, hm, MainPc.unsent, WritePc.unsent]
  | @mainNotSent n w r hm _ hr =>
    cases w with
    | header => simp [content, hm, MainPc.unsent, WritePc.unsent]
    | data => simp [overlapFree, hm, hr] at hok
  | mainHeader hm hc hn =>
    simp only [announces, hc, and_self, if_true, hm, MainPc.chunk, WritePc.chunk] at hnone
    exact absurd (bytes_eq_nil hnone) hn
  | mainHeaderOnly hm =>
    refine content_main [] (List.append_assoc ..) rfl ?_ ?_
    · rw [audioMsgs_append, audioMsgs_primedObs]
      rfl
    · rw [hm, primed_unsent]
      rfl
  | @mainPacket n nBytes b off hm =>
    refine content_main (WritePc.data nBytes b off).msg.samples rfl rfl (List.append_nil _) ?_
    rw [hm]
    exact unsent_packet nBytes b off
  | @mainLastPacket n nBytes b off hm _ hn =>
    refine content_main (WritePc.data nBytes b off).msg.samples (List.append_assoc ..) rfl ?_ ?_
    · rw [audioMsgs_append, audioMsgs_primedObs]
      exact List.append_nil _
    · rw [hm, primed_unsent, List.append_nil]
      exact unsent_lastPacket hn b off
  | slotError hm | result hm | other hm | completeIgnored hm | badCookie hm | completed hm
  | terminating hm | refillSilent hm | slotEnd hm | refill hm =>
    simp [content, hm, SlotPc.unsent, audioMsgs]
  | slotChunk hm => simp [content, hm, SlotPc.unsent, WritePc.unsent]
  | @slotNotSent w r hm _ hr =>
    cases w with
    | header => simp [content, hm, SlotPc.unsent, WritePc.unsent]
    | data => simp [overlapFree, hm, hr] at hok
  | slotHeader hm hc hn =>
    simp only [announces, hc, and_self, if_true, hm, SlotPc.chunk, WritePc.chunk] at hnone
    exact absurd (bytes_eq_nil hnone) hn
  | slotHeaderOnly hm => simp [content, hm, SlotPc.unsent, WritePc.unsent, audioMsgs,
      WritePc.msg, AudioMsg.samples]
  | @slotPacket nBytes b off hm =>
    refine content_slot (WritePc.data nBytes b off).msg.samples rfl rfl
      (main_unsent h (by simp [hm, SlotPc.inWriteChunk])) (List.append_nil _) ?_
    rw [hm]
    exact unsent_packet nBytes b off
  | @slotLastPacket nBytes b off hm _ hn =>
    refine content_slot (WritePc.data nBytes b off).msg.samples rfl rfl
      (main_unsent h (by simp [hm, SlotPc.inWriteChunk])) (List.append_nil _) ?_
    rw [hm]
    exact (unsent_lastPacket hn b off).trans (List.append_nil _).symm

/-- The header of a chunk is queued by the main thread. -/
theorem content_mainHeader {s : Sys} (h : OneWriter s) {n : Priming} {nBytes : UInt32}
    {b : Buffer} (hm : s.main = .write n (.header nBytes b)) (hc : s.slot.inCallback = false) :
    (s.step (.mainReturn 0)).content = s.content ++ b.bytes 0 nBytes.toNat := by
  have hslot : s.slot.unsent = [] := slot_unsent h (by simp [hm, MainPc.willSend])
  have hcontent : s.content = (audioMsgs s.log).flatMap AudioMsg.samples := by
    rw [content, hm, hslot]
    exact List.append_nil _
  have hsent : s.step (.mainReturn 0) = primingChunk
      { s with
        dev := { s.dev with writePos := s.dev.writePos + nBytes }
        log := s.log ++ [.queued .main (WritePc.msg (.header nBytes b))] }
      n (packetLoop nBytes b 0) := by
    simp [step, hc, mainReturn, hm, Device.sendReturned, emit]
  rw [hsent, hcontent]
  by_cases hn : nBytes = 0
  · subst hn
    rw [packetLoop, if_pos rfl, primingChunk_ret]
    simp only [content, audioMsgs_append, audioMsgs_primedObs, primed_unsent, hslot,
      List.append_nil]
    simp [audioMsgs, WritePc.msg, AudioMsg.samples, Buffer.bytes]
  · rw [packetLoop, if_neg hn, primingChunk_send]
    simp [content, MainPc.unsent, WritePc.unsent, hslot, audioMsgs, WritePc.msg,
      AudioMsg.samples]

/-- The header of a chunk is queued by `Callback`. -/
theorem content_slotHeader {s : Sys} (h : OneWriter s) {nBytes : UInt32} {b : Buffer}
    (hm : s.slot = .write (.header nBytes b)) (hc : s.main.inCallback = false) :
    (s.step (.slotReturn 0)).content = s.content ++ b.bytes 0 nBytes.toNat := by
  have hmain : s.main.unsent = [] := main_unsent h (by simp [hm, SlotPc.inWriteChunk])
  have hcontent : s.content = (audioMsgs s.log).flatMap AudioMsg.samples := by
    rw [content, hm, hmain]
    exact List.append_nil _
  have hsent : s.step (.slotReturn 0) = callbackChunk
      { s with
        dev := { s.dev with writePos := s.dev.writePos + nBytes }
        log := s.log ++ [.queued .slotHandler (WritePc.msg (.header nBytes b))] }
      (packetLoop nBytes b 0) := by
    simp [step, hc, slotReturn, hm, Device.sendReturned, emit]
  rw [hsent, hcontent]
  by_cases hn : nBytes = 0
  · subst hn
    simp [packetLoop, callbackChunk, toSlot, content, hmain, SlotPc.unsent, audioMsgs,
      WritePc.msg, AudioMsg.samples, Buffer.bytes]
  · simp [packetLoop, hn, callbackChunk, toSlot, content, hmain, SlotPc.unsent,
      WritePc.unsent, audioMsgs, WritePc.msg, AudioMsg.samples]

/-- What a step announces is added to the content. -/
theorem content_step {s : Sys} {e : Event} (h : OneWriter s) (hok : s.overlapFree e) :
    (s.step e).content = s.content ++ s.announces e := by
  by_cases hnone : s.announces e = []
  · rw [hnone, List.append_nil]
    exact content_quiet h hok (step_rule s e) hnone
  · cases e with
    | mainReturn nResult =>
      by_cases hr : nResult = 0 ∧ s.slot.inCallback = false
      · obtain ⟨rfl, hc⟩ := hr
        simp only [announces, hc, and_self, if_true] at hnone ⊢
        cases hm : s.main with
        | write n w =>
          cases w with
          | header nBytes b => exact content_mainHeader h hm hc
          | data => exact absurd (by rw [hm]; rfl) hnone
        | _ => exact absurd (by rw [hm]; rfl) hnone
      · exact absurd (if_neg hr) hnone
    | slotReturn nResult =>
      by_cases hr : nResult = 0 ∧ s.main.inCallback = false
      · obtain ⟨rfl, hc⟩ := hr
        simp only [announces, hc, and_self, if_true] at hnone ⊢
        cases hm : s.slot with
        | write w =>
          cases w with
          | header nBytes b => exact content_slotHeader h hm hc
          | data => exact absurd (by rw [hm]; rfl) hnone
        | _ => exact absurd (by rw [hm]; rfl) hnone
      · exact absurd (if_neg hr) hnone
    | _ => exact absurd rfl hnone

theorem content_run {s : Sys} (h : OneWriter s) {es : List Event}
    (hok : Machine.Along step (overlapFree · ·) s es) :
    (s.run es).content = s.content ++ s.announced es := by
  induction es generalizing s with
  | nil => exact (List.append_nil _).symm
  | cons e es ih =>
    obtain ⟨he, hes⟩ := hok
    have hstep : OneWriter (s.step e) := h.step he (step_rule s e)
    change ((s.step e).run es).content = _
    rw [ih hstep hes, content_step h he, announced, List.append_assoc]

end Sys

/-! ## Through the slots -/

theorem Sys.oneWriter_ctor (sampleRate chunkSize : UInt32) (destination : SoundDestination) :
    Sys.OneWriter (.ctor sampleRate chunkSize destination) where
  exclusive h := by cases h
  owed := rfl

/-- Nothing but whole chunks is left when nobody is inside `WriteChunk`. -/
theorem Sys.content_idle {s : Sys} (hm : s.main.inWriteChunk = false)
    (hs : s.slot.inWriteChunk = false) :
    s.content = (audioMsgs s.log).flatMap AudioMsg.samples := by
  rw [content, MainPc.unsent_of_not_inWriteChunk hm, SlotPc.unsent_of_not_inWriteChunk hs]
  exact List.append_nil _

/-- Whatever else goes through the slots, the samples that have arrived are a first part of
the chunks that have been announced, and all of them once everything has been queued, sent
and seen. -/
theorem samples_delivered {sampleRate chunkSize : UInt32} {destination : SoundDestination}
    {calls : List Event}
    (hok : Machine.Along Sys.step (Sys.overlapFree · ·) (.ctor sampleRate chunkSize destination)
      calls)
    {payloads : List (List UInt8)}
    (himages : List.Forall₂ (fun m payload => m.Image payload)
      (audioMsgs ((Sys.ctor sampleRate chunkSize destination).run calls).log) payloads)
    (r : Slots.SlotRange) (slotData : Nat → Block) (es : List Slots.Event) {msgid : UInt32}
    (htype : msgType msgid = msgData)
    (hsent : ((Slots.State.init r slotData).run es).sentPayloads msgid <+: payloads) :
    let device := (Sys.ctor sampleRate chunkSize destination).run calls
    let chunks := (Sys.ctor sampleRate chunkSize destination).announced calls
    let s := (Slots.State.init r slotData).run es
    let played := (Playback.takes {} (s.seenPayloads msgid)).samples
    played <+: chunks ∧
      (device.main.inWriteChunk = false → device.slot.inWriteChunk = false →
        s.sentPayloads msgid = payloads → s.rxPos = s.txPos → played = chunks) := by
  intro device chunks s played
  have hctor := Sys.oneWriter_ctor sampleRate chunkSize destination
  have hwriter : Sys.OneWriter device :=
    hok.invariant (fun s e h hse => h.step hse (Sys.step_rule s e)) hctor
  have hcontent : device.content = chunks := Sys.content_run hctor hok
  have htakes := takes_images himages hwriter.owed []
  have hpadding : msgType msgid ≠ msgPadding := by
    rw [htype]
    decide
  obtain ⟨hinit, hall⟩ := Slots.seenPayloads_prefix hpadding
    ((Slots.State.sound_init r slotData).run es).framed.received
  constructor
  · obtain ⟨rest, hrest⟩ := hinit.trans hsent
    have hplayed : played <+: (Playback.takes {} payloads).samples := by
      rw [← hrest, Playback.takes_append]
      exact Playback.samples_takes _ rest
    refine hplayed.trans ?_
    rw [htakes, ← hcontent]
    exact List.prefix_append _ _
  · intro hmain hslot hend hpos
    change (Playback.takes {} (s.seenPayloads msgid)).samples = chunks
    rw [hall hpos, hend, htakes, ← hcontent, Sys.content_idle hmain hslot]
    rfl

/-! ## Two chunks -/

/-- Two chunks of one word each. -/
def twoChunks : List Event :=
  startedWith ⟨1, some fun i => .ofNat (i + 1)⟩ ⟨1, some fun i => .ofNat (i + 3)⟩

/-- The image in which what has not been set is zero. -/
def AudioMsg.zeroed : AudioMsg → List UInt8
  | .request r =>
    r.words.flatMap Block.wordBytes ++ List.replicate (audioMsgSize - 4 * r.words.length) 0
  | .write count cookie1 cookie2 silence maxPacket =>
    [8, count, cookie1, cookie2, silence ||| maxPacket <<< 16].flatMap Block.wordBytes
  | .data bytes => bytes

theorem AudioMsg.image_zeroed (m : AudioMsg) : m.Image m.zeroed := by
  cases m with
  | request r => exact ⟨_, rfl, by cases r <;> rfl⟩
  | write | data => rfl

/-- Each payload is the only element of a message, and all of them are handled. -/
def passed (messages : List (UInt32 × List UInt8)) : List Slots.Event :=
  messages.flatMap (fun message =>
    if h : message.2.length ≤ Slots.maxMsgSize.toNat then
      [.send (.ofPayload message.1 message.2 h) true, .sender, .sender]
    else []) ++
  List.replicate (2 * messages.length + 1) (.handler .accept)

/-- What the device has sent for them. -/
def twoPayloads : List (List UInt8) :=
  (audioMsgs ((Sys.ctor 44100 1 .auto).run twoChunks).log).map AudioMsg.zeroed

/-- Another service sends a message before each of them. -/
def twoMessages : List (UInt32 × List UInt8) :=
  twoPayloads.flatMap fun payload => [(0x05003004, [8, 0, 0, 0]), (0x05001002, payload)]

/-- In four slots. -/
abbrev twoPassed : Slots.State :=
  (Slots.State.init Slots.Inbox.fourSlots fun _ _ => 0).run (passed twoMessages)

theorem samples_delivered_two :
    (Playback.takes {} (twoPassed.seenPayloads 0x05001002)).samples = [1, 2, 3, 4] := by
  have hok : Machine.Along Sys.step (Sys.overlapFree · ·) (.ctor 44100 1 .auto) twoChunks := by
    decide +kernel
  have himages : List.Forall₂ (fun m payload => m.Image payload)
      (audioMsgs ((Sys.ctor 44100 1 .auto).run twoChunks).log) twoPayloads :=
    List.forall₂_map_right_iff.2 (List.forall₂_same.2 fun m _ => m.image_zeroed)
  have htype : msgType 0x05001002 = msgData := by decide
  have hsent : twoPassed.sentPayloads 0x05001002 = twoPayloads := by decide +kernel
  have hinit : twoPassed.sentPayloads 0x05001002 <+: twoPayloads := by rw [hsent]
  have hpos : twoPassed.rxPos = twoPassed.txPos := by decide +kernel
  have hchunks : (Sys.ctor 44100 1 .auto).announced twoChunks = [1, 2, 3, 4] := by decide +kernel
  rw [← hchunks]
  obtain ⟨-, hall⟩ := samples_delivered hok himages Slots.Inbox.fourSlots (fun _ _ => 0)
    (passed twoMessages) htype hinit
  exact hall (by decide +kernel) (by decide +kernel) hsent hpos

end Sound
