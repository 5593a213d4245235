-- SUMMARY: What one call of WriteChunk queues: a header and the packets of the chunk, up to the send that fails.
import Ampi.Sound.Device
import Mathlib.Algebra.Group.Nat.Defs
import Mathlib.Order.Basic

/-!
# Packets

One call of `WriteChunk` on its own, with the results of its sends. The announced count, the
bytes sent and the position are those of the chunk, at every remainder.
-/

namespace Sound

/-- The sends of `WriteChunk` from `next` on, with their results: the messages queued, and
where it has got to. -/
def Device.sends (d : Device) : WriteNext → List Int → Device × List AudioMsg × WriteNext
  | .send w, nResult :: results =>
    let (d, next) := d.sendReturned w nResult
    let (d, ms, last) := d.sends next results
    (d, if nResult = 0 then w.msg :: ms else ms, last)
  | next, _ => (d, [], next)

/-- A call of `WriteChunk`, with what the chunk callback returns. -/
def Device.callWriteChunk (d : Device) (r : ChunkReturn) (results : List Int) :
    Device × List AudioMsg × WriteNext :=
  match d.writeChunk with
  | .callback =>
    let (d, next) := d.chunkReturned r
    d.sends next results
  | next => (d, [], next)

/-- The `WRITE` that announces a chunk. -/
def writeHeader (nBytes : UInt32) : AudioMsg :=
  .write nBytes writeCookie1 writeCookie2 0 maxPacket

/-- The first `n` bytes of a buffer from an offset on. -/
def Buffer.bytes (buffer : Buffer) (offset n : Nat) : List UInt8 :=
  (List.range n).map fun i => buffer (offset + i)

theorem Buffer.bytes_add (buffer : Buffer) (offset m n : Nat) :
    buffer.bytes offset (m + n) = buffer.bytes offset m ++ buffer.bytes (offset + m) n := by
  simp only [bytes, List.range_add, List.map_append, List.map_map, Function.comp_def,
    Nat.add_assoc]

@[simp] theorem Buffer.length_bytes (buffer : Buffer) (offset n : Nat) :
    (buffer.bytes offset n).length = n := by
  simp [bytes]

/-- The chunk `bytes` cut into packets. -/
structure Cut (packets : List (List UInt8)) (bytes : List UInt8) : Prop where
  flatten : packets.flatten = bytes
  size : ∀ p ∈ packets, p ≠ [] ∧ p.length ≤ maxPacket.toNat
  full : ∀ p ∈ packets.dropLast, p.length = maxPacket.toNat

theorem bytesToQueue_toNat (nBytes : UInt32) :
    (bytesToQueue nBytes).toNat = min nBytes.toNat maxPacket.toNat := by
  rw [bytesToQueue]
  split
  case isTrue hle =>
    have := UInt32.le_iff_toNat_le.1 hle
    omega
  case isFalse hlt =>
    rw [UInt32.not_le] at hlt
    have := UInt32.lt_iff_toNat_lt.1 hlt
    omega

theorem sub_bytesToQueue_toNat (nBytes : UInt32) :
    (nBytes - bytesToQueue nBytes).toNat = nBytes.toNat - (bytesToQueue nBytes).toNat := by
  have hmin := bytesToQueue_toNat nBytes
  exact UInt32.toNat_sub_of_le _ _ (UInt32.le_iff_toNat_le.2 (by omega))

namespace Device

/-- The loop over the packets: what it queues when no send fails, and when one does. -/
structure Loop (d : Device) (next : WriteNext) (ms : List AudioMsg) : Prop where
  sent : d.sends next (List.replicate ms.length 0) = (d, ms, .ret 0)
  failed : ∀ k < ms.length, ∀ nResult : Int, nResult ≠ 0 →
    d.sends next (List.replicate k 0 ++ [nResult]) = (d, ms.take k, .ret nResult)

theorem sends_ok {d d' : Device} {w : WritePc} {next : WriteNext}
    (hw : d.sendReturned w 0 = (d', next)) (results : List Int) :
    d.sends (.send w) (0 :: results) =
      ((d'.sends next results).1, w.msg :: (d'.sends next results).2.1,
        (d'.sends next results).2.2) := by
  rw [sends, hw]
  rfl

theorem sends_fail (d : Device) (w : WritePc) {nResult : Int} (hr : nResult ≠ 0)
    (results : List Int) : d.sends (.send w) (nResult :: results) = (d, [], .ret nResult) := by
  have hfail : d.sendReturned w nResult = (d, .ret nResult) := if_pos hr
  rw [sends, hfail]
  simp [hr, sends]

theorem Loop.ret (d : Device) : d.Loop (.ret 0) [] where
  sent := rfl
  failed := nofun

theorem Loop.send {d : Device} {w : WritePc} {next : WriteNext} {ms : List AudioMsg}
    (h : d.Loop next ms) (hw : d.sendReturned w 0 = (d, next)) :
    d.Loop (.send w) (w.msg :: ms) where
  sent := by
    rw [List.length_cons, List.replicate_succ, sends_ok hw, h.sent]
  failed k hk nResult hr := by
    cases k with
    | zero => exact d.sends_fail w hr []
    | succ k =>
      rw [List.replicate_succ, List.cons_append, sends_ok hw,
        h.failed k (Nat.lt_of_succ_lt_succ hk) nResult hr]
      rfl

/-- By induction on the bytes that are left. -/
theorem exists_packets (d : Device) (buffer : Buffer) (nBytes : UInt32) (offset : Nat) :
    ∃ packets, Cut packets (buffer.bytes offset nBytes.toNat) ∧
      d.Loop (packetLoop nBytes buffer offset) (packets.map .data) := by
  generalize hn : nBytes.toNat = n
  induction n using Nat.strongRecOn generalizing nBytes offset with
  | _ n ih =>
    by_cases hzero : nBytes = 0
    · subst hzero
      obtain rfl : 0 = n := hn
      rw [packetLoop, if_pos rfl]
      exact ⟨[], ⟨rfl, nofun, nofun⟩, .ret d⟩
    · have hpos : 0 < nBytes.toNat := Nat.pos_of_ne_zero fun h => hzero (UInt32.toNat_inj.1 h)
      have hmin := bytesToQueue_toNat nBytes
      have hmax : maxPacket.toNat = 4000 := rfl
      have hsub := sub_bytesToQueue_toNat nBytes
      obtain ⟨packets, hcut, hloop⟩ := ih _ (by omega) (nBytes - bytesToQueue nBytes)
        (offset + (bytesToQueue nBytes).toNat) rfl
      have hbytes : n = (bytesToQueue nBytes).toNat + (nBytes - bytesToQueue nBytes).toNat := by
        omega
      refine ⟨buffer.bytes offset (bytesToQueue nBytes).toNat :: packets, ⟨?_, ?_, ?_⟩, ?_⟩
      · rw [List.flatten_cons, hcut.flatten, hbytes, buffer.bytes_add]
      · refine List.forall_mem_cons.2 ⟨⟨?_, ?_⟩, hcut.size⟩
        · rw [← List.length_pos_iff, Buffer.length_bytes]
          omega
        · rw [Buffer.length_bytes]
          omega
      · cases packets with
        | nil => exact nofun
        | cons p packets =>
          rw [List.dropLast_cons_cons]
          refine List.forall_mem_cons.2 ⟨?_, hcut.full⟩
          -- another packet follows, so bytes are left behind this one
          have hleft : 0 < (nBytes - bytesToQueue nBytes).toNat := by
            have hlen := congrArg List.length hcut.flatten
            have hp := List.length_pos_iff.2 (hcut.size p List.mem_cons_self).1
            rw [List.flatten_cons, List.length_append, Buffer.length_bytes] at hlen
            omega
          rw [Buffer.length_bytes]
          omega
      · rw [packetLoop, if_neg hzero]
        exact hloop.send rfl

/-- A chunk goes out as one header and its packets; a send that fails is the last. -/
theorem callWriteChunk_queues (d : Device) (hd : d.chunkCallback = true) (nWords : UInt32)
    (buffer : Buffer) (hpos : 0 < nWords.toNat) (hwords : 2 * nWords.toNat < 2 ^ 32) :
    ∃ packets, Cut packets (buffer.bytes 0 (2 * nWords.toNat)) ∧
      d.callWriteChunk ⟨nWords, some buffer⟩ (List.replicate (packets.length + 1) 0) =
        ({ d with writePos := d.writePos + .ofNat (2 * nWords.toNat) },
          writeHeader (.ofNat (2 * nWords.toNat)) :: packets.map .data, .ret 0) ∧
      ∀ k ≤ packets.length, ∀ nResult : Int, nResult ≠ 0 →
        (d.callWriteChunk ⟨nWords, some buffer⟩ (List.replicate k 0 ++ [nResult])).2 =
          ((writeHeader (.ofNat (2 * nWords.toNat)) :: packets.map .data).take k,
            .ret nResult) := by
  have hbytes : nWords * 2 = .ofNat (2 * nWords.toNat) := by
    rw [← UInt32.toNat_inj, UInt32.toNat_mul, UInt32.toNat_ofNat']
    show nWords.toNat * 2 % 2 ^ 32 = _
    rw [Nat.mul_comm]
  have htoNat : (UInt32.ofNat (2 * nWords.toNat)).toNat = 2 * nWords.toNat := by
    rw [UInt32.toNat_ofNat', Nat.mod_eq_of_lt hwords]
  have hne : nWords ≠ 0 := by
    rintro rfl
    exact absurd hpos (Nat.lt_irrefl 0)
  have hcall (results : List Int) : d.callWriteChunk ⟨nWords, some buffer⟩ results =
      d.sends (.send (.header (.ofNat (2 * nWords.toNat)) buffer)) results := by
    simp only [callWriteChunk, writeChunk, hd, if_true, chunkReturned, if_neg hne, hbytes]
  obtain ⟨packets, hcut, hloop⟩ := exists_packets
    { d with writePos := d.writePos + .ofNat (2 * nWords.toNat) } buffer
    (.ofNat (2 * nWords.toNat)) 0
  rw [htoNat] at hcut
  have hheader : d.sendReturned (.header (.ofNat (2 * nWords.toNat)) buffer) 0 =
      ({ d with writePos := d.writePos + .ofNat (2 * nWords.toNat) },
        packetLoop (.ofNat (2 * nWords.toNat)) buffer 0) := rfl
  refine ⟨packets, hcut, ?_, fun k hk nResult hr => ?_⟩
  · have hsent := hloop.sent
    rw [List.length_map] at hsent
    rw [hcall, List.replicate_succ, sends_ok hheader, hsent]
    rfl
  · rw [hcall]
    cases k with
    | zero => exact congrArg Prod.snd (d.sends_fail _ hr [])
    | succ k =>
      have hlt : k < (packets.map AudioMsg.data).length := by
        rw [List.length_map]
        exact hk
      rw [List.replicate_succ, List.cons_append, sends_ok hheader, hloop.failed k hlt nResult hr]
      rfl

/-- 2001 words are a packet of 4000 bytes and one of 2. -/
theorem callWriteChunk_queues_two :
    ∃ packets, Cut packets (Buffer.bytes (fun _ => 7) 0 (2 * UInt32.toNat 2001)) ∧
      callWriteChunk ⟨true, 44100, 2001, .auto, .running, false, 0, 0, 0⟩
          ⟨2001, some fun _ => 7⟩ (List.replicate (packets.length + 1) 0) =
        (⟨true, 44100, 2001, .auto, .running, false, 0, 0 + .ofNat (2 * UInt32.toNat 2001), 0⟩,
          writeHeader (.ofNat (2 * UInt32.toNat 2001)) :: packets.map .data, .ret 0) ∧
      ∀ k ≤ packets.length, ∀ nResult : Int, nResult ≠ 0 →
        (callWriteChunk ⟨true, 44100, 2001, .auto, .running, false, 0, 0, 0⟩
          ⟨2001, some fun _ => 7⟩ (List.replicate k 0 ++ [nResult])).2 =
          ((writeHeader (.ofNat (2 * UInt32.toNat 2001)) :: packets.map .data).take k,
            .ret nResult) :=
  callWriteChunk_queues ⟨true, 44100, 2001, .auto, .running, false, 0, 0, 0⟩ rfl 2001
    (fun _ => 7) (by decide) (by decide)

end Device

end Sound
