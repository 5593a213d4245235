-- SUMMARY: The stream that a sender writes: frames, the packets that they are read as, and the counters of the slot ring.
import Ampi.Layout
import Ampi.Vchiq.Slots
import Mathlib.Data.Finset.Card

/-!
# Streams

What the slots of a sender mean: a list of frames, messages and padding, laid end to
end over slots of 4096 bytes. Positions are unbounded, and the use of a slot is named by
its place in the stream, so that the same slot has many names one after the other.
-/

namespace Slots

open Layout (total placed InBlocks)

/-! ## Frames -/

inductive Frame where
  | message (m : Message)
  | padding (size : UInt32) (fits : size.toNat ≤ maxMsgSize.toNat)

namespace Frame

def msgid : Frame → UInt32
  | message m => m.msgid
  | padding _ _ => msgidPadding

def size : Frame → UInt32
  | message m => m.size
  | padding size _ => size

def stride (f : Frame) : Nat := (calcStride f.size).toNat

def message? : Frame → Option Message
  | message m => some m
  | padding _ _ => none

/-- What lies behind the header of padding does not matter. -/
def ReadsAs : Frame → Packet → Prop
  | message m, p => p = m.packet
  | padding size _, p => p.msgid = msgidPadding ∧ p.size = size

end Frame

/-- The messages among the frames. -/
def messages (frames : List Frame) : List Message := frames.filterMap Frame.message?

@[simp] theorem messages_append (frames frames' : List Frame) :
    messages (frames ++ frames') = messages frames ++ messages frames' := List.filterMap_append ..

theorem Message.toNat_size (m : Message) : m.size.toNat = m.elements.flatten.length := by
  have hmax : maxMsgSize.toNat = 4088 := rfl
  have := m.fits
  rw [Message.size, UInt32.toNat_ofNat']
  omega

namespace Frame

variable {f : Frame} {p : Packet}

theorem size_le (f : Frame) : f.size.toNat ≤ 4088 := by
  cases f with
  | message m => exact m.toNat_size.trans_le m.fits
  | padding size fits => exact fits

theorem stride_eq (f : Frame) : f.stride = (f.size.toNat + 15) / 8 * 8 := by
  have := f.size_le
  rw [stride, calcStride_toNat]
  omega

@[simp] theorem ofNat_stride (f : Frame) : .ofNat f.stride = calcStride f.size :=
  UInt32.ofNat_toNat

theorem dvd_stride (f : Frame) : 8 ∣ f.stride := by
  rw [stride_eq]
  exact Nat.dvd_mul_left 8 _

theorem size_add_le_stride (f : Frame) : f.size.toNat + 8 ≤ f.stride := by
  rw [stride_eq]
  omega

theorem stride_le (f : Frame) : f.stride ≤ 4096 := by
  have := f.size_le
  rw [stride_eq]
  omega

theorem ReadsAs.msgid_eq (h : f.ReadsAs p) : p.msgid = f.msgid := by
  cases f with
  | message m =>
    obtain rfl : p = m.packet := h
    rfl
  | padding size fits => exact h.1

theorem ReadsAs.size_eq (h : f.ReadsAs p) : p.size = f.size := by
  cases f with
  | message m =>
    obtain rfl : p = m.packet := h
    rfl
  | padding size fits => exact h.2

end Frame

/-! ## Packets in memory -/

variable {b b' : Block} {off : Nat} {m : Message}

theorem loadPacket_congr (hsize : ∀ i, off ≤ i → i < off + 8 → b' i = b i)
    (hdata : ∀ i, off + 8 ≤ i → i < off + 8 + (b.loadWord (off + 4)).toNat → b' i = b i) :
    loadPacket b' off = loadPacket b off := by
  have hmsgid : b'.loadWord off = b.loadWord off :=
    Block.loadWord_congr fun i hlo hhi => hsize i hlo (by omega)
  have hword : b'.loadWord (off + 4) = b.loadWord (off + 4) :=
    Block.loadWord_congr fun i hlo hhi => hsize i (by omega) (by omega)
  simp only [loadPacket, hmsgid, hword, Block.load_congr hdata]

theorem storeHeader_of_disjoint {msgid size : UInt32} {i : Nat} (h : i < off ∨ off + 8 ≤ i) :
    storeHeader b off msgid size i = b i := by
  unfold storeHeader
  rw [Block.storeWord_of_disjoint (by omega), Block.storeWord_of_disjoint (by omega)]

theorem loadPacket_storeHeader {msgid size : UInt32} :
    loadPacket (storeHeader b off msgid size) off =
      ⟨msgid, size, b.load (off + 8) size.toNat⟩ := by
  have hmsgid : (storeHeader b off msgid size).loadWord off = msgid :=
    calc (storeHeader b off msgid size).loadWord off
      _ = (b.storeWord off msgid).loadWord off :=
        Block.loadWord_congr fun i hlo hhi => Block.storeWord_of_disjoint (by omega)
      _ = msgid := Block.loadWord_storeWord
  have hsize : (storeHeader b off msgid size).loadWord (off + 4) = size :=
    Block.loadWord_storeWord
  have hdata : (storeHeader b off msgid size).load (off + 8) size.toNat =
      b.load (off + 8) size.toNat :=
    Block.load_congr fun i hlo hhi => storeHeader_of_disjoint (by omega)
  simp only [loadPacket, hmsgid, hsize, hdata]

theorem copyElements_eq (pos : Nat) (elements : List (List UInt8)) :
    copyElements b pos elements = b.store pos elements.flatten := by
  induction elements generalizing b pos with
  | nil => simp [copyElements]
  | cons e elements ih => simp [copyElements, ih, Block.store_append]

/-- Both ways of copying write the concatenation of the elements. -/
theorem storeMessage_eq (b : Block) (off : Nat) (m : Message) :
    storeMessage b off m =
      storeHeader (b.store (off + 8) m.elements.flatten) off m.msgid m.size := by
  unfold storeMessage
  split
  · rw [copyElements_eq]
  · next hctrl =>
    have hsingle := m.single hctrl
    match helem : m.elements with
    | [] => simp
    | [e] => simp
    | e :: e' :: _ => simp [helem] at hsingle

theorem loadPacket_storeMessage : loadPacket (storeMessage b off m) off = m.packet := by
  rw [storeMessage_eq, loadPacket_storeHeader, m.toNat_size, Block.load_store]
  rfl

theorem storeMessage_of_lt {i : Nat} (h : i < off) : storeMessage b off m i = b i := by
  rw [storeMessage_eq, storeHeader_of_disjoint (.inl h), Block.store_of_disjoint (.inl (by omega))]

/-! ## Streams -/

structure Stream where
  /-- Everything the sender has written, in order. -/
  frames : List Frame := []
  /-- How many frames the receiver may look at, and how many it has handled. -/
  published : Nat := 0
  parsed : Nat := 0
  /-- Where the receiver stands. -/
  rx : Nat := 0
  /-- How many slots the sender has taken, may take, and has been given back, counting
  the slots it had at the start. -/
  taken : Nat := 0
  available : Nat
  recycled : Nat
  /-- The uses of slots that the receiver has given back. -/
  released : Finset Nat := ∅
  /-- The finished use that is just losing a reference. -/
  dropping : Option Nat := none
  /-- The slot of each use. -/
  slotOf : Nat → Nat

namespace Stream

variable {g : Stream} {f : Frame} {n : Nat}

/-- Nothing written yet, and the slots in the ring in their order. -/
def init (r : SlotRange) : Stream where
  available := r.count
  recycled := r.count
  slotOf k := r.slotFirst + k

/-- Where the frame `n` of the stream starts. -/
def upTo (g : Stream) (n : Nat) : Nat := total Frame.stride (g.frames.take n)

/-- Where the stream ends. -/
def tx (g : Stream) : Nat := total Frame.stride g.frames

theorem upTo_mono {m n : Nat} (h : m ≤ n) : g.upTo m ≤ g.upTo n := Layout.total_take_le_take h

theorem upTo_succ (h : g.frames[n]? = some f) : g.upTo (n + 1) = g.upTo n + f.stride :=
  Layout.total_take_succ h

theorem upTo_length : g.upTo g.frames.length = g.tx := by
  rw [upTo, tx, List.take_length]

theorem upTo_le_tx (g : Stream) (n : Nat) : g.upTo n ≤ g.tx := by
  have := Layout.total_take_add_drop Frame.stride g.frames n
  rw [upTo, tx]
  omega

theorem dvd_upTo (g : Stream) (n : Nat) : 8 ∣ g.upTo n :=
  Layout.dvd_total fun f _ => f.dvd_stride

/-- Every frame takes up room. -/
theorem upTo_lt {m n : Nat} (h : m < n) (hn : n ≤ g.frames.length) : g.upTo m < g.upTo n := by
  have hm : g.frames[m]? = some g.frames[m] := List.getElem?_eq_getElem (by omega)
  have hsize := Frame.size_add_le_stride g.frames[m]
  have hsucc := upTo_succ hm
  have := g.upTo_mono (m := m + 1) h
  omega

theorem placed_upTo (h : g.frames[n]? = some f) :
    (g.upTo n, f) ∈ placed Frame.stride 0 g.frames := by
  have hx : (0 + g.upTo n, f) ∈ placed Frame.stride 0 g.frames := Layout.placed_of_getElem? h
  rwa [Nat.zero_add] at hx

/-- The sender adds a frame. -/
def push (g : Stream) (f : Frame) : Stream := { g with frames := g.frames ++ [f] }

theorem take_push (h : n ≤ g.frames.length) : (g.push f).frames.take n = g.frames.take n :=
  List.take_append_of_le_length h

/-- What has been written and not published, after another frame. -/
theorem messages_drop_push (h : g.published ≤ g.frames.length) :
    messages ((g.push f).frames.drop g.published) =
      messages (g.frames.drop g.published) ++ messages [f] := by
  rw [push, List.drop_append_of_le_length h, messages_append]

theorem messages_drop_eq_nil (h : g.published = g.frames.length) :
    messages (g.frames.drop g.published) = [] := by
  rw [h, List.drop_length]
  rfl

theorem upTo_push (h : n ≤ g.frames.length) : (g.push f).upTo n = g.upTo n := by
  rw [upTo, take_push h, upTo]

theorem tx_push : (g.push f).tx = g.tx + f.stride := by
  simp [tx, push]

theorem placed_push (pos : Nat) :
    placed Frame.stride pos (g.push f).frames =
      placed Frame.stride pos g.frames ++ [(pos + g.tx, f)] :=
  Layout.placed_append

end Stream

end Slots
