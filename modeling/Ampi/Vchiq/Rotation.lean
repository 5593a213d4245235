-- SUMMARY: The ring of slots under any peer: which frames each slot holds, and what every part of a step does to them.
import Ampi.Vchiq.Turnover

/-!
# Rotation

The slots of the sender go round: taken in the order of the ring, filled with frames, parsed
by the peer, given back in any order, processed. `Stands r s g`: the state `s` stands for the
ring `g`, in which each slot has the frames put into it since it was processed. A slot
that is full scans as its frames, whoever has it.
-/

namespace Turnover

open Slots
open Layout (total placed)

/-! ## Slots with frames -/

def header (f : Frame) : UInt32 × UInt32 := (f.msgid, f.size)

/-- The frames stand in the block from its start on. -/
def Laid (b : Block) (fs : List Frame) : Prop :=
  ∀ x ∈ placed Frame.stride 0 fs, b.loadWord x.1 = x.2.msgid ∧ b.loadWord (x.1 + 4) = x.2.size

variable {b b' : Block} {f : Frame} {fs : List Frame} {pos fuel : Nat}

theorem Laid.append (h : Laid b fs) (hkeep : ∀ i < total Frame.stride fs, b' i = b i)
    (hmsgid : b'.loadWord (total Frame.stride fs) = f.msgid)
    (hsize : b'.loadWord (total Frame.stride fs + 4) = f.size) : Laid b' (fs ++ [f]) := by
  intro x hx
  rw [Layout.placed_append, List.mem_append, Nat.zero_add] at hx
  rcases hx with hx | hx
  · have hend := Layout.end_le_of_placed hx
    have hstride := x.2.size_add_le_stride
    obtain ⟨hword, hword'⟩ := h x hx
    constructor
    · rw [← hword]
      exact Block.loadWord_congr fun i _ hi => hkeep i (by omega)
    · rw [← hword']
      exact Block.loadWord_congr fun i _ hi => hkeep i (by omega)
  · obtain rfl := List.mem_singleton.1 hx
    exact ⟨hmsgid, hsize⟩

theorem scan_of_words
    (h : ∀ x ∈ placed Frame.stride pos fs,
      b.loadWord x.1 = x.2.msgid ∧ b.loadWord (x.1 + 4) = x.2.size)
    (hend : pos + total Frame.stride fs = 4096) (hfuel : fs.length < fuel) :
    scan b fuel (.ofNat pos) = some (fs.map header) := by
  induction fs generalizing pos fuel with
  | nil =>
    obtain ⟨fuel, rfl⟩ := Nat.exists_eq_add_one_of_ne_zero hfuel.ne'
    obtain rfl : pos = 4096 := hend
    rfl
  | cons f fs ih =>
    rw [List.length_cons] at hfuel
    obtain ⟨fuel, rfl⟩ : ∃ n, fuel = n + 1 := ⟨fuel - 1, by omega⟩
    rw [Layout.total_cons] at hend
    have hstride := f.size_add_le_stride
    obtain ⟨hmsgid, hsize⟩ := h (pos, f) List.mem_cons_self
    dsimp only at hmsgid hsize
    have hnat : (UInt32.ofNat pos).toNat = pos := by
      rw [UInt32.toNat_ofNat']
      omega
    have hlt : UInt32.ofNat pos < slotSize := by
      rw [UInt32.lt_iff_toNat_lt, hnat]
      change pos < 4096
      omega
    have hrest : scan b fuel (.ofNat (pos + f.stride)) = some (fs.map header) :=
      ih (fun x hx => h x (List.mem_cons_of_mem _ hx)) (by omega) (Nat.lt_of_succ_lt_succ hfuel)
    rw [scan, if_pos hlt, hnat]
    dsimp only
    rw [hsize, hmsgid, ← Frame.ofNat_stride, ← UInt32.ofNat_add, hrest]
    rfl

/-- A slot that the frames fill. -/
theorem Laid.scan (h : Laid b fs) (htotal : total Frame.stride fs = 4096) :
    scan b walkFuel 0 = some (fs.map header) := by
  have hlength : fs.length * 8 ≤ total Frame.stride fs := by
    apply Layout.length_mul_le_total
    intro f _
    have := f.size_add_le_stride
    omega
  have hfuel : walkFuel = 513 := rfl
  have hscan : Turnover.scan b walkFuel (.ofNat 0) = some (fs.map header) :=
    scan_of_words h (by omega) (by omega)
  exact hscan

/-! ## The ring -/

structure Ring where
  /-- The frames put into each slot since it was processed. -/
  frames : Nat → List Frame := fun _ => []
  /-- Where the sender's stream ends. -/
  tx : Nat := 0
  /-- How many slots the sender has taken, may take, and has been given back, counting
  the slots it had at the start. -/
  taken : Nat := 0
  available : Nat
  recycled : Nat
  /-- The slot of each use. -/
  slotOf : Nat → Nat
  /-- How many uses the peer has parsed, and the slots of them that it still has. -/
  read : Nat := 0
  parsed : List Nat := []

/-- The slot is filled to its end, and not processed since. -/
def Ring.Full (g : Ring) (slot : Nat) : Prop :=
  slot ∈ g.parsed ∨ ∃ k, slot = g.slotOf k ∧
    (g.read ≤ k ∧ (k + 1) * 4096 ≤ g.tx ∨ g.available ≤ k ∧ k < g.recycled)

/-- The sender adds a frame in the use `k`. -/
def Ring.push (g : Ring) (k : Nat) (f : Frame) : Ring :=
  { g with
    frames := Function.update g.frames (g.slotOf k) (g.frames (g.slotOf k) ++ [f])
    tx := g.tx + f.stride }

structure Stands (r : SlotRange) (s : Slots.State) (g : Ring) : Prop where
  tx_le : g.tx ≤ g.taken * 4096
  taken_le : g.taken ≤ g.available
  available_le : g.available ≤ g.recycled
  txPos : ∃ n, s.txPos = .ofNat n ∧ g.read * 4096 ≤ n ∧ n ≤ g.tx
  slotQueueRecycle : s.slotQueueRecycle = .ofNat g.recycled
  slotQueueAvailable : s.slotQueueAvailable = .ofNat g.available
  slotAvailable : g.taken + s.slotAvailable = g.available
  entry : ∀ k, g.read ≤ k → k < g.recycled → s.slotQueue (.ofNat (k % 64)) = g.slotOf k
  /-- Each slot is in the ring or with the peer. -/
  places : ((List.range' g.read (g.recycled - g.read)).map g.slotOf ++ g.parsed).Perm r.slots
  short : ∀ slot, total Frame.stride (g.frames slot) ≤ 4096
  empty : ∀ k, g.taken ≤ k → k < g.available → g.frames (g.slotOf k) = []
  full : ∀ slot, g.Full slot →
    scan (s.slotData slot) walkFuel 0 = some ((g.frames slot).map header)
  /-- The slot that the sender is in. -/
  current : ∀ k, g.taken = k + 1 → g.tx < g.taken * 4096 →
    Laid (s.slotData (g.slotOf k)) (g.frames (g.slotOf k)) ∧
      k * 4096 + total Frame.stride (g.frames (g.slotOf k)) = g.tx
  txData : ∀ k, g.taken = k + 1 → s.txData = some (g.slotOf k)
  written : (s.written.map fun h => (calcStride h.size).toNat).sum = g.tx

/-- Where the sender stands in the ring. -/
def SenderIn (s : Slots.State) (g : Ring) : Prop :=
  match s.sender with
  | .idle | .publishing _ => s.localTxPos = .ofNat g.tx ∧ g.taken * 4096 < g.tx + 4096
  | .waiting _ => s.localTxPos = .ofNat g.tx ∧ g.tx = g.taken * 4096
  | .filling m slot off =>
    g.taken = g.tx / 4096 + 1 ∧ slot = g.slotOf (g.tx / 4096) ∧ off = g.tx % 4096 ∧
      off + (Frame.message m).stride ≤ 4096 ∧
      s.localTxPos = .ofNat (g.tx + (Frame.message m).stride)
  | .fault => False

namespace Stands

variable {r : SlotRange} {s : Slots.State} {g : Ring} {k : Nat}

/-! ## Places -/

theorem read_le (h : Stands r s g) : g.read ≤ g.taken := by
  obtain ⟨n, -, hlo, hhi⟩ := h.txPos
  have := h.tx_le
  omega

theorem length_le (h : Stands r s g) : g.recycled + g.parsed.length ≤ g.read + 64 := by
  have hlength := h.places.length_eq
  have hread := h.read_le
  have htaken := h.taken_le
  have havail := h.available_le
  have hfits : r.slotLast + 1 - r.slotFirst ≤ 64 := r.fits
  rw [List.length_append, List.length_map, List.length_range', SlotRange.slots,
    List.length_range', SlotRange.count] at hlength
  omega

theorem nodup (h : Stands r s g) :
    ((List.range' g.read (g.recycled - g.read)).map g.slotOf ++ g.parsed).Nodup :=
  h.places.nodup_iff.2 r.nodup_slots

theorem mem_uses {j : Nat} (hlo : g.read ≤ j) (hhi : j < g.recycled) :
    j ∈ List.range' g.read (g.recycled - g.read) := by
  rw [List.mem_range'_1]
  omega

theorem slotOf_inj (h : Stands r s g) {i j : Nat} (hi : g.read ≤ i) (hi' : i < g.recycled)
    (hj : g.read ≤ j) (hj' : j < g.recycled) (heq : g.slotOf i = g.slotOf j) : i = j :=
  List.inj_on_of_nodup_map (List.nodup_append.1 h.nodup).1 (mem_uses hi hi') (mem_uses hj hj') heq

theorem slotOf_notMem (h : Stands r s g) (hlo : g.read ≤ k) (hhi : k < g.recycled) :
    g.slotOf k ∉ g.parsed := fun hmem =>
  (List.nodup_append.1 h.nodup).2.2 _ (List.mem_map_of_mem (mem_uses hlo hhi)) _ hmem rfl

theorem slotOf_mem (h : Stands r s g) (hlo : g.read ≤ k) (hhi : k < g.recycled) :
    g.slotOf k ∈ r.slots :=
  h.places.mem_iff.1 (List.mem_append_left _ (List.mem_map_of_mem (mem_uses hlo hhi)))

/-! ## The sender -/

/-- Writing another frame in the slot that was taken last. -/
theorem append (h : Stands r s g) (hk : g.taken = k + 1)
    (hfit : g.tx + f.stride ≤ (k + 1) * 4096)
    (hkeep : ∀ i < g.tx - k * 4096, b i = s.slotData (g.slotOf k) i)
    (hmsgid : b.loadWord (g.tx - k * 4096) = f.msgid)
    (hsize : b.loadWord (g.tx - k * 4096 + 4) = f.size) (pos : UInt32) :
    Stands r
      { s with
        slotData := Function.update s.slotData (g.slotOf k) b
        written := s.written ++ [⟨pos, f.msgid, f.size⟩] }
      (g.push k f) := by
  have hstride := f.size_add_le_stride
  have htaken := h.taken_le
  have havail := h.available_le
  have hread : g.read ≤ k := by
    obtain ⟨n, -, hlo, hhi⟩ := h.txPos
    omega
  obtain ⟨hlaid, htotal⟩ := h.current k hk (by omega)
  have hoff : g.tx - k * 4096 = total Frame.stride (g.frames (g.slotOf k)) := by omega
  rw [hoff] at hkeep hmsgid hsize
  have hlaid' : Laid b (g.frames (g.slotOf k) ++ [f]) := hlaid.append hkeep hmsgid hsize
  have htotal' : total Frame.stride (g.frames (g.slotOf k) ++ [f]) =
      total Frame.stride (g.frames (g.slotOf k)) + f.stride := by
    rw [Layout.total_append, Layout.total_cons, Layout.total_nil, Nat.add_zero]
  have hself : (g.push k f).frames (g.slotOf k) = g.frames (g.slotOf k) ++ [f] :=
    Function.update_self ..
  have hother {slot : Nat} (hne : slot ≠ g.slotOf k) :
      (g.push k f).frames slot = g.frames slot := Function.update_of_ne hne ..
  refine { h with
    tx_le := ?_, txPos := ?_, short := ?_, empty := ?_, full := ?_, current := ?_, written := ?_ }
  · rw [← hk] at hfit
    exact hfit
  · obtain ⟨n, hn, hlo, hhi⟩ := h.txPos
    exact ⟨n, hn, hlo, hhi.trans (Nat.le_add_right ..)⟩
  · intro slot
    by_cases hslot : slot = g.slotOf k
    · rw [hslot, hself, htotal']
      omega
    · rw [hother hslot]
      exact h.short slot
  · intro j hlo hhi
    change (g.push k f).frames (g.slotOf j) = []
    dsimp only [Ring.push] at hlo hhi
    rw [hother]
    · exact h.empty j hlo hhi
    · intro heq
      have := h.slotOf_inj (by omega) (by omega) hread (by omega) heq
      omega
  · intro slot hfull
    dsimp only
    by_cases hslot : slot = g.slotOf k
    · -- the slot that has been filled up
      have hend : (k + 1) * 4096 ≤ g.tx + f.stride := by
        rcases hfull with hmem | ⟨j, heq, ⟨hlo, hend⟩ | ⟨hback, hrec⟩⟩
        · exact absurd (hslot ▸ hmem) (h.slotOf_notMem hread (by omega))
        · dsimp only [Ring.push] at heq hlo hend
          obtain rfl := h.slotOf_inj hread (by omega) hlo (by omega) (hslot.symm.trans heq)
          exact hend
        · dsimp only [Ring.push] at heq hback hrec
          have := h.slotOf_inj hread (by omega) (by omega) hrec (hslot.symm.trans heq)
          omega
      rw [hslot, hself, Function.update_self]
      exact hlaid'.scan (by omega)
    · rw [hother hslot, Function.update_of_ne hslot]
      apply h.full
      refine hfull.imp_right fun ⟨j, heq, hj⟩ => ⟨j, heq, hj.imp_left fun ⟨hlo, hend⟩ => ⟨hlo, ?_⟩⟩
      dsimp only [Ring.push] at heq hend
      have hne : j ≠ k := fun hjk => hslot (hjk ▸ heq)
      omega
  · intro j hj hlt
    dsimp only [Ring.push] at hj hlt
    obtain rfl : k = j := by omega
    change Laid (Function.update s.slotData (g.slotOf k) b (g.slotOf k))
      ((g.push k f).frames (g.slotOf k)) ∧
        k * 4096 + total Frame.stride ((g.push k f).frames (g.slotOf k)) = g.tx + f.stride
    rw [Function.update_self, hself, htotal']
    exact ⟨hlaid', by omega⟩
  · dsimp only
    rw [List.map_append, List.sum_append, h.written]
    rfl

/-- The next slot in the ring is taken. -/
theorem take (h : Stands r s g) (hfree : 0 < s.slotAvailable) (htx : g.tx = g.taken * 4096) :
    Stands r
      { s with
        slotAvailable := s.slotAvailable - 1
        txData := some (g.slotOf g.taken) }
      { g with taken := g.taken + 1 } := by
  have hcount := h.slotAvailable
  have hlt' : g.taken < g.available := by omega
  refine { h with
    tx_le := ?_, taken_le := ?_, slotAvailable := ?_, empty := ?_, current := ?_, txData := ?_ }
  · exact h.tx_le.trans (Nat.mul_le_mul_right 4096 (Nat.le_succ g.taken))
  · change g.taken + 1 ≤ g.available
    omega
  · change g.taken + 1 + (s.slotAvailable - 1) = g.available
    omega
  · exact fun k hlo hhi => h.empty k (Nat.le_of_succ_le hlo) hhi
  · intro k hk hlt
    obtain rfl : g.taken = k := Nat.succ.inj hk
    dsimp only
    rw [h.empty g.taken le_rfl hlt', Layout.total_nil, Nat.add_zero]
    exact ⟨fun x hx => (by cases hx), htx.symm⟩
  · intro k hk
    obtain rfl : g.taken = k := Nat.succ.inj hk
    rfl

/-- Showing the peer all that has been written. -/
theorem publish (h : Stands r s g) : Stands r { s with txPos := .ofNat g.tx } g := by
  refine { h with txPos := ⟨g.tx, rfl, ?_, le_rfl⟩ }
  obtain ⟨n, -, hlo, hhi⟩ := h.txPos
  exact hlo.trans hhi

theorem slotQueue_taken (h : Stands r s g) (hfree : 0 < s.slotAvailable) :
    s.slotQueue (.ofNat (g.taken % 64)) = g.slotOf g.taken := by
  have := h.slotAvailable
  have := h.available_le
  exact h.entry g.taken h.read_le (by omega)

/-- The assertion of `reserve_space` holds. -/
theorem not_bug (h : Stands r s g) (hfree : 0 < s.slotAvailable) :
    UInt32.ofNat (g.taken * 4096) ≠ s.slotQueueAvailable * slotSize := by
  have hcount := h.slotAvailable
  have havail := h.available_le
  have hlength := h.length_le
  have hread := h.read_le
  rw [h.slotQueueAvailable, ofNat_mul_slotSize]
  intro heq
  have := (ofNat_eq_ofNat (by omega) (by omega)).1 heq
  omega

/-! ## Recycling -/

/-- The slot that `process_free_queue` goes over. -/
theorem slotQueue_available (h : Stands r s g)
    (hne : s.slotQueueAvailable ≠ s.slotQueueRecycle) :
    g.available < g.recycled ∧
      s.slotQueue (s.slotQueueAvailable &&& slotQueueMask) = g.slotOf g.available := by
  have hread := h.read_le
  have htaken := h.taken_le
  have havail := h.available_le
  have hlt : g.available < g.recycled := by
    rw [h.slotQueueAvailable, h.slotQueueRecycle] at hne
    have : g.available ≠ g.recycled := fun heq => hne (by rw [heq])
    omega
  refine ⟨hlt, ?_⟩
  rw [h.slotQueueAvailable, and_slotQueueMask]
  exact h.entry _ (by omega) hlt

theorem process (h : Stands r s g) (hlt : g.available < g.recycled) :
    Stands r
      { s with
        slotQueueAvailable := s.slotQueueAvailable + 1
        slotAvailable := s.slotAvailable + 1 }
      { g with
        available := g.available + 1
        frames := Function.update g.frames (g.slotOf g.available) [] } := by
  have hread := h.read_le
  have htaken := h.taken_le
  have htx := h.tx_le
  have hself : Function.update g.frames (g.slotOf g.available) [] (g.slotOf g.available) = [] :=
    Function.update_self ..
  have hother {slot : Nat} (hne : slot ≠ g.slotOf g.available) :
      Function.update g.frames (g.slotOf g.available) [] slot = g.frames slot :=
    Function.update_of_ne hne ..
  have hne {k : Nat} (hlo : g.read ≤ k) (hhi : k < g.recycled) (hk : k ≠ g.available) :
      g.slotOf k ≠ g.slotOf g.available :=
    fun heq => hk (h.slotOf_inj hlo hhi (by omega) hlt heq)
  refine { h with
    taken_le := ?_, available_le := hlt, slotQueueAvailable := ?_, slotAvailable := ?_,
    short := ?_, empty := ?_, full := ?_, current := ?_ }
  · exact htaken.trans (Nat.le_succ _)
  · dsimp only
    rw [h.slotQueueAvailable, UInt32.ofNat_add]
    rfl
  · exact congrArg Nat.succ h.slotAvailable
  · intro slot
    dsimp only
    by_cases hslot : slot = g.slotOf g.available
    · rw [hslot, hself]
      exact Nat.zero_le _
    · rw [hother hslot]
      exact h.short slot
  · intro k hlo hhi
    dsimp only at hlo hhi ⊢
    by_cases hk : k = g.available
    · rw [hk, hself]
    · rw [hother (hne (by omega) (by omega) hk)]
      exact h.empty k hlo (by omega)
  · intro slot hfull
    dsimp only
    have hold : g.Full slot ∧ slot ≠ g.slotOf g.available := by
      rcases hfull with hmem | ⟨k, rfl, ⟨hlo, hend⟩ | ⟨hback, hrec⟩⟩
      · refine ⟨.inl hmem, ?_⟩
        rintro rfl
        exact h.slotOf_notMem (by omega) hlt hmem
      · dsimp only at hlo hend ⊢
        exact ⟨.inr ⟨k, rfl, .inl ⟨hlo, hend⟩⟩, hne hlo (by omega) (by omega)⟩
      · dsimp only at hback hrec ⊢
        exact ⟨.inr ⟨k, rfl, .inr ⟨by omega, hrec⟩⟩, hne (by omega) hrec (by omega)⟩
    rw [hother hold.2]
    exact h.full slot hold.1
  · intro k hk hopen
    dsimp only at hk hopen ⊢
    obtain ⟨n, -, hlo, hhi⟩ := h.txPos
    rw [hother (hne (by omega) (by omega) (by omega))]
    exact h.current k hk hopen

/-! ## The peer -/

theorem parse (h : Stands r s g) (hend : (g.read + 1) * 4096 ≤ s.txPos.toNat) :
    Stands r s { g with read := g.read + 1, parsed := g.slotOf g.read :: g.parsed } ∧
      s.slotQueue (.ofNat g.read &&& slotQueueMask) = g.slotOf g.read := by
  have htaken := h.taken_le
  have havail := h.available_le
  have htx := h.tx_le
  obtain ⟨n, hn, hlo, hhi⟩ := h.txPos
  have hle : (g.read + 1) * 4096 ≤ n := by
    rw [hn, UInt32.toNat_ofNat'] at hend
    exact hend.trans (Nat.mod_le ..)
  have hlt : g.read < g.recycled := by omega
  refine ⟨{ h with
    txPos := ⟨n, hn, hle, hhi⟩, entry := fun k hlo => h.entry k (Nat.le_of_succ_le hlo),
    places := ?_, full := ?_ }, ?_⟩
  · have hrange : List.range' g.read (g.recycled - g.read) =
        g.read :: List.range' (g.read + 1) (g.recycled - (g.read + 1)) := by
      obtain ⟨n, hn⟩ : ∃ n, g.recycled - g.read = n + 1 := ⟨g.recycled - g.read - 1, by omega⟩
      have hn' : g.recycled - (g.read + 1) = n := by omega
      rw [hn, hn']
      rfl
    have hplaces := h.places
    rw [hrange, List.map_cons, List.cons_append] at hplaces
    exact List.perm_middle.trans hplaces
  · intro slot hfull
    apply h.full
    rcases hfull with hmem | ⟨k, heq, hk⟩
    · rcases List.mem_cons.1 hmem with rfl | hmem
      · exact .inr ⟨g.read, rfl, .inl ⟨le_rfl, hle.trans hhi⟩⟩
      · exact .inl hmem
    · exact .inr ⟨k, heq, hk.imp_left fun ⟨hlo, hend⟩ => ⟨Nat.le_of_succ_le hlo, hend⟩⟩
  · rw [and_slotQueueMask]
    exact h.entry _ le_rfl hlt

theorem giveBack (h : Stands r s g) {slot : Nat} {data : Block} (hmem : slot ∈ g.parsed)
    (hscan : scan data walkFuel 0 = scan (s.slotData slot) walkFuel 0) :
    Stands r
      { s with
        slotData := Function.update s.slotData slot data
        slotQueue := Function.update s.slotQueue (s.slotQueueRecycle &&& slotQueueMask) slot
        slotQueueRecycle := s.slotQueueRecycle + 1 }
      { g with
        recycled := g.recycled + 1
        slotOf := Function.update g.slotOf g.recycled slot
        parsed := g.parsed.erase slot } := by
  have hread := h.read_le
  have htaken := h.taken_le
  have havail := h.available_le
  have htx := h.tx_le
  have hlength := h.length_le
  have hpos := List.length_pos_of_mem hmem
  have hslot {k : Nat} (hk : k < g.recycled) :
      Function.update g.slotOf g.recycled slot k = g.slotOf k := Function.update_of_ne hk.ne ..
  -- the peer has changed no header that the sender may still look at
  have hsame (slot' : Nat) : scan (Function.update s.slotData slot data slot') walkFuel 0 =
      scan (s.slotData slot') walkFuel 0 := by
    by_cases hslot' : slot' = slot
    · rw [hslot', Function.update_self, hscan]
    · rw [Function.update_of_ne hslot']
  refine { h with
    available_le := ?_, slotQueueRecycle := ?_, entry := ?_, places := ?_, empty := ?_,
    full := ?_, current := ?_, txData := ?_ }
  · exact havail.trans (Nat.le_succ _)
  · dsimp only
    rw [h.slotQueueRecycle, UInt32.ofNat_add]
    rfl
  · intro k hlo hhi
    dsimp only at hlo hhi ⊢
    rw [h.slotQueueRecycle, and_slotQueueMask]
    by_cases hk : k = g.recycled
    · rw [hk, Function.update_self, Function.update_self]
    · rw [hslot (by omega), Function.update_of_ne]
      · exact h.entry k hlo (by omega)
      · intro heq
        have heq' := congrArg UInt32.toNat heq
        rw [UInt32.toNat_ofNat', UInt32.toNat_ofNat'] at heq'
        omega
  · have hrange : List.range' g.read (g.recycled + 1 - g.read) =
        List.range' g.read (g.recycled - g.read) ++ [g.recycled] := by
      have hlen : g.recycled + 1 - g.read = g.recycled - g.read + 1 := by omega
      have hend : g.read + 1 * (g.recycled - g.read) = g.recycled := by omega
      rw [hlen, List.range'_concat, hend]
    have hmap : (List.range' g.read (g.recycled - g.read)).map
        (Function.update g.slotOf g.recycled slot) =
          (List.range' g.read (g.recycled - g.read)).map g.slotOf := by
      apply List.map_congr_left
      intro k hk
      rw [List.mem_range'_1] at hk
      exact hslot (by omega)
    dsimp only
    rw [hrange, List.map_append, hmap, List.append_assoc]
    refine List.Perm.trans (.append_left _ ?_) h.places
    change (Function.update g.slotOf g.recycled slot g.recycled :: g.parsed.erase slot).Perm
      g.parsed
    rw [Function.update_self]
    exact (List.perm_cons_erase hmem).symm
  · intro k hlo hhi
    dsimp only at hlo hhi ⊢
    rw [hslot (by omega)]
    exact h.empty k hlo hhi
  · intro slot' hfull
    dsimp only
    rw [hsame]
    apply h.full
    rcases hfull with hmem' | ⟨k, rfl, hk⟩
    · exact .inl (List.mem_of_mem_erase hmem')
    · dsimp only at hk ⊢
      by_cases hlast : k = g.recycled
      · rw [hlast, Function.update_self]
        exact .inl hmem
      · refine .inr ⟨k, hslot (by omega), hk.imp_right fun ⟨hback, hrec⟩ => ⟨hback, by omega⟩⟩
  · intro k hk hopen
    dsimp only at hk hopen ⊢
    obtain ⟨n, -, hlo, hhi⟩ := h.txPos
    rw [hslot (by omega), Function.update_of_ne]
    · exact h.current k hk hopen
    · rintro rfl
      exact h.slotOf_notMem (by omega) (by omega) hmem
  · intro k hk
    dsimp only at hk ⊢
    rw [hslot (by omega)]
    exact h.txData k hk

end Stands

/-! ## Parts of queue_message -/

/-- What a reservation does to the ring: it may pad a slot, and may take the next one. -/
structure Ring.Advances (g g' : Ring) : Prop where
  slotOf : g'.slotOf = g.slotOf
  read : g'.read = g.read
  parsed : g'.parsed = g.parsed
  messages : ∀ slot, messages (g'.frames slot) = messages (g.frames slot)
  turn : g'.taken = g.taken ∧ g.tx ≤ g'.tx ∨
    g'.taken = g.taken + 1 ∧ g'.tx = g.taken * 4096 ∧ g'.frames (g.slotOf g.taken) = []

theorem Ring.Advances.refl (g : Ring) : g.Advances g :=
  ⟨rfl, rfl, rfl, fun _ => rfl, .inl ⟨rfl, le_rfl⟩⟩

theorem Ring.messages_push {g : Ring} {k : Nat} (hmsg : messages [f] = []) (slot : Nat) :
    messages ((g.push k f).frames slot) = messages (g.frames slot) := by
  dsimp only [Ring.push]
  by_cases hslot : slot = g.slotOf k
  · rw [hslot, Function.update_self, messages_append, hmsg, List.append_nil]
  · rw [Function.update_of_ne hslot]

/-- Padding comes first. -/
theorem Ring.Advances.of_push {g g' : Ring} {k : Nat} (hmsg : Slots.messages [f] = [])
    (h : (g.push k f).Advances g') : g.Advances g' where
  slotOf := h.slotOf
  read := h.read
  parsed := h.parsed
  messages slot := (h.messages slot).trans (messages_push hmsg slot)
  turn := h.turn.imp_left fun ⟨htaken, htx⟩ => ⟨htaken, (Nat.le_add_right ..).trans htx⟩

namespace Stands

variable {r : SlotRange} {s : Slots.State} {g : Ring} {m : Message}

/-- Where the sender is in the slot that it has taken last. -/
theorem taken_eq (h : Stands r s g) (hopen : g.tx < g.taken * 4096) :
    g.taken = g.tx / 4096 + 1 := by
  obtain ⟨k, hk⟩ := Nat.exists_eq_add_one_of_ne_zero (n := g.taken) (by omega)
  obtain ⟨-, htotal⟩ := h.current k hk hopen
  rw [hk] at hopen ⊢
  omega

theorem dvd_tx (h : Stands r s g) (hopen : g.tx < g.taken * 4096) : 8 ∣ g.tx := by
  have hk := h.taken_eq hopen
  obtain ⟨-, htotal⟩ := h.current _ hk hopen
  have hdvd : 8 ∣ total Frame.stride (g.frames (g.slotOf (g.tx / 4096))) :=
    Layout.dvd_total fun f _ => f.dvd_stride
  omega

/-- With a permit, and at the end of a slot, the next slot is taken. -/
theorem takeSlot (h : Stands r s g) (hfree : 0 < s.slotAvailable) (htx : g.tx = g.taken * 4096) :
    let p := Slots.State.takeSlot { s with slotAvailable := s.slotAvailable - 1 } (.ofNat g.tx)
      (calcStride m.size)
    ∃ g', Stands r { p.1 with sender := .after m p.2 } g' ∧
      SenderIn { p.1 with sender := .after m p.2 } g' ∧ g.Advances g' := by
  have hslot : s.slotQueue (slotQueueIndexFromPos (.ofNat g.tx) &&& slotQueueMask) =
      g.slotOf g.taken := by
    rw [slotQueueIndex, htx, Nat.mul_div_cancel g.taken (by omega), h.slotQueue_taken hfree]
  have hbug : UInt32.ofNat g.tx ≠ s.slotQueueAvailable * slotSize := htx ▸ h.not_bug hfree
  have hoff : g.tx % 4096 = 0 := by omega
  have hdiv : g.tx / 4096 = g.taken := by omega
  have hlt : g.taken < g.available := by
    have := h.slotAvailable
    omega
  simp only [Slots.State.takeSlot, hbug, if_false, hslot, Slots.State.reserveAt, and_slotMask,
    SenderPc.after]
  refine ⟨{ g with taken := g.taken + 1 }, { h.take hfree htx with }, ⟨?_, ?_, rfl, ?_, ?_⟩,
    rfl, rfl, rfl, fun _ => rfl, .inr ⟨rfl, htx, h.empty _ le_rfl hlt⟩⟩
  · exact congrArg Nat.succ hdiv.symm
  · exact congrArg g.slotOf hdiv.symm
  · rw [hoff, Nat.zero_add]
    exact Frame.stride_le _
  · exact (UInt32.ofNat_add ..).trans (by rw [Frame.ofNat_stride]; rfl) |>.symm

/-- `reserve_space` from a position where the message fits in the slot, or the slot
has ended. -/
theorem reserveBehind (h : Stands r s g) (isBlocking : Bool)
    (htaken : g.taken * 4096 < g.tx + 4096)
    (hfit : g.tx % 4096 + (Frame.message m).stride ≤ 4096) :
    let p := s.reserveBehind (.ofNat g.tx) (calcStride m.size) isBlocking
    ∃ g', Stands r { p.1 with sender := .after m p.2 } g' ∧
      SenderIn { p.1 with sender := .after m p.2 } g' ∧ g.Advances g' := by
  have htx := h.tx_le
  intro p
  by_cases hend : g.tx % 4096 = 0
  · have hfull : g.tx = g.taken * 4096 := by omega
    have hmask : UInt32.ofNat g.tx &&& slotMask = 0 := and_slotMask_eq_zero.2 hend
    by_cases hfree : s.slotAvailable = 0
    · -- no slot: everything written so far is flushed
      have hp : p = ({ s with localTxPos := .ofNat g.tx, txPos := .ofNat g.tx },
          if isBlocking then .wait else .null) := by
        simp only [p, Slots.State.reserveBehind, if_pos hmask, if_pos hfree]
      rw [hp]
      cases isBlocking with
      | true => exact ⟨g, { h.publish with }, ⟨rfl, hfull⟩, .refl g⟩
      | false => exact ⟨g, { h.publish with }, ⟨rfl, htaken⟩, .refl g⟩
    · have hp : p = Slots.State.takeSlot { s with slotAvailable := s.slotAvailable - 1 }
          (.ofNat g.tx) (calcStride m.size) := by
        simp only [p, Slots.State.reserveBehind, if_pos hmask, if_neg hfree]
      rw [hp]
      exact h.takeSlot (Nat.pos_of_ne_zero hfree) hfull
  · have htk := h.taken_eq (by omega)
    have hmask : ¬ UInt32.ofNat g.tx &&& slotMask = 0 := and_slotMask_eq_zero.not.2 hend
    have hp : p = ({ s with localTxPos := .ofNat g.tx + calcStride m.size },
        .header (g.slotOf (g.tx / 4096)) (g.tx % 4096)) := by
      simp only [p, Slots.State.reserveBehind, if_neg hmask, Slots.State.reserveAt,
        h.txData _ htk, and_slotMask]
    have hlocal : UInt32.ofNat g.tx + calcStride m.size =
        .ofNat (g.tx + (Frame.message m).stride) := by
      rw [UInt32.ofNat_add, Frame.ofNat_stride]
      rfl
    rw [hp]
    exact ⟨g, { h with }, ⟨htk, rfl, rfl, hfit, hlocal⟩, .refl g⟩

/-- Padding fills the rest of the slot that was taken last. -/
theorem pad (h : Stands r s g) (hopen : g.tx < g.taken * 4096) :
    ∃ f : Frame, f.stride = 4096 - g.tx % 4096 ∧ messages [f] = [] ∧
      Stands r
        (s.padSlot (g.slotOf (g.tx / 4096)) (.ofNat g.tx) (.ofNat (4096 - g.tx % 4096)))
        (g.push (g.tx / 4096) f) := by
  obtain ⟨f, hstride, hmsg, hmsgid, hsize, -⟩ := exists_padding (h.dvd_tx hopen)
  have hoff : g.tx - g.tx / 4096 * 4096 = g.tx % 4096 := by omega
  refine ⟨f, hstride, hmsg, ?_⟩
  simp only [Slots.State.padSlot, and_slotMask]
  have hpacket : loadPacket
      (storeHeader (s.slotData (g.slotOf (g.tx / 4096))) (g.tx % 4096) f.msgid f.size)
      (g.tx % 4096) = ⟨f.msgid, f.size, _⟩ := loadPacket_storeHeader
  rw [← hsize, ← hmsgid]
  apply h.append (h.taken_eq hopen)
  · omega
  · rw [hoff]
    exact fun i hi => storeHeader_of_disjoint (.inl hi)
  · rw [hoff]
    exact congrArg Packet.msgid hpacket
  · rw [hoff]
    exact congrArg Packet.size hpacket

theorem queueMessage (h : Stands r s g) (hs : SenderIn s g) (hidle : s.sender = .idle)
    (m : Message) (isBlocking : Bool) :
    ∃ g', Stands r (s.queueMessage m isBlocking) g' ∧ SenderIn (s.queueMessage m isBlocking) g' ∧
      g.Advances g' := by
  rw [SenderIn, hidle] at hs
  obtain ⟨hlocal, htaken⟩ := hs
  have hstride : (calcStride m.size).toNat = (Frame.message m).stride := rfl
  have hle := (Frame.message m).stride_le
  have htx := h.tx_le
  by_cases hpad : calcStride m.size > .ofNat (4096 - g.tx % 4096)
  · -- the rest of the slot is padded, and the next slot starts
    have hlt : 4096 - g.tx % 4096 < (Frame.message m).stride := by
      have := UInt32.lt_iff_toNat_lt.1 hpad
      rw [hstride, UInt32.toNat_ofNat'] at this
      omega
    have hopen : g.tx < g.taken * 4096 := by omega
    have htk := h.taken_eq hopen
    obtain ⟨f, hf, hmsg, hpadded⟩ := h.pad hopen
    have hend : (g.push (g.tx / 4096) f).tx = g.tx + (4096 - g.tx % 4096) := by
      rw [← hf]
      rfl
    have hpos : UInt32.ofNat g.tx + .ofNat (4096 - g.tx % 4096) =
        .ofNat (g.push (g.tx / 4096) f).tx := by
      rw [hend, UInt32.ofNat_add]
    have hres : s.reserveSpace (calcStride m.size) isBlocking =
        Slots.State.reserveBehind
          (s.padSlot (g.slotOf (g.tx / 4096)) (.ofNat g.tx) (.ofNat (4096 - g.tx % 4096)))
          (.ofNat (g.push (g.tx / 4096) f).tx) (calcStride m.size) isBlocking := by
      simp only [Slots.State.reserveSpace, hlocal, slotSpace, if_pos hpad, h.txData _ htk, hpos]
    obtain ⟨g', h', hs', hadv⟩ := hpadded.reserveBehind (m := m) isBlocking
      (by
        rw [hend]
        change g.taken * 4096 < _
        omega)
      (by
        rw [hend]
        omega)
    rw [Slots.State.queueMessage, hres]
    exact ⟨g', h', hs', hadv.of_push hmsg⟩
  · have hres : s.reserveSpace (calcStride m.size) isBlocking =
        s.reserveBehind (.ofNat g.tx) (calcStride m.size) isBlocking := by
      simp only [Slots.State.reserveSpace, hlocal, slotSpace, if_neg hpad]
    rw [Slots.State.queueMessage, hres]
    apply h.reserveBehind isBlocking htaken
    have := UInt32.lt_iff_toNat_lt.not.1 hpad
    rw [hstride, UInt32.toNat_ofNat'] at this
    omega

/-- The message is put into its slot. -/
theorem fill (h : Stands r s g) (hs : SenderIn s g) {slot off : Nat}
    (hfill : s.sender = .filling m slot off) :
    Stands r s.senderStep (g.push (g.tx / 4096) (.message m)) ∧
      SenderIn s.senderStep (g.push (g.tx / 4096) (.message m)) := by
  rw [SenderIn, hfill] at hs
  obtain ⟨htaken, rfl, rfl, hfit, hlocal⟩ := hs
  have hoff : g.tx - g.tx / 4096 * 4096 = g.tx % 4096 := by omega
  have hpacket : loadPacket
      (storeMessage (s.slotData (g.slotOf (g.tx / 4096))) (g.tx % 4096) m) (g.tx % 4096) =
        m.packet := loadPacket_storeMessage
  have hstride := (Frame.message m).size_add_le_stride
  have happend := h.append (f := .message m)
    (b := storeMessage (s.slotData (g.slotOf (g.tx / 4096))) (g.tx % 4096) m)
    htaken (by omega)
    (by
      rw [hoff]
      exact fun i hi => storeMessage_of_lt hi)
    (by
      rw [hoff]
      exact congrArg Packet.msgid hpacket)
    (by
      rw [hoff]
      exact congrArg Packet.size hpacket)
    (s.localTxPos - calcStride m.size)
  simp only [Slots.State.senderStep, hfill]
  refine ⟨{ happend with }, hlocal, ?_⟩
  dsimp only [Ring.push]
  omega

/-- The other parts of `queue_message`. -/
theorem senderStep (h : Stands r s g) (hs : SenderIn s g)
    (hother : ∀ m slot off, s.sender ≠ .filling m slot off) :
    ∃ g', Stands r s.senderStep g' ∧ SenderIn s.senderStep g' ∧ g.Advances g' := by
  have hs' := hs
  unfold SenderIn at hs'
  unfold Slots.State.senderStep
  match hpc : s.sender with
  | .idle => exact ⟨g, h, hs, .refl g⟩
  | .fault =>
    rw [hpc] at hs'
    exact hs'.elim
  | .filling m slot off => exact absurd hpc (hother m slot off)
  | .waiting m =>
    rw [hpc] at hs'
    obtain ⟨hlocal, htx⟩ := hs'
    dsimp only
    split
    · exact ⟨g, h, hs, .refl g⟩
    · next hfree =>
      have htake := h.takeSlot (m := m) (Nat.pos_of_ne_zero hfree) htx
      rw [← hlocal, hpc] at htake
      exact htake
  | .publishing m =>
    rw [hpc] at hs'
    obtain ⟨hlocal, htaken⟩ := hs'
    dsimp only
    rw [hlocal]
    exact ⟨g, { h.publish with }, ⟨rfl, htaken⟩, .refl g⟩

end Stands

end Turnover
