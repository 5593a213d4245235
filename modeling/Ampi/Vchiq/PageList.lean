-- SUMMARY: create_pagelist, the list of the pages of a buffer as runs of consecutive pages.
import Mathlib.Logic.Function.Basic
import Mathlib.Tactic.Common

/-!
# Page lists

`create_pagelist` of vchiq_2835_arm.c as compiled for Circle. One block holds the header,
the entries `addrs`, the word `need_release` and the page pointers, one after the other.
Pages are grouped into runs of pages at consecutive bus addresses: an entry has the
address of the first page in its upper 20 bits and the number of pages that follow in
its lower 12.

Pointers and `size_t` have 32 bits.
-/

namespace PageList

/-- `PAGE_SIZE`. -/
def pageSize : BitVec 32 := 4096

/-- `GPU_MEM_BASE`. -/
def gpuMemBase : BitVec 32 := 0x40000000

/-- `VCHIQ_ARM_ADDRESS`. -/
def armAddress (x : BitVec 32) : BitVec 32 := x + gpuMemBase

/-- `vmalloc_to_page`; `page_address` is the identity. -/
def vmallocToPage (p : BitVec 32) : BitVec 32 := p &&& ~~~(pageSize - 1)

/-- A block with a `PAGELIST_T` at its start. -/
structure Pagelist where
  address : BitVec 32
  length : BitVec 32
  type : BitVec 16
  offset : BitVec 16
  /-- The words of the block from `addrs` on. -/
  addrs : Nat → BitVec 32
  -- not in the source
  /-- The words that have been written. -/
  written : List Nat := []

/-- `sizeof (PAGELIST_T)`: `length`, `type`, `offset` and one word of `addrs`. -/
def sizeofPagelist : BitVec 32 := 4 + 2 + 2 + 4

namespace Pagelist

def store (p : Pagelist) (i : Nat) (v : BitVec 32) : Pagelist :=
  { p with addrs := Function.update p.addrs i v, written := i :: p.written }

@[simp] theorem store_addrs_self (p : Pagelist) (i : Nat) (v : BitVec 32) :
    (p.store i v).addrs i = v := Function.update_self ..

theorem store_addrs_of_ne {i j : Nat} (h : j ≠ i) (p : Pagelist) (v : BitVec 32) :
    (p.store i v).addrs j = p.addrs j := Function.update_of_ne h ..

@[simp] theorem store_written (p : Pagelist) (i : Nat) (v : BitVec 32) :
    (p.store i v).written = i :: p.written := rfl

@[simp] theorem store_length (p : Pagelist) (i : Nat) (v : BitVec 32) :
    (p.store i v).length = p.length := rfl

@[simp] theorem store_offset (p : Pagelist) (i : Nat) (v : BitVec 32) :
    (p.store i v).offset = p.offset := rfl

end Pagelist

/-- The arguments `buf` and `count`: a size that is no negative `int`, and a buffer that
ends in the address space. -/
structure Buffer where
  buf : BitVec 32
  count : BitVec 32
  count_lt : count.toNat < 2147483648
  fits : buf.toNat + count.toNat ≤ 4294967296

/-- The variables of the first loop. -/
structure Fill where
  pagelist : Pagelist
  length : BitVec 32
  off : BitVec 32
  /-- The ranges passed to `linuxemu_CleanAndInvalidateDataCacheRange`. -/
  cleaned : List (BitVec 32 × BitVec 32) := []

/-- The variables of the second loop. -/
structure Group where
  pagelist : Pagelist
  baseAddr : BitVec 32
  nextAddr : BitVec 32
  addridx : Nat := 0
  run : Nat := 0

def Group.flush (s : Group) : Group :=
  { s with
    pagelist := s.pagelist.store s.addridx (s.baseAddr + .ofNat 32 s.run)
    addridx := s.addridx + 1 }

/-- What the caller of `create_pagelist` gets. -/
structure Result where
  pagelist : Pagelist
  /-- The number of entries written to `addrs`. -/
  addridx : Nat
  cleaned : List (BitVec 32 × BitVec 32)

namespace Buffer

def offset (b : Buffer) : BitVec 32 := b.buf &&& (pageSize - 1)

def numPages (b : Buffer) : BitVec 32 := (b.count + b.offset + pageSize - 1) / pageSize

/-- The argument of `kmalloc`. -/
def blockSize (b : Buffer) : BitVec 32 := sizeofPagelist + b.numPages * 4 + 4 + b.numPages * 4

/-- The word `need_release`. -/
def needRelease (b : Buffer) : Nat := b.numPages.toNat

/-- The word `pages[i]`. -/
def pagesWord (b : Buffer) (i : Nat) : Nat := b.numPages.toNat + 1 + i

/-! ## The pages -/

/-- The body of the first loop; `i` is `actual_pages`. -/
def fillStep (b : Buffer) (s : Fill) (i : Nat) : Fill :=
  let pg := vmallocToPage (b.buf + .ofNat 32 i * pageSize)
  let bytes := pageSize - s.off
  let bytes := if bytes > s.length then s.length else bytes
  { pagelist := s.pagelist.store (b.pagesWord i) pg
    length := s.length - bytes
    off := 0
    cleaned := s.cleaned ++ [(pg + s.off, bytes)] }

def fill (b : Buffer) (p : Pagelist) : Fill :=
  (List.range b.numPages.toNat).foldl b.fillStep
    { pagelist := p, length := b.count, off := b.offset }

/-! ## The runs -/

def groupStep (b : Buffer) (s : Group) (i : Nat) : Group :=
  let addr := armAddress (s.pagelist.addrs (b.pagesWord i))
  if addr = s.nextAddr ∧ s.run < pageSize.toNat - 1 then
    { s with nextAddr := s.nextAddr + pageSize, run := s.run + 1 }
  else
    { s.flush with baseAddr := addr, nextAddr := addr + pageSize, run := 0 }

def group (b : Buffer) (p : Pagelist) : Group :=
  let baseAddr := armAddress (p.addrs (b.pagesWord 0))
  ((List.range' 1 (b.numPages.toNat - 1)).foldl b.groupStep
    { pagelist := p, baseAddr, nextAddr := baseAddr + pageSize }).flush

/-- `create_pagelist`; `block` is what `kmalloc` returns. -/
def createPagelist (b : Buffer) (type : BitVec 16) (block : Option Pagelist) : Option Result :=
  match block with
  | none => none
  | some p =>
    let s := b.fill { p with written := [] }
    let p := s.pagelist.store b.needRelease 0
    let g := b.group { p with length := b.count, type, offset := b.offset.setWidth 16 }
    -- The entries are flushed up to the word `need_release`.
    let list := (p.address, 8 + b.numPages * 4)
    some { pagelist := g.pagelist, addridx := g.addridx, cleaned := s.cleaned ++ [list] }

/-! ## Sound lists -/

/-- The pages that overlap the buffer, at their bus addresses. -/
def busPages (b : Buffer) : List (BitVec 32) :=
  (List.range ((b.buf.toNat % 4096 + b.count.toNat + 4095) / 4096)).map fun i =>
    armAddress (.ofNat 32 ((b.buf.toNat / 4096 + i) * 4096))

end Buffer

/-- The pages of an entry. -/
def expand (entry : BitVec 32) : List (BitVec 32) :=
  (List.range (entry.toNat % 4096 + 1)).map fun k =>
    .ofNat 32 (entry.toNat / 4096 * 4096) + .ofNat 32 (k * 4096)

/-- The pages of the first `n` entries. -/
def Pagelist.expanded (p : Pagelist) (n : Nat) : List (BitVec 32) :=
  (List.range n).flatMap fun i => expand (p.addrs i)

/-- The list is one of the buffer, and nothing has been written outside of the block. -/
structure Result.Sound (r : Result) (b : Buffer) : Prop where
  pages : r.pagelist.expanded r.addridx = b.busPages
  length : r.pagelist.length = b.count
  offset : r.pagelist.offset.toNat = b.buf.toNat % 4096
  inside : ∀ i ∈ r.pagelist.written, 8 + 4 * i + 4 ≤ b.blockSize.toNat

/-! ## Entries -/

/-- The address of the `k`-th page after `base`. -/
def following (base : BitVec 32) (k : Nat) : BitVec 32 := base + .ofNat 32 (k * 4096)

theorem expand_add {base : BitVec 32} {run : Nat} (hbase : 4096 ∣ base.toNat) (hrun : run < 4096) :
    expand (base + .ofNat 32 run) = (List.range (run + 1)).map (following base) := by
  have hsum : (base + BitVec.ofNat 32 run).toNat = base.toNat + run := by
    rw [BitVec.toNat_add, BitVec.toNat_ofNat]
    have := base.isLt
    omega
  have hlow : (base.toNat + run) % 4096 = run := by omega
  have hhigh : (base.toNat + run) / 4096 * 4096 = base.toNat := by omega
  rw [expand, hsum, hlow, hhigh, BitVec.ofNat_toNat, BitVec.setWidth_eq]
  rfl

theorem expand_ne_nil (entry : BitVec 32) : expand entry ≠ [] := by
  simp [expand]

@[simp] theorem following_zero (base : BitVec 32) : following base 0 = base := by
  simp [following]

theorem following_succ (base : BitVec 32) (k : Nat) :
    following base (k + 1) = following base k + pageSize := by
  unfold following pageSize
  rw [BitVec.add_assoc, Nat.add_mul, Nat.one_mul, BitVec.ofNat_add]
  rfl

/-- What is stored behind the first `n` entries does not matter. -/
theorem Pagelist.expanded_store_of_le {p : Pagelist} {i n : Nat} {v : BitVec 32} (h : n ≤ i) :
    (p.store i v).expanded n = p.expanded n := by
  refine congrArg List.flatten (List.map_congr_left fun j hj => ?_)
  have := List.mem_range.1 hj
  rw [store_addrs_of_ne (by omega)]

theorem Pagelist.expanded_store (p : Pagelist) (n : Nat) (v : BitVec 32) :
    (p.store n v).expanded (n + 1) = p.expanded n ++ expand v := by
  calc (p.store n v).expanded (n + 1)
    _ = (p.store n v).expanded n ++ expand ((p.store n v).addrs n) := by
      simp [expanded, List.range_succ]
    _ = p.expanded n ++ expand v := by rw [expanded_store_of_le (Nat.le_refl n), store_addrs_self]

/-! ## Grouping -/

/-- The bus address of a page that the first loop has stored. -/
def Buffer.stored (b : Buffer) (p : Pagelist) (i : Nat) : BitVec 32 :=
  armAddress (p.addrs (b.pagesWord i))

/-- The state before the second loop looks at page `i`: the entries and the run that is
being counted are the pages before it. -/
structure Grouped (b : Buffer) (p : Pagelist) (i : Nat) (s : Group) : Prop where
  pages : s.pagelist.expanded s.addridx ++ (List.range (s.run + 1)).map (following s.baseAddr) =
    (List.range i).map (b.stored p)
  next : s.nextAddr = following s.baseAddr (s.run + 1)
  aligned : 4096 ∣ s.baseAddr.toNat
  run_lt : s.run < 4096
  addridx_lt : s.addridx < i
  kept : ∀ j, b.needRelease < j → s.pagelist.addrs j = p.addrs j
  written : ∀ j ∈ s.pagelist.written, j ∈ p.written ∨ j < i
  length : s.pagelist.length = p.length
  offset : s.pagelist.offset = p.offset

namespace Grouped

variable {b : Buffer} {p : Pagelist} {i : Nat} {s : Group}

/-- Writing the entry of the run that is being counted. -/
theorem flush (h : Grouped b p i s) :
    s.flush.pagelist.expanded s.flush.addridx = (List.range i).map (b.stored p) := by
  rw [Group.flush, Pagelist.expanded_store, expand_add h.aligned h.run_lt, h.pages]

theorem first (haligned : 4096 ∣ (b.stored p 0).toNat) :
    Grouped b p 1 ⟨p, b.stored p 0, b.stored p 0 + pageSize, 0, 0⟩ where
  pages := by simp [Pagelist.expanded]
  next := by rw [following_succ, following_zero]
  aligned := haligned
  run_lt := Nat.succ_pos _
  addridx_lt := Nat.one_pos
  kept := fun _ _ => rfl
  written := fun j hj => .inl hj
  length := rfl
  offset := rfl

theorem step (h : Grouped b p i s) (hi : i < b.numPages.toNat)
    (haligned : 4096 ∣ (b.stored p i).toNat) : Grouped b p (i + 1) (b.groupStep s i) := by
  have haddr : armAddress (s.pagelist.addrs (b.pagesWord i)) = b.stored p i := by
    rw [Buffer.stored, h.kept _ (by unfold Buffer.needRelease Buffer.pagesWord; omega)]
  have hsucc : (List.range (i + 1)).map (b.stored p) =
      (List.range i).map (b.stored p) ++ [b.stored p i] := by
    rw [List.range_succ, List.map_append]
    rfl
  unfold Buffer.groupStep
  simp only [haddr]
  split
  next hrun =>
    -- One page more in the run.
    have hlt : s.run < 4095 := hrun.2
    refine { h with
      pages := ?_
      next := ?_
      run_lt := by change s.run + 1 < 4096; omega
      addridx_lt := by have := h.addridx_lt; change s.addridx < i + 1; omega
      written := fun j hj => (h.written j hj).imp_right (by omega) }
    · change s.pagelist.expanded s.addridx ++ (List.range (s.run + 1 + 1)).map _ = _
      rw [hsucc, ← h.pages, hrun.1, h.next, List.append_assoc, List.range_succ (n := s.run + 1),
        List.map_append, List.map_singleton]
    · rw [following_succ, h.next]
  next =>
    -- The run ends; the page is the first of the next one.
    have hidx := h.addridx_lt
    refine {
      pages := ?_
      next := ?_
      aligned := haligned
      run_lt := Nat.succ_pos _
      addridx_lt := by change s.addridx + 1 < i + 1; omega
      kept := ?_
      written := ?_
      length := h.length
      offset := h.offset }
    · rw [hsucc, ← h.flush]
      simp
    · rw [following_succ, following_zero]
    · intro j hj
      unfold Buffer.needRelease at hj
      rw [← h.kept j hj]
      exact Pagelist.store_addrs_of_ne (by omega) ..
    · intro j hj
      rcases List.mem_cons.1 hj with rfl | hj
      · exact .inr (by omega)
      · exact (h.written j hj).imp_right (by omega)

end Grouped

/-! ## Sizes -/

theorem toNat_and_low (x : BitVec 32) : (x &&& (pageSize - 1)).toNat = x.toNat % 4096 := by
  have hmask : (pageSize - 1).toNat = 2 ^ 12 - 1 := rfl
  rw [BitVec.toNat_and, hmask, Nat.and_two_pow_sub_one_eq_mod]

theorem vmallocToPage_toNat (x : BitVec 32) : (vmallocToPage x).toNat = x.toNat / 4096 * 4096 := by
  have hdisjoint : vmallocToPage x &&& (x &&& (pageSize - 1)) = 0 := by
    ext i
    simp only [vmallocToPage, BitVec.getElem_and, BitVec.getElem_not]
    cases (pageSize - 1)[i] <;> simp
  have hunion : vmallocToPage x ||| (x &&& (pageSize - 1)) = x := by
    ext i
    simp only [vmallocToPage, BitVec.getElem_or, BitVec.getElem_and, BitVec.getElem_not]
    cases (pageSize - 1)[i] <;> simp
  have hsum := BitVec.toNat_add_of_and_eq_zero hdisjoint
  rw [BitVec.add_eq_or_of_and_eq_zero _ _ hdisjoint, hunion, toNat_and_low] at hsum
  omega

namespace Buffer

variable (b : Buffer)

theorem offset_toNat : b.offset.toNat = b.buf.toNat % 4096 := toNat_and_low b.buf

theorem numPages_toNat :
    b.numPages.toNat = (b.buf.toNat % 4096 + b.count.toNat + 4095) / 4096 := by
  have hcount := b.count_lt
  have hoffset := b.offset_toNat
  have hsub : (b.count + b.offset + pageSize - 1).toNat =
      b.buf.toNat % 4096 + b.count.toNat + 4095 := by
    rw [BitVec.toNat_sub, BitVec.toNat_add, BitVec.toNat_add, hoffset]
    simp only [pageSize, BitVec.reduceToNat]
    omega
  rw [numPages, BitVec.toNat_udiv, hsub]
  rfl

theorem blockSize_toNat : b.blockSize.toNat = 16 + 8 * b.numPages.toNat := by
  have hcount := b.count_lt
  have hnum := b.numPages_toNat
  unfold blockSize sizeofPagelist
  simp only [BitVec.toNat_add, BitVec.toNat_mul, BitVec.reduceToNat]
  omega

/-- The `i`-th page of the buffer. -/
theorem vmallocToPage_add (i : Nat) :
    vmallocToPage (b.buf + .ofNat 32 i * pageSize) =
      .ofNat 32 ((b.buf.toNat / 4096 + i) * 4096) := by
  apply BitVec.eq_of_toNat_eq
  rw [vmallocToPage_toNat, BitVec.toNat_add, BitVec.toNat_mul, BitVec.toNat_ofNat,
    BitVec.toNat_ofNat]
  simp only [pageSize, BitVec.reduceToNat]
  omega

theorem aligned_armAddress (k : Nat) : 4096 ∣ (armAddress (.ofNat 32 (k * 4096))).toNat := by
  rw [armAddress, BitVec.toNat_add, BitVec.toNat_ofNat]
  simp only [gpuMemBase, BitVec.reduceToNat]
  omega

end Buffer

/-! ## Filling -/

/-- The state before the first loop looks at page `k`. -/
structure Filled (b : Buffer) (k : Nat) (s : Fill) : Prop where
  pages : ∀ j < k, s.pagelist.addrs (b.pagesWord j) = .ofNat 32 ((b.buf.toNat / 4096 + j) * 4096)
  written : ∀ i ∈ s.pagelist.written, i < b.pagesWord k

theorem Filled.step {b : Buffer} {k : Nat} {s : Fill} (h : Filled b k s) :
    Filled b (k + 1) (b.fillStep s k) where
  pages := by
    intro j hj
    change (s.pagelist.store (b.pagesWord k) _).addrs (b.pagesWord j) = _
    by_cases hjk : j = k
    · rw [hjk, Pagelist.store_addrs_self, b.vmallocToPage_add]
    · rw [Pagelist.store_addrs_of_ne (by unfold Buffer.pagesWord; omega)]
      exact h.pages j (by omega)
  written := by
    intro i hi
    have hk : b.pagesWord k < b.pagesWord (k + 1) := Nat.lt_succ_self _
    rcases List.mem_cons.1 hi with rfl | hi
    · exact hk
    · exact Nat.lt_trans (h.written i hi) hk

theorem filled (b : Buffer) {p : Pagelist} (hp : p.written = []) :
    Filled b b.numPages.toNat (b.fill p) := by
  have hall : ∀ n, Filled b n ((List.range n).foldl b.fillStep ⟨p, b.count, b.offset, []⟩) := by
    intro n
    induction n with
    | zero => exact ⟨fun _ hj => absurd hj (Nat.not_lt_zero _), by simp [hp]⟩
    | succ n ih =>
      rw [List.range_succ, List.foldl_append]
      exact ih.step
  exact hall _

theorem Buffer.group_eq (b : Buffer) (p : Pagelist) :
    b.group p = ((List.range' 1 (b.numPages.toNat - 1)).foldl b.groupStep
      ⟨p, b.stored p 0, b.stored p 0 + pageSize, 0, 0⟩).flush := by
  unfold Buffer.group Buffer.stored
  rfl

/-- The second loop, on pages that begin at page boundaries. -/
theorem grouped (b : Buffer) {p : Pagelist} (hpos : 0 < b.numPages.toNat)
    (haligned : ∀ i < b.numPages.toNat, 4096 ∣ (b.stored p i).toNat) :
    ∃ s, b.group p = s.flush ∧ Grouped b p b.numPages.toNat s := by
  have hall : ∀ n < b.numPages.toNat, Grouped b p (n + 1)
      ((List.range' 1 n).foldl b.groupStep ⟨p, b.stored p 0, b.stored p 0 + pageSize, 0, 0⟩) := by
    intro n hn
    induction n with
    | zero => exact Grouped.first (haligned 0 hpos)
    | succ n ih =>
      rw [List.range'_1_concat, List.foldl_append, Nat.add_comm 1 n, List.foldl_cons,
        List.foldl_nil]
      exact (ih (by omega)).step hn (haligned _ hn)
  have hlast := hall (b.numPages.toNat - 1) (Nat.sub_lt hpos Nat.one_pos)
  rw [Nat.sub_add_cancel hpos] at hlast
  exact ⟨_, b.group_eq p, hlast⟩

/-! ## The list of a buffer -/

namespace Buffer

variable (b : Buffer) (type : BitVec 16) (block : Pagelist)

/-- The block before its pages are grouped. -/
def ungrouped : Pagelist :=
  { (b.fill { block with written := [] }).pagelist.store b.needRelease 0 with
    length := b.count, type, offset := b.offset.setWidth 16 }

theorem createPagelist_eq :
    b.createPagelist type (some block) =
      some ⟨(b.group (b.ungrouped type block)).pagelist, (b.group (b.ungrouped type block)).addridx,
        (b.fill { block with written := [] }).cleaned ++
          [((b.ungrouped type block).address, 8 + b.numPages * 4)]⟩ := by
  unfold createPagelist ungrouped
  rfl

/-- There always is an entry. -/
theorem expanded_ne_nil (p : Pagelist) :
    (b.group p).pagelist.expanded (b.group p).addridx ≠ [] := by
  rw [group_eq, Group.flush, Pagelist.expanded_store]
  exact List.append_ne_nil_of_right_ne_nil _ (expand_ne_nil _)

theorem busPages_eq :
    b.busPages = (List.range b.numPages.toNat).map fun i =>
      armAddress (.ofNat 32 ((b.buf.toNat / 4096 + i) * 4096)) := by
  rw [busPages, numPages_toNat]

/-- The first loop has stored the pages of the buffer. -/
theorem stored_ungrouped {i : Nat} (hi : i < b.numPages.toNat) :
    b.stored (b.ungrouped type block) i =
      armAddress (.ofNat 32 ((b.buf.toNat / 4096 + i) * 4096)) := by
  have hpage := (filled b (p := { block with written := [] }) rfl).pages i hi
  rw [stored, ← hpage]
  refine congrArg armAddress (Pagelist.store_addrs_of_ne ?_ ..)
  unfold pagesWord needRelease
  omega

theorem written_ungrouped {i : Nat} (hi : i ∈ (b.ungrouped type block).written) :
    i < 2 * b.numPages.toNat + 1 := by
  have hfill := (filled b (p := { block with written := [] }) rfl).written
  unfold pagesWord at hfill
  rcases List.mem_cons.1 hi with rfl | hi
  · unfold needRelease
    omega
  · have := hfill i hi
    omega

/-- The list is sound unless the buffer is empty and begins at a page boundary: no page
overlaps it then, and still an entry is written, from a page pointer that has not been. -/
theorem createPagelist_sound_iff :
    (∀ r, b.createPagelist type (some block) = some r → r.Sound b) ↔
      ¬ (b.count = 0 ∧ b.buf.toNat % 4096 = 0) := by
  have hzero : b.count = 0 ∧ b.buf.toNat % 4096 = 0 ↔ b.numPages.toNat = 0 := by
    have hnum := b.numPages_toNat
    rw [← BitVec.toNat_inj]
    simp only [BitVec.reduceToNat]
    omega
  rw [hzero, createPagelist_eq]
  simp only [Option.some.injEq, forall_eq']
  constructor
  · intro hsound hnone
    have hpages := hsound.pages
    rw [busPages_eq, hnone] at hpages
    exact b.expanded_ne_nil _ hpages
  · intro hpos
    have hstored := fun i hi => b.stored_ungrouped type block (i := i) hi
    obtain ⟨s, hs, hgrouped⟩ := grouped b (p := b.ungrouped type block) (Nat.pos_of_ne_zero hpos)
      fun i hi => by rw [hstored i hi]; exact aligned_armAddress _
    rw [hs]
    refine ⟨?_, hgrouped.length, ?_, ?_⟩
    · rw [hgrouped.flush, busPages_eq]
      exact List.map_congr_left fun i hi => hstored i (List.mem_range.1 hi)
    · change s.pagelist.offset.toNat = _
      rw [hgrouped.offset]
      change (b.offset.setWidth 16).toNat = _
      rw [BitVec.toNat_setWidth, offset_toNat]
      omega
    · intro i hi
      have hidx := hgrouped.addridx_lt
      rw [blockSize_toNat]
      have hlt : i < 2 * b.numPages.toNat + 1 := by
        rcases List.mem_cons.1 hi with rfl | hi
        · omega
        · rcases hgrouped.written i hi with hi | hi
          · exact b.written_ungrouped type block hi
          · omega
      omega

/-- The empty buffer at the second page, in a block of zeros. -/
theorem not_createPagelist_sound :
    ¬ ∀ (b : Buffer) (type : BitVec 16) (block : Pagelist) (r : Result),
      b.createPagelist type (some block) = some r → r.Sound b := by
  intro h
  have hpages := (h ⟨0x1000, 0, by decide, by decide⟩ 0 ⟨0, 0, 0, 0, fun _ => 0, []⟩ _ rfl).pages
  exact expanded_ne_nil _ _ hpages

end Buffer
end PageList
