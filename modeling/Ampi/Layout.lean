-- SUMMARY: Frames of varying width laid end to end over blocks of one size, none across a block boundary.
import Mathlib

/-!
# Layout

A stream of frames stands at positions that grow by the width of each frame. The
positions are cut into blocks of `size` bytes. If no frame crosses the end of its
block, then a walk from frame to frame through a block that the stream has filled
ends exactly at the end of the block.
-/

namespace Layout

variable {α : Type*}

/-- The width of a list of frames. -/
def total (width : α → Nat) (l : List α) : Nat := (l.map width).sum

/-- The frames with their positions, the first of them at `pos`. -/
def placed (width : α → Nat) (pos : Nat) : List α → List (Nat × α)
  | [] => []
  | a :: l => (pos, a) :: placed width (pos + width a) l

/-- No frame crosses the end of the block it starts in. -/
def InBlocks (width : α → Nat) (size pos : Nat) (l : List α) : Prop :=
  ∀ x ∈ placed width pos l, x.1 % size + width x.2 ≤ size

variable {width : α → Nat} {size pos n : Nat} {a : α} {l l' : List α} {x y : Nat × α}

@[simp] theorem total_nil : total width [] = 0 := rfl

@[simp] theorem total_cons : total width (a :: l) = width a + total width l := List.sum_cons ..

@[simp] theorem total_append : total width (l ++ l') = total width l + total width l' := by
  simp [total]

theorem total_take_add_drop (width : α → Nat) (l : List α) (n : Nat) :
    total width (l.take n) + total width (l.drop n) = total width l := by
  rw [← total_append, List.take_append_drop]

theorem total_take_le_take {m n : Nat} (h : m ≤ n) :
    total width (l.take m) ≤ total width (l.take n) := by
  have hsplit := total_take_add_drop width (l.take n) m
  rw [List.take_take, Nat.min_eq_left h] at hsplit
  omega

theorem total_take_succ (h : l[n]? = some a) :
    total width (l.take (n + 1)) = total width (l.take n) + width a := by
  simp [List.take_add_one, h]

theorem length_mul_le_total {d : Nat} (h : ∀ a ∈ l, d ≤ width a) :
    l.length * d ≤ total width l := by
  induction l with
  | nil => exact Nat.le_of_eq (Nat.zero_mul d)
  | cons a l ih =>
    rw [total_cons, List.length_cons, Nat.add_mul, Nat.one_mul, Nat.add_comm]
    exact Nat.add_le_add (h a List.mem_cons_self) (ih fun b hb => h b (List.mem_cons_of_mem a hb))

theorem dvd_total {d : Nat} (h : ∀ a ∈ l, d ∣ width a) : d ∣ total width l := by
  induction l with
  | nil => exact Nat.dvd_zero d
  | cons a l ih =>
    rw [total_cons]
    apply Nat.dvd_add
    · exact h a List.mem_cons_self
    · exact ih fun b hb => h b (List.mem_cons_of_mem a hb)

/-! ## Positions -/

@[simp] theorem placed_append :
    placed width pos (l ++ l') =
      placed width pos l ++ placed width (pos + total width l) l' := by
  induction l generalizing pos with
  | nil => rfl
  | cons a l ih => simp [placed, ih, Nat.add_assoc]

theorem le_of_placed (h : x ∈ placed width pos l) : pos ≤ x.1 := by
  induction l generalizing pos with
  | nil => cases h
  | cons a l ih =>
    cases h with
    | head => exact Nat.le_refl pos
    | tail _ h => exact Nat.le_trans (Nat.le_add_right pos _) (ih h)

theorem end_le_of_placed (h : x ∈ placed width pos l) :
    x.1 + width x.2 ≤ pos + total width l := by
  induction l generalizing pos with
  | nil => cases h
  | cons a l ih =>
    rw [total_cons, ← Nat.add_assoc]
    cases h with
    | head => exact Nat.le_add_right _ _
    | tail _ h => exact ih h

/-- Two frames of a stream do not overlap. -/
theorem apart_of_placed (hx : x ∈ placed width pos l) (hy : y ∈ placed width pos l) :
    x = y ∨ x.1 + width x.2 ≤ y.1 ∨ y.1 + width y.2 ≤ x.1 := by
  induction l generalizing pos with
  | nil => cases hx
  | cons a l ih =>
    cases hx with
    | head =>
      cases hy with
      | head => exact .inl rfl
      | tail _ hy => exact .inr (.inl (le_of_placed hy))
    | tail _ hx =>
      cases hy with
      | head => exact .inr (.inr (le_of_placed hx))
      | tail _ hy => exact ih hx hy

theorem placed_take_or_drop (n : Nat) :
    x ∈ placed width pos l ↔
      x ∈ placed width pos (l.take n) ∨
        x ∈ placed width (pos + total width (l.take n)) (l.drop n) := by
  conv_lhs => rw [← List.take_append_drop n l, placed_append, List.mem_append]

theorem placed_of_getElem? (h : l[n]? = some a) :
    (pos + total width (l.take n), a) ∈ placed width pos l := by
  rw [placed_take_or_drop n]
  right
  rw [List.drop_eq_getElem?_toList_append, h]
  exact List.mem_cons_self

theorem exists_getElem?_of_placed (h : x ∈ placed width pos l) :
    ∃ n, l[n]? = some x.2 ∧ x.1 = pos + total width (l.take n) := by
  induction l generalizing pos with
  | nil => cases h
  | cons a l ih =>
    cases h with
    | head => exact ⟨0, rfl, rfl⟩
    | tail _ h =>
      obtain ⟨n, hn, hpos⟩ := ih h
      exact ⟨n + 1, hn, by rw [hpos, List.take_succ_cons, total_cons, Nat.add_assoc]⟩

/-! ## Blocks -/

/-- Stepping from `pos` on reaches `size` exactly. -/
inductive Tiles (step : Nat → Nat) (size : Nat) : Nat → Prop where
  | done : Tiles step size size
  | next {pos : Nat} :
    pos < size → 0 < step pos → Tiles step size (pos + step pos) → Tiles step size pos

theorem Tiles.le {step : Nat → Nat} (h : Tiles step size pos) : pos ≤ size := by
  cases h with
  | done => exact Nat.le_refl size
  | next hlt => exact hlt.le

/-- A frame that does not cross the end of its block ends in it or at its end. -/
theorem end_le_block_end {k : Nat} (h : pos % size + n ≤ size) (hk : pos < k * size) :
    pos + n ≤ k * size := by
  have hdiv : pos / size < k := Nat.div_lt_of_lt_mul (by rwa [Nat.mul_comm])
  have hmul : (pos / size + 1) * size ≤ k * size := Nat.mul_le_mul_right size hdiv
  have hpos := Nat.div_add_mod' pos size
  rw [Nat.add_mul, Nat.one_mul] at hmul
  omega

variable {step : Nat → Nat} {k : Nat}

/-- Where a block starts, a frame does. -/
theorem exists_total_take (hin : InBlocks width size pos l) (hlo : pos ≤ k * size)
    (hhi : k * size ≤ pos + total width l) :
    ∃ n ≤ l.length, pos + total width (l.take n) = k * size := by
  induction l generalizing pos with
  | nil => exact ⟨0, le_rfl, Nat.le_antisymm hlo hhi⟩
  | cons a l ih =>
    by_cases hstart : pos = k * size
    · exact ⟨0, Nat.zero_le _, hstart⟩
    have hnext : pos + width a ≤ k * size :=
      end_le_block_end (hin (pos, a) List.mem_cons_self) (by omega)
    rw [total_cons, ← Nat.add_assoc] at hhi
    obtain ⟨n, hn, hpos⟩ := ih (fun x hx => hin x (List.mem_cons_of_mem _ hx)) hnext hhi
    refine ⟨n + 1, Nat.succ_le_succ hn, ?_⟩
    rw [List.take_succ_cons, total_cons, ← Nat.add_assoc]
    exact hpos

/-- The walk from a frame of block `k` on, when the stream has reached the end of
the block. -/
theorem tiles_from (hpos : ∀ a ∈ l, 0 < width a) (hin : InBlocks width size pos l)
    (hlo : k * size ≤ pos) (hhi : pos ≤ (k + 1) * size)
    (hend : (k + 1) * size ≤ pos + total width l)
    (hstep : ∀ x ∈ placed width pos l, x.1 / size = k → step (x.1 % size) = width x.2) :
    Tiles step size (pos - k * size) := by
  have hblock : (k + 1) * size = k * size + size := by rw [Nat.add_mul, Nat.one_mul]
  induction l generalizing pos with
  | nil =>
    have hsize : pos - k * size = size := by
      rw [total_nil] at hend
      omega
    rw [hsize]
    exact .done
  | cons a l ih =>
    by_cases hlast : pos = (k + 1) * size
    · rw [hlast, hblock, Nat.add_sub_cancel_left]
      exact .done
    have hlt : pos - k * size < size := by omega
    have hmod : pos % size = pos - k * size := by
      rw [← Nat.mod_eq_of_lt hlt, Nat.mul_comm, Nat.sub_mul_mod (by rwa [Nat.mul_comm])]
    have hdiv : pos / size = k := by
      apply Nat.div_eq_of_lt_le hlo
      omega
    have hhead : pos % size + width a ≤ size := hin (pos, a) List.mem_cons_self
    have hnext : pos + width a ≤ (k + 1) * size := end_le_block_end hhead (by omega)
    have hwidth : step (pos % size) = width a := hstep (pos, a) List.mem_cons_self hdiv
    rw [hmod] at hwidth
    apply Tiles.next hlt (hwidth ▸ hpos a List.mem_cons_self)
    rw [hwidth, ← Nat.sub_add_comm hlo]
    apply ih
    · intro b hb
      exact hpos b (List.mem_cons_of_mem a hb)
    · intro x hx
      exact hin x (List.mem_cons_of_mem _ hx)
    · omega
    · exact hnext
    · rw [total_cons] at hend
      omega
    · intro x hx
      exact hstep x (List.mem_cons_of_mem _ hx)

/-- A block that the stream has filled is tiled from its start. -/
theorem tiles_block (hpos : ∀ a ∈ l, 0 < width a) (hin : InBlocks width size pos l)
    (hlo : pos ≤ k * size) (hend : (k + 1) * size ≤ pos + total width l)
    (hstep : ∀ x ∈ placed width pos l, x.1 / size = k → step (x.1 % size) = width x.2) :
    Tiles step size 0 := by
  have hblock : (k + 1) * size = k * size + size := by rw [Nat.add_mul, Nat.one_mul]
  induction l generalizing pos with
  | nil =>
    have hstart : pos = k * size := by
      rw [total_nil] at hend
      omega
    have h := tiles_from (k := k) hpos hin (by omega) (by omega) hend hstep
    rwa [hstart, Nat.sub_self] at h
  | cons a l ih =>
    by_cases hstart : pos = k * size
    · have h := tiles_from (k := k) hpos hin (by omega) (by omega) hend hstep
      rwa [hstart, Nat.sub_self] at h
    have hnext : pos + width a ≤ k * size :=
      end_le_block_end (hin (pos, a) List.mem_cons_self) (by omega)
    apply ih
    · intro b hb
      exact hpos b (List.mem_cons_of_mem a hb)
    · intro x hx
      exact hin x (List.mem_cons_of_mem _ hx)
    · exact hnext
    · rw [total_cons] at hend
      omega
    · intro x hx
      exact hstep x (List.mem_cons_of_mem _ hx)

end Layout
