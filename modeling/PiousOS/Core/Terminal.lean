import Mathlib.Data.Nat.Notation

/-!
# A character terminal

An `R` by `C` grid of cells, each blank or holding a value of any type, and
a cursor that is always on the grid. `put` fills the cursor cell and advances,
wrapping eagerly; `newline` goes to the next row; past the last row the
content scrolls by one row.

`index` is the cursor's position in reading order. `put_index` and
`newline_index` say how it moves, which is what a linear implementation has
to match.
-/
namespace PiousOS

/-- Cells outside the grid are never looked at. -/
structure Terminal (R C : Nat) (α : Type) where
  cells : Nat → Nat → Option α
  row : Nat
  col : Nat
  row_lt : row < R
  col_lt : col < C

namespace Terminal
variable {R C : Nat} {α : Type}

/-- An empty terminal with the cursor in the corner. -/
def blank (hR : 0 < R) (hC : 0 < C) : Terminal R C α where
  cells _ _ := none
  row := 0
  col := 0
  row_lt := hR
  col_lt := hC

/-- The grid moved up by one row, the last row blank. -/
def scrollCells (R : Nat) (cells : Nat → Nat → Option α) : Nat → Nat → Option α :=
  fun r c => if r + 1 < R then cells (r + 1) c else none

/-- To the first column of the next row, scrolling where there is none. -/
def newline (t : Terminal R C α) : Terminal R C α :=
  if h : t.row + 1 < R then
    { t with row := t.row + 1, col := 0, row_lt := h, col_lt := Nat.zero_lt_of_lt t.col_lt }
  else
    { cells := scrollCells R t.cells, row := R - 1, col := 0,
      row_lt := Nat.sub_one_lt_of_lt t.row_lt, col_lt := Nat.zero_lt_of_lt t.col_lt }

/-- The grid with the cursor cell filled. -/
def fill (t : Terminal R C α) (a : α) : Terminal R C α :=
  { t with cells := fun r c => if r = t.row ∧ c = t.col then some a else t.cells r c }

/-- Fill the cursor cell and advance. -/
def put (t : Terminal R C α) (a : α) : Terminal R C α :=
  if h : t.col + 1 < C then { t.fill a with col := t.col + 1, col_lt := h } else (t.fill a).newline

/-- The cursor in reading order. -/
def index (t : Terminal R C α) : Nat := t.row * C + t.col

theorem index_lt (t : Terminal R C α) : t.index < R * C :=
  calc t.index < t.row * C + C := Nat.add_lt_add_left t.col_lt _
    _ = (t.row + 1) * C := by rw [Nat.add_mul, Nat.one_mul]
    _ ≤ R * C := Nat.mul_le_mul_right C t.row_lt

theorem index_div (t : Terminal R C α) : t.index / C = t.row := by
  have hC : 0 < C := Nat.zero_lt_of_lt t.col_lt
  rw [index, Nat.add_comm, Nat.add_mul_div_right _ _ hC, Nat.div_eq_of_lt t.col_lt, Nat.zero_add]

theorem index_mod (t : Terminal R C α) : t.index % C = t.col := by
  rw [index, Nat.add_comm, Nat.add_mul_mod_self_right, Nat.mod_eq_of_lt t.col_lt]

/-- Where a newline goes. -/
theorem newline_index (t : Terminal R C α) :
    t.newline.index = if t.row + 1 < R then (t.row + 1) * C else (R - 1) * C := by
  by_cases h : t.row + 1 < R
  · rw [newline, dif_pos h, if_pos h]
    rfl
  · rw [newline, dif_neg h, if_neg h]
    rfl

/-- The cursor is in the last cell exactly when its index is the last. -/
theorem index_last_iff (t : Terminal R C α) :
    t.index = R * C - 1 ↔ ¬ t.row + 1 < R ∧ ¬ t.col + 1 < C := by
  have hr := t.row_lt
  have hc := t.col_lt
  have hle : (t.row + 1) * C ≤ R * C := Nat.mul_le_mul_right C hr
  rw [Nat.add_mul, Nat.one_mul] at hle
  constructor
  · intro h
    rw [index] at h
    refine ⟨fun hlt => ?_, fun hlt => by omega⟩
    have : (t.row + 2) * C ≤ R * C := Nat.mul_le_mul_right C hlt
    rw [Nat.add_mul] at this
    omega
  · intro h
    have hR : R * C = t.row * C + C := by
      rw [← Nat.succ_mul]
      exact congrArg (· * C) (by omega)
    rw [index, hR]
    omega

/-- Where a character leaves the cursor: one further, or at the start of the
last row after a scroll. -/
theorem put_index (t : Terminal R C α) (a : α) :
    (t.put a).index = if t.index = R * C - 1 then (R - 1) * C else t.index + 1 := by
  have hlast := t.index_last_iff
  unfold put
  split
  · next h =>
    rw [if_neg (fun he => (hlast.mp he).2 h)]
    rfl
  · next h =>
    rw [newline_index]
    have hc : t.col + 1 = C := by have := t.col_lt; omega
    by_cases hr : t.row + 1 < R
    · rw [if_neg (fun he => (hlast.mp he).1 hr)]
      show (if t.row + 1 < R then (t.row + 1) * C else (R - 1) * C) = t.row * C + t.col + 1
      rw [if_pos hr, Nat.add_mul, Nat.one_mul]
      omega
    · rw [if_pos (hlast.mpr ⟨hr, h⟩)]
      exact if_neg hr

/-- What a newline does to the grid. -/
theorem newline_cells (t : Terminal R C α) :
    t.newline.cells = if t.row + 1 < R then t.cells else scrollCells R t.cells := by
  by_cases h : t.row + 1 < R
  · rw [newline, dif_pos h, if_pos h]
  · rw [newline, dif_neg h, if_neg h]

/-- What a character does to the grid: it scrolls from the last cell only. -/
theorem put_cells (t : Terminal R C α) (a : α) :
    (t.put a).cells =
      if t.index = R * C - 1 then scrollCells R (t.fill a).cells else (t.fill a).cells := by
  have hlast := t.index_last_iff
  by_cases h : t.col + 1 < C
  · rw [put, dif_pos h, if_neg fun he => (hlast.mp he).2 h]
  · rw [put, dif_neg h, newline_cells]
    by_cases hr : t.row + 1 < R
    · rw [if_neg fun he => (hlast.mp he).1 hr]
      exact if_pos hr
    · rw [if_pos (hlast.mpr ⟨hr, h⟩)]
      exact if_neg hr

end Terminal

end PiousOS
