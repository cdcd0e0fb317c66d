import Mathlib.Data.List.Basic
import PiousOS.Core.Terminal

/-!
# Text in rows

A text is a sequence of characters and line ends (`none`). `layout C` writes it
in rows of `C` characters; a full row ends by itself, so the last row, where
the next character goes, is never full. No character is lost or moved
(`layout_flatten`), a line end starts over (`layout_line_end`), and lines that
fit are the rows (`layout_linesText`).

A `Terminal` that is written a text shows the last rows of its layout
(`blank_write`).
-/
namespace PiousOS

section Layout
variable {α : Type} {C : Nat}

/-- The rows of a text from a row on that already holds `current`. -/
def rowsFrom (C : Nat) : List α → List (Option α) → List (List α)
  | current, [] => [current]
  | current, none :: text => current :: rowsFrom C [] text
  | current, some a :: text =>
    if current.length + 1 < C then rowsFrom C (current ++ [a]) text
    else (current ++ [a]) :: rowsFrom C [] text

def layout (C : Nat) (text : List (Option α)) : List (List α) := rowsFrom C [] text

/-- The rows hold the characters in order. -/
theorem rowsFrom_flatten (current : List α) (text : List (Option α)) :
    (rowsFrom C current text).flatten = current ++ text.filterMap id := by
  induction text generalizing current with
  | nil => simp [rowsFrom]
  | cons o text ih =>
    cases o with
    | none => simp [rowsFrom, ih]
    | some a =>
      rw [rowsFrom]
      split
      · simp [ih]
      · simp [ih]

theorem layout_flatten (text : List (Option α)) : (layout C text).flatten = text.filterMap id :=
  rowsFrom_flatten [] text

/-- No row is longer than `C`. -/
theorem rowsFrom_length_le {current : List α} (hC : current.length < C) (text : List (Option α)) :
    ∀ row ∈ rowsFrom C current text, row.length ≤ C := by
  induction text generalizing current with
  | nil =>
    intro row hrow
    rw [rowsFrom, List.mem_singleton] at hrow
    subst hrow
    exact Nat.le_of_lt hC
  | cons o text ih =>
    have hnil : ([] : List α).length < C := Nat.zero_lt_of_lt hC
    cases o with
    | none =>
      intro row hrow
      rw [rowsFrom, List.mem_cons] at hrow
      cases hrow with
      | inl h => exact h ▸ Nat.le_of_lt hC
      | inr h => exact ih hnil row h
    | some a =>
      rw [rowsFrom]
      split
      · next h => exact ih (by rw [List.length_append]; exact h)
      · intro row hrow
        rw [List.mem_cons] at hrow
        cases hrow with
        | inl h =>
          rw [h, List.length_append]
          exact hC
        | inr h => exact ih hnil row h

theorem layout_length_le (hC : 0 < C) (text : List (Option α)) : ∀ row ∈ layout C text, row.length ≤ C :=
  rowsFrom_length_le hC text

/-- Behind a line end the text is laid out by itself. -/
theorem rowsFrom_line_end (current : List α) (text text' : List (Option α)) :
    rowsFrom C current (text ++ none :: text') = rowsFrom C current text ++ layout C text' := by
  induction text generalizing current with
  | nil => rfl
  | cons o text ih =>
    cases o with
    | none => rw [List.cons_append, rowsFrom, ih, rowsFrom, List.cons_append]
    | some a =>
      rw [List.cons_append, rowsFrom, rowsFrom]
      split
      · exact ih _
      · rw [ih, List.cons_append]

theorem layout_line_end (text text' : List (Option α)) :
    layout C (text ++ none :: text') = layout C text ++ layout C text' := rowsFrom_line_end [] text text'

/-- A line that is not full is one row. -/
theorem rowsFrom_line (current line : List α) (h : current.length + line.length < C) :
    rowsFrom C current (line.map some) = [current ++ line] := by
  induction line generalizing current with
  | nil => rw [List.append_nil]; rfl
  | cons a line ih =>
    rw [List.length_cons] at h
    rw [List.map_cons, rowsFrom, if_pos (by omega), ih, List.append_assoc]
    · rfl
    · rw [List.length_append, List.length_singleton]
      omega

/-- Lines as text, each with its end. -/
def linesText (lines : List (List α)) : List (Option α) := lines.flatMap fun line => line.map some ++ [none]

/-- Lines that are not full are the rows. -/
theorem layout_linesText {lines : List (List α)} (h : ∀ line ∈ lines, line.length < C) (text : List (Option α)) :
    layout C (linesText lines ++ text) = lines ++ layout C text := by
  induction lines with
  | nil => rfl
  | cons line lines ih =>
    have hline : layout C (line.map some) = [line] := rowsFrom_line [] line (by simpa using h line List.mem_cons_self)
    have hrest := ih fun l hl => h l (List.mem_cons_of_mem line hl)
    have htext : linesText (line :: lines) ++ text = line.map some ++ none :: (linesText lines ++ text) := by
      simp [linesText]
    rw [htext, layout_line_end, hline, hrest]
    rfl

end Layout

namespace Terminal
variable {R C : Nat} {α : Type}

/-- A character, or a line end. -/
def step (t : Terminal R C α) : Option α → Terminal R C α
  | some a => t.put a
  | none => t.newline

def write (t : Terminal R C α) (text : List (Option α)) : Terminal R C α := text.foldl step t

/-- The last `R` of `rows`, as a grid. -/
def lastRows (R : Nat) (rows : List (List α)) (r c : Nat) : Option α := rows[rows.length - R + r]?.bind (·[c]?)

/-- The terminal shows the last of the rows `above` and then the row
`current`, in which the cursor is. -/
structure ShowsRows (t : Terminal R C α) (above : List (List α)) (current : List α) : Prop where
  row : t.row = min above.length (R - 1)
  col : t.col = current.length
  cells : ∀ r c, r < R → c < C → t.cells r c = lastRows R (above ++ [current]) r c

section
variable {t : Terminal R C α} {above : List (List α)} {current : List α}

/-- Where row `r` of the grid is among the rows. -/
theorem lastRows_eq {rows : List (List α)} {r c : Nat} :
    lastRows R rows r c = rows[rows.length - R + r]?.bind (·[c]?) := rfl

/-- The row of the cursor is the last one. -/
theorem index_current {n r : Nat} (hr : r < R) : n + 1 - R + r = n ↔ r = min n (R - 1) := by omega

/-- A line end starts an empty row. -/
theorem newline_showsRows (hrow : t.row = min above.length (R - 1))
    (hcells : ∀ r c, r < R → c < C → t.cells r c = lastRows R (above ++ [current]) r c) :
    t.newline.ShowsRows (above ++ [current]) [] := by
  have hlen : (above ++ [current]).length = above.length + 1 := by simp
  have hlen' : (above ++ [current] ++ [[]]).length = above.length + 2 := by simp
  have hR := t.row_lt
  -- the new row is the last one, and blank
  have hnew : ∀ r c, above.length + 2 - R + r = above.length + 1 →
      lastRows R (above ++ [current] ++ [[]]) r c = none := by
    intro r c hi
    rw [lastRows_eq, hlen', hi, ← hlen, List.getElem?_concat_length]
    rfl
  have hold : ∀ r c, above.length + 2 - R + r < above.length + 1 →
      lastRows R (above ++ [current] ++ [[]]) r c =
        (above ++ [current])[above.length + 2 - R + r]?.bind (·[c]?) := by
    intro r c hi
    rw [lastRows_eq, hlen', List.getElem?_append_left (by rw [hlen]; exact hi)]
  by_cases h : t.row + 1 < R
  · have hrow' : t.newline.row = t.row + 1 := by rw [newline, dif_pos h]
    have hcol : t.newline.col = 0 := by rw [newline, dif_pos h]
    refine ⟨by rw [hrow', hlen]; omega, hcol, fun r c hr hc => ?_⟩
    rw [newline_cells, if_pos h, hcells r c hr hc]
    by_cases hi : r < above.length + 1
    · rw [hold r c (by omega), lastRows_eq, hlen]
      congr 2
      omega
    · rw [lastRows_eq, List.getElem?_eq_none (by rw [hlen]; omega), Option.bind_none]
      by_cases hi' : r = above.length + 1
      · exact (hnew r c (by omega)).symm
      · rw [lastRows_eq, List.getElem?_eq_none (by rw [hlen']; omega), Option.bind_none]
  · have hrow' : t.newline.row = R - 1 := by rw [newline, dif_neg h]
    have hcol : t.newline.col = 0 := by rw [newline, dif_neg h]
    refine ⟨by rw [hrow', hlen]; omega, hcol, fun r c hr hc => ?_⟩
    rw [newline_cells, if_neg h, scrollCells]
    by_cases hlast : r + 1 < R
    · rw [if_pos hlast, hcells _ c hlast hc, hold r c (by omega), lastRows_eq, hlen]
      congr 2
      omega
    · rw [if_neg hlast, hnew r c (by omega)]

/-- A character goes to the end of the current row. -/
theorem fill_cells (h : t.ShowsRows above current) (a : α) :
    ∀ r c, r < R → c < C → (t.fill a).cells r c = lastRows R (above ++ [current ++ [a]]) r c := by
  intro r c hr hc
  have hlen : ∀ row : List α, (above ++ [row]).length = above.length + 1 := fun row => by simp
  have hcell := h.cells r c hr hc
  rw [lastRows_eq, hlen] at hcell ⊢
  have hfill : (t.fill a).cells r c = if r = t.row ∧ c = t.col then some a else t.cells r c := rfl
  rw [hfill, h.row, h.col, hcell]
  by_cases hcur : r = min above.length (R - 1)
  · rw [(index_current hr).mpr hcur, List.getElem?_concat_length, List.getElem?_concat_length,
      Option.bind_some, Option.bind_some]
    by_cases hend : c = current.length
    · rw [if_pos ⟨hcur, hend⟩, hend, List.getElem?_concat_length]
    · rw [if_neg fun hand => hend hand.2, List.getElem?_append]
      split
      · rfl
      · rw [List.getElem?_eq_none (by omega), List.getElem?_eq_none]
        rw [List.length_singleton]
        omega
  · rw [if_neg fun hand => hcur hand.1]
    have hne : above.length + 1 - R + r ≠ above.length := fun e => hcur ((index_current hr).mp e)
    by_cases hlt : above.length + 1 - R + r < above.length
    · rw [List.getElem?_append_left hlt, List.getElem?_append_left hlt]
    · rw [List.getElem?_eq_none (by rw [hlen]; omega), List.getElem?_eq_none (by rw [hlen]; omega)]

/-- **A terminal that is written a text shows the last rows of its layout.** -/
theorem write_showsRows (h : t.ShowsRows above current) (text : List (Option α)) :
    ∃ above' current', above' ++ [current'] = above ++ rowsFrom C current text ∧
      (t.write text).ShowsRows above' current' := by
  induction text generalizing t above current with
  | nil => exact ⟨above, current, rfl, h⟩
  | cons o text ih =>
    have hrun : t.write (o :: text) = (t.step o).write text := rfl
    rw [hrun]
    cases o with
    | none =>
      obtain ⟨above', current', hrows, hshow⟩ := ih (newline_showsRows h.row h.cells)
      exact ⟨above', current', by rw [hrows, rowsFrom, List.append_assoc]; rfl, hshow⟩
    | some a =>
      have hcol := h.col
      by_cases hfits : t.col + 1 < C
      · have hput : t.put a = { t.fill a with col := t.col + 1, col_lt := hfits } := dif_pos hfits
        have hnext : (t.put a).ShowsRows above (current ++ [a]) := by
          rw [hput]
          exact ⟨h.row, by rw [List.length_append, ← hcol]; rfl, fill_cells h a⟩
        obtain ⟨above', current', hrows, hshow⟩ := ih hnext
        exact ⟨above', current', by rw [hrows, rowsFrom, if_pos (by omega)], hshow⟩
      · have hput : t.put a = (t.fill a).newline := dif_neg hfits
        have hnext : (t.put a).ShowsRows (above ++ [current ++ [a]]) [] := by
          rw [hput]
          exact newline_showsRows h.row (fill_cells h a)
        obtain ⟨above', current', hrows, hshow⟩ := ih hnext
        exact ⟨above', current', by rw [hrows, rowsFrom, if_neg (by omega), List.append_assoc]; rfl, hshow⟩

theorem blank_showsRows (hR : 0 < R) (hC : 0 < C) : (blank hR hC : Terminal R C α).ShowsRows [] [] := by
  refine ⟨(Nat.zero_min _).symm, rfl, fun r c hr hc => ?_⟩
  have hnone : (blank hR hC : Terminal R C α).cells r c = none := rfl
  rw [hnone, lastRows_eq]
  cases hrow : ([] ++ [[]] : List (List α))[([] ++ [[]] : List (List α)).length - R + r]? with
  | none => rfl
  | some row =>
    have hmem := List.mem_of_getElem? hrow
    rw [List.nil_append, List.mem_singleton] at hmem
    rw [hmem]
    rfl

/-- On an empty terminal the rows are those of the layout. -/
theorem blank_write (hR : 0 < R) (hC : 0 < C) (text : List (Option α)) :
    ∀ r c, r < R → c < C → ((blank hR hC).write text).cells r c = lastRows R (layout C text) r c := by
  obtain ⟨above, current, hrows, hshow⟩ := write_showsRows (blank_showsRows hR hC) text
  rw [List.nil_append] at hrows
  rw [layout, ← hrows]
  exact hshow.cells

end

end Terminal

end PiousOS
