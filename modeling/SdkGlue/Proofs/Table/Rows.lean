import Mathlib.Data.List.Forall2
import Mathlib.Data.List.GetD
import SdkGlue.Proofs.Except
import SdkGlue.Proofs.Text.Wrap
import SdkGlue.Table

/-!
# Rows of tables

In a table that fits the screen every column is as wide as it would like to be.  When
its cells are single lines, each row is printed on one line that shows them.
-/

namespace SdkGlue.Table

/-- The cells of a table, row by row. -/
def rows (t : Table) : List (List String) :=
  (List.range (largest (t.columns.map (·.cells.length)))).map fun i =>
    t.columns.map (·.cells.getD i "")

/-- A line that shows cells as they are: a bar and a space before each cell, then at
least one space, and a bar at the end. -/
inductive IsRow : List String → List Char → Prop
  | nil : IsRow [] ['│']
  | cons {cell : String} {cells : List String} {line : List Char} (gap : Nat)
      (h : IsRow cells line) :
      IsRow (cell :: cells) (['│', ' '] ++ cell.toList ++ List.replicate (gap + 1) ' ' ++ line)

/-- The printed text has a line for each of the rows, one after another. -/
def ShowsRows (rows : List (List String)) (shown : String) : Prop :=
  ∃ above lines below : List (List Char), shown = ofLines (above ++ lines ++ below) ∧
    List.Forall₂ IsRow rows lines

/-! ## Sizes -/

theorem le_total_of_mem {w : Nat} {widths : List Nat} (h : w ∈ widths) : w ≤ total widths := by
  induction widths with
  | nil => cases h
  | cons v widths ih =>
      rw [total, List.foldr_cons]
      rcases List.mem_cons.mp h with rfl | h
      · exact Nat.le_add_right _ _
      · exact Nat.le_trans (ih h) (Nat.le_add_left _ _)

theorem largest_cons (w : Nat) (widths : List Nat) :
    largest (w :: widths) = max w (largest widths) := by
  have hfold : ∀ (widths : List Nat) (first : Nat),
      widths.foldl max first = max first (widths.foldl max 0) := by
    intro widths
    induction widths with
    | nil => simp
    | cons v widths ih =>
        intro first
        rw [List.foldl_cons, List.foldl_cons, ih, ih (max 0 v), Nat.zero_max, Nat.max_assoc]
  rw [largest, List.foldl_cons, hfold, Nat.zero_max]
  rfl

theorem le_largest_of_mem {w : Nat} {widths : List Nat} (h : w ∈ widths) : w ≤ largest widths := by
  induction widths with
  | nil => cases h
  | cons v widths ih =>
      rw [largest_cons]
      rcases List.mem_cons.mp h with rfl | h
      · exact Nat.le_max_left _ _
      · exact Nat.le_trans (ih h) (Nat.le_max_right _ _)

variable {α : Type}

theorem largest_map_succ {as : List α} (hne : as ≠ []) (size : α → Nat) :
    largest (as.map fun a => size a + 1) = largest (as.map size) + 1 := by
  induction as with
  | nil => exact absurd rfl hne
  | cons a as ih =>
      rw [List.map_cons, List.map_cons, largest_cons, largest_cons]
      by_cases has : as = []
      · subst has
        simp [largest]
      · rw [ih has, Nat.add_max_add_right]

theorem largest_map_const {as : List α} (hne : as ≠ []) (n : Nat) :
    largest (as.map fun _ => n) = n := by
  induction as with
  | nil => exact absurd rfl hne
  | cons a as ih =>
      rw [List.map_cons, largest_cons]
      by_cases has : as = []
      · subst has
        exact Nat.max_zero n
      · rw [ih has, Nat.max_self]

/-- The rows of a table whose columns say something of the same things. -/
theorem rows_of_columns (title : String) {columns : List (String × (α → String))}
    (hne : columns ≠ []) (as : List α) :
    rows ⟨title, columns.map fun c => ⟨c.1, as.map c.2⟩⟩ = as.map fun a => columns.map (·.2 a) := by
  simp only [rows, List.map_map, Function.comp_def, List.length_map, largest_map_const hne]
  apply List.ext_getElem
  · simp
  · intro i hi hi'
    simp only [List.length_map, List.length_range] at hi
    simp [hi]

/-! ## Lines of cells -/

/-- The columns fit the screen as wide as they would like to be. -/
def FitsScreen (columns : List (List (List Char))) : Prop :=
  total (columns.map naturalWidth) ≤ room columns.length

theorem columnWidths_of_fitsScreen {columns : List (List (List Char))} (h : FitsScreen columns) :
    columnWidths columns = columns.map naturalWidth := by
  have hnatural : columns.map (fun c => min (room columns.length) (naturalWidth c)) =
      columns.map naturalWidth := by
    apply List.map_congr_left
    intro c hc
    exact Nat.min_eq_right (Nat.le_trans (le_total_of_mem (List.mem_map_of_mem hc)) h)
  rw [columnWidths]
  simp only [hnatural]
  exact if_pos h

/-- The text of a cell that holds one line, with the space at its left. -/
def shownCell (width : Nat) (s : List Char) : List Char :=
  [' '] ++ s ++ List.replicate (width - padding - Text.width s + 1) ' '

theorem cellLines_of_isLine {width : Nat} {s : List Char} (h : Text.IsLine s)
    (hfits : Text.width s ≤ width - padding) : cellLines width s = [shownCell width s] := by
  have hcell : cellLine (width - padding) s = Text.padTo (width - padding) s := by
    rw [cellLine]
    simp only [h.trimExcess_eq, if_pos hfits]
  simp only [cellLines, h.screenLines_eq, List.flatMap_singleton, Text.wrap_of_width_le hfits,
    List.map_singleton, hcell, shownCell, Text.padTo, List.append_assoc, List.replicate_succ']

/-- A row whose cells take one line each is printed on one line. -/
theorem rowLines_of_cells {as : List α} {b : Border} {width : α → Nat}
    {cell shown : α → List Char} (hne : as ≠ [])
    (hcell : ∀ a ∈ as, cellLines (width a) (cell a) = [shown a]) :
    rowLines b (as.map width) (as.map cell) = [bordered b (as.map shown)] := by
  have hcolumns : (as.map fun a => (width a, cell a)).map (fun c => (c.1, cellLines c.1 c.2)) =
      as.map fun a => (width a, [shown a]) := by
    rw [List.map_map]
    apply List.map_congr_left
    intro a ha
    rw [Function.comp_apply, hcell a ha]
  rw [rowLines, List.zip_map', hcolumns]
  simp only [List.map_map, Function.comp_def, List.length_singleton, largest_map_const hne]
  rfl

theorem bordered_of_ne_nil {pieces : List (List Char)} (hne : pieces ≠ []) (c : Char) :
    bordered ⟨c, c, c⟩ pieces = pieces.flatMap (c :: ·) ++ [c] := by
  rw [bordered]
  congr 1
  induction pieces with
  | nil => exact absurd rfl hne
  | cons piece pieces ih =>
      cases pieces with
      | nil => simp
      | cons next rest =>
          have h := ih (List.cons_ne_nil _ _)
          simp only [List.singleton_append] at h
          simp [List.intercalate_cons_cons, h]

theorem isRow_of_shownCell (cell : α → String) (width : α → Nat) (as : List α) :
    IsRow (as.map cell)
      ((as.map fun a => shownCell (width a) (cell a).toList).flatMap ('│' :: ·) ++ ['│']) := by
  induction as with
  | nil => exact .nil
  | cons a as ih =>
      have h : IsRow (cell a :: as.map cell) _ :=
        .cons (width a - padding - Text.width (cell a).toList) ih
      simpa [shownCell] using h

/-! ## Tables -/

/-- What the cells of a column hold when nothing in them is markup. -/
def Column.contents (c : Column) : List (List Char) := (c.header :: c.cells).map String.toList

/-- The table fits the screen, when nothing in it is markup. -/
def Fits (t : Table) : Prop := FitsScreen (t.columns.map Column.contents)

/-- The cells of a column are single lines. -/
def Column.HoldsLines (c : Column) : Prop := ∀ cell ∈ c.header :: c.cells, Text.IsLine cell.toList

theorem Column.getD_contents (c : Column) (i : Nat) :
    c.contents.getD (i + 1) [] = (c.cells.getD i "").toList := by
  rw [contents, List.map_cons, List.getD_cons_succ]
  exact List.getD_map c.cells "" String.toList

/-- A cell of a column is one of its cells, or empty below its end. -/
theorem Column.HoldsLines.cellLines_eq {c : Column} (h : c.HoldsLines) (i : Nat) :
    cellLines (naturalWidth c.contents) (c.contents.getD (i + 1) []) =
      [shownCell (naturalWidth c.contents) (c.cells.getD i "").toList] := by
  rw [c.getD_contents]
  by_cases hi : i < c.cells.length
  · have hmem : c.cells.getD i "" ∈ c.header :: c.cells := by
      rw [List.getD_eq_getElem _ _ hi]
      exact List.mem_cons_of_mem _ (List.getElem_mem hi)
    have hwidth := le_largest_of_mem
      (List.mem_map_of_mem (f := Text.widest) (List.mem_map_of_mem (f := String.toList) hmem))
    rw [(h _ hmem).widest_eq] at hwidth
    exact cellLines_of_isLine (h _ hmem)
      (Nat.le_sub_of_add_le (Nat.add_le_add_right hwidth padding))
  · rw [List.getD_eq_default _ _ (Nat.le_of_not_lt hi)]
    exact cellLines_of_isLine Text.isLine_nil (Nat.zero_le _)

/-- The line of a row below the header. -/
def rowLine (t : Table) (i : Nat) : List Char :=
  bordered ⟨'│', '│', '│'⟩
    (t.columns.map fun c => shownCell (naturalWidth c.contents) (c.cells.getD i "").toList)

theorem isRow_rowLine {t : Table} (hne : t.columns ≠ []) (i : Nat) :
    IsRow (t.columns.map (·.cells.getD i "")) (t.rowLine i) := by
  rw [rowLine, bordered_of_ne_nil (by simpa using hne)]
  exact isRow_of_shownCell _ _ _

theorem rowLines_eq {t : Table} (hne : t.columns ≠ []) (hfits : t.Fits)
    (hplain : ∀ c ∈ t.columns, c.HoldsLines) (i : Nat) :
    rowLines ⟨'│', '│', '│'⟩ (columnWidths (t.columns.map Column.contents))
      (rowAt (t.columns.map Column.contents) (i + 1)) = [t.rowLine i] := by
  rw [columnWidths_of_fitsScreen hfits, rowAt, List.map_map, List.map_map]
  exact rowLines_of_cells hne fun c hc => (hplain c hc).cellLines_eq i

theorem height_contents {t : Table} (hne : t.columns ≠ []) :
    largest ((t.columns.map Column.contents).map List.length) =
      largest (t.columns.map (·.cells.length)) + 1 := by
  have hlength : (t.columns.map Column.contents).map List.length =
      t.columns.map fun c => c.cells.length + 1 := by
    simp [Column.contents, Function.comp_def]
  rw [hlength, largest_map_succ hne]

theorem exists_layOut_eq (title : List Char) (columns : List (List (List Char))) :
    ∃ above below, layOut title columns = above ++
      (List.range (largest (columns.map List.length) - 1)).flatMap (fun i =>
        rowLines ⟨'│', '│', '│'⟩ (columnWidths columns) (rowAt columns (i + 1))) ++ below :=
  ⟨_, _, rfl⟩

/-- A table that fits the screen shows its rows when its cells are single lines. -/
theorem showsRows_layOut {t : Table} (hfits : t.Fits) (hplain : ∀ c ∈ t.columns, c.HoldsLines)
    (title : List Char) :
    ShowsRows t.rows (ofLines (layOut title (t.columns.map Column.contents))) := by
  obtain ⟨above, below, hlayOut⟩ := exists_layOut_eq title (t.columns.map Column.contents)
  by_cases hne : t.columns = []
  · refine ⟨above, [], below, ?_, ?_⟩
    · rw [hlayOut, hne]
      rfl
    · rw [rows, hne]
      exact .nil
  · refine ⟨above, (List.range (largest (t.columns.map (·.cells.length)))).map t.rowLine, below,
      ?_, ?_⟩
    · rw [hlayOut, height_contents hne, Nat.add_sub_cancel]
      simp only [rowLines_eq hne hfits hplain, ← List.map_eq_flatMap]
    · rw [rows, List.forall₂_map_left_iff, List.forall₂_map_right_iff, List.forall₂_same]
      exact fun i _ => isRow_rowLine hne i

end SdkGlue.Table
