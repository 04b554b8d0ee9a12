import SdkGlue.Proofs.Text.Blank
import SdkGlue.Proofs.Text.Split

/-!
# Lines and line ends

The lines of a text that are not empty are the stretches between its line ends.
A pair of carriage return and line feed has nothing between its characters, so
it does not matter whether it counts as one line end or as two.
-/

namespace SdkGlue.Text

variable {c : Char}

def isLineEnd (c : Char) : Bool := c = '\n' || c = '\r'

/-- The non-empty stretches of a text between line ends. -/
def stretches (s : List Char) : List (List Char) := (s.splitOnP isLineEnd).filter (· ≠ [])

@[simp] theorem stretches_nil : stretches [] = [] := by simp [stretches]

/-- Stretches end at a line end; what else holds of them follows from this. -/
theorem stretches_append_cons (hc : isLineEnd c = true) (s rest : List Char) :
    stretches (s ++ c :: rest) = stretches s ++ stretches rest := by
  rw [stretches, List.splitOnP_append_cons s rest hc, List.filter_append]
  rfl

theorem exists_lines_splitOnP (s : List Char) : ∃ first rest rest',
    lines s = first :: rest ∧ s.splitOnP isLineEnd = first :: rest' ∧
      rest.filter (· ≠ []) = rest'.filter (· ≠ []) := by
  unfold lines
  fun_induction unifyNewlines s with
  | case1 => exact ⟨[], [], [], rfl, List.splitOnP_nil, rfl⟩
  | case2 s ih =>
      obtain ⟨first, rest, rest', hlines, hsplit, hrest⟩ := ih
      refine ⟨[], first :: rest, [] :: first :: rest', ?_, ?_, ?_⟩
      · rw [splitOn, if_pos rfl, hlines]
      · simp [List.splitOnP_cons_eq_if_modifyHead, isLineEnd, hsplit]
      · simp only [List.filter_cons, hrest]
        rfl
  | case3 c s _ ih =>
      obtain ⟨first, rest, rest', hlines, hsplit, hrest⟩ := ih
      cases hc : isLineEnd c with
      | true =>
          refine ⟨[], first :: rest, first :: rest', ?_, ?_, ?_⟩
          · have hend : (if c = '\r' then '\n' else c) = '\n' := by
              simp only [isLineEnd, Bool.or_eq_true, decide_eq_true_eq] at hc
              rcases hc with rfl | rfl <;> rfl
            rw [hend, splitOn, if_pos rfl, hlines]
          · rw [List.splitOnP_cons_eq_if_modifyHead, if_pos hc, hsplit]
          · rw [List.filter_cons, List.filter_cons, hrest]
      | false =>
          refine ⟨c :: first, rest, rest', ?_, ?_, hrest⟩
          · simp only [isLineEnd, Bool.or_eq_false_iff, decide_eq_false_iff_not] at hc
            rw [if_neg hc.2, splitOn, if_neg hc.1, hlines]
            rfl
          · rw [List.splitOnP_cons_eq_if_modifyHead, if_neg (by simp [hc]), hsplit]
            rfl

theorem filter_lines (s : List Char) : (lines s).filter (· ≠ []) = stretches s := by
  obtain ⟨first, rest, rest', hlines, hsplit, hrest⟩ := exists_lines_splitOnP s
  rw [stretches, hlines, hsplit, List.filter_cons, List.filter_cons, hrest]

/-- The lines with their ends.  Behind the last line end there is a line only when
the text goes on. -/
def linesWithEnds (s : List Char) : List (List Char) :=
  (lines s).dropLast.map (· ++ ['\n']) ++ (lines s).getLast?.toList.filter (· ≠ [])

/-! ## Other characters -/

theorem unifyNewlines_cons {s : List Char} (h : c = '\r' → s.head? ≠ some '\n') :
    unifyNewlines (c :: s) = (if c = '\r' then '\n' else c) :: unifyNewlines s := by
  rw [unifyNewlines]
  rintro s' rfl rfl
  exact h rfl rfl

theorem unifyNewlines_of_not_mem {s : List Char} (h : '\r' ∉ s) : unifyNewlines s = s := by
  fun_induction unifyNewlines s with
  | case1 => rfl
  | case2 => exact absurd List.mem_cons_self h
  | case3 c s _ ih =>
      simp only [List.mem_cons, not_or] at h
      rw [if_neg (Ne.symm h.1), ih h.2]

theorem unifyNewlines_append_cons (hc : isLineEnd c = false) (s rest : List Char) :
    unifyNewlines (s ++ c :: rest) = unifyNewlines s ++ c :: unifyNewlines rest := by
  simp only [isLineEnd, Bool.or_eq_false_iff, decide_eq_false_iff_not] at hc
  fun_induction unifyNewlines s with
  | case1 =>
      rw [List.nil_append, unifyNewlines_cons fun h => absurd h hc.2, if_neg hc.2]
      rfl
  | case2 s ih =>
      rw [List.cons_append, List.cons_append, unifyNewlines, ih]
      rfl
  | case3 d s hpair ih =>
      have hhead : d = '\r' → (s ++ c :: rest).head? ≠ some '\n' := by
        rintro rfl
        cases s with
        | nil => simpa using hc.1
        | cons e s =>
            rintro h
            cases h
            exact hpair s rfl rfl
      rw [List.cons_append, unifyNewlines_cons hhead, ih]
      rfl

/-- A character that is no line end stands in the line that it continues. -/
theorem lines_append_cons (hc : isLineEnd c = false) (s rest : List Char) :
    ∃ before left right after, lines s = before ++ [left] ∧ lines rest = right :: after ∧
      lines (s ++ c :: rest) = before ++ (left ++ c :: right) :: after := by
  have hne : c ≠ '\n' := by
    rintro rfl
    exact absurd hc (by decide)
  unfold lines
  rw [unifyNewlines_append_cons hc]
  exact splitOn_append_cons_of_ne hne _ _

end SdkGlue.Text
