import SdkGlue.Proofs.Include.Directive
import SdkGlue.Proofs.Scan
import SdkGlue.Proofs.Text.Lines

/-!
# Scans line by line

A scan goes through the lines one after another and stops at the first that ends
the region.  Empty lines make no difference to it, nor do the ends of lines.
-/

namespace SdkGlue.Scan

variable {xs ys : List (List Char)} {line : List Char} {c : Char}

theorem endsRegion_iff : endsRegion line = true ↔ "typedef".toList <+: line :=
  List.isPrefixOf_iff_prefix

theorem paths_cons (line : List Char) (lines : List (List Char)) :
    paths (line :: lines) =
      if endsRegion line then [] else (Include.path? line).toList ++ paths lines := by
  unfold paths region
  cases hend : endsRegion line with
  | true => simp [hend]
  | false => cases hpath : Include.path? line <;> simp [hend, hpath]

theorem paths_append (xs ys : List (List Char)) :
    paths (xs ++ ys) = if xs.any endsRegion then paths xs else paths xs ++ paths ys := by
  induction xs with
  | nil => rfl
  | cons line xs ih =>
      rw [List.cons_append, paths_cons, paths_cons, ih, List.any_cons]
      cases endsRegion line with
      | true => rfl
      | false =>
          cases xs.any endsRegion with
          | true => rfl
          | false => simp

/-- The findings of two scans together. -/
def union (x y : Scan) : Scan where
  members := Catalog.sdk.arrange (x.members ++ y.members)
  unknown := x.unknown ++ y.unknown

theorem ofLines_append (xs ys : List (List Char)) :
    ofLines (xs ++ ys) =
      if xs.any endsRegion then ofLines xs else (ofLines xs).union (ofLines ys) := by
  unfold ofLines union
  rw [paths_append]
  split
  · rfl
  · have hmembers : Catalog.sdk.arrange ((paths xs ++ paths ys).filterMap Include.resolve) =
        Catalog.sdk.arrange (Catalog.sdk.arrange ((paths xs).filterMap Include.resolve) ++
          Catalog.sdk.arrange ((paths ys).filterMap Include.resolve)) := by
      apply List.filter_congr
      intro m hm
      simp [hm]
    rw [hmembers, List.filter_append, List.map_append]

/-! ## Lines that find nothing -/

theorem paths_filter (lines : List (List Char)) :
    paths (lines.filter (· ≠ [])) = paths lines := by
  induction lines with
  | nil => rfl
  | cons line lines ih =>
      cases line with
      | nil =>
          have hpath : Include.path? [] = none := rfl
          rw [List.filter_cons_of_neg (by simp), ih, paths_cons, hpath]
          rfl
      | cons c line => rw [List.filter_cons_of_pos (by simp), paths_cons, paths_cons, ih]

theorem ofLines_congr (h : paths xs = paths ys) : ofLines xs = ofLines ys := by
  rw [ofLines, ofLines, h]

theorem ofText_eq (s : List Char) : ofText s = ofLines (Text.stretches s) := by
  rw [ofText, ← Text.filter_lines, ofLines_congr (paths_filter _)]

theorem endsRegion_append_newline (line : List Char) :
    endsRegion (line ++ ['\n']) = endsRegion line := by
  rw [Bool.eq_iff_iff, endsRegion_iff, endsRegion_iff]
  constructor
  · intro h
    rcases List.prefix_concat_iff.mp h with heq | hprefix
    · have hlast := congrArg List.getLast? heq
      simp at hlast
    · exact hprefix
  · intro h
    exact h.trans (List.prefix_append line ['\n'])

theorem any_map_append_newline (lines : List (List Char)) :
    (lines.map (· ++ ['\n'])).any endsRegion = lines.any endsRegion := by
  simp only [List.any_map, Function.comp_def, endsRegion_append_newline]

theorem paths_map_append_newline (lines : List (List Char)) :
    paths (lines.map (· ++ ['\n'])) = paths lines := by
  induction lines with
  | nil => rfl
  | cons line lines ih =>
      rw [List.map_cons, paths_cons, paths_cons, endsRegion_append_newline,
        Include.path?_append_newline, ih]

/-- A scan may read the lines with their ends. -/
theorem ofLines_linesWithEnds (s : List Char) : ofLines (Text.linesWithEnds s) = ofText s := by
  have hlines : (Text.lines s).dropLast ++ (Text.lines s).getLast?.toList = Text.lines s := by
    rcases List.eq_nil_or_concat' (Text.lines s) with h | ⟨before, last, h⟩ <;> simp [h]
  apply ofLines_congr
  calc paths (Text.linesWithEnds s)
    _ = paths ((Text.lines s).dropLast ++ (Text.lines s).getLast?.toList) := by
      rw [Text.linesWithEnds, paths_append, paths_append, any_map_append_newline,
        paths_map_append_newline, paths_filter]
    _ = paths (Text.lines s) := by rw [hlines]

/-! ## Texts cut at a line end -/

theorem any_endsRegion_stretches (s : List Char) :
    (Text.stretches s).any endsRegion = true ↔
      ∃ line ∈ Text.lines s, "typedef".toList <+: line := by
  rw [← Text.filter_lines]
  simp only [List.any_eq_true, List.mem_filter, decide_eq_true_eq, endsRegion_iff]
  constructor
  · rintro ⟨line, ⟨hline, -⟩, hend⟩
    exact ⟨line, hline, hend⟩
  · rintro ⟨line, hline, hend⟩
    refine ⟨line, ⟨hline, ?_⟩, hend⟩
    rintro rfl
    simp at hend

theorem ofText_append_cons (hc : Text.isLineEnd c = true) (s rest : List Char) :
    ofText (s ++ c :: rest) =
      if ∃ line ∈ Text.lines s, "typedef".toList <+: line then ofText s
      else (ofText s).union (ofText rest) := by
  simp only [ofText_eq, Text.stretches_append_cons hc, ofLines_append, any_endsRegion_stretches]

end SdkGlue.Scan
