import SdkGlue.Include
import SdkGlue.Proofs.Text.Blank
import SdkGlue.Proofs.Text.Upto

/-!
# The lines that hold a directive

The path of a line is read exactly when the line is a directive: the reader
skips as many blanks as it can, and that loses no directive, since a blank
begins neither a word nor a mark.
-/

namespace SdkGlue.Include

variable {s line path rest word : List Char} {c closing : Char}

theorem afterWord_eq_some_iff : afterWord word s = some rest ↔ s = word ++ rest := by
  fun_induction afterWord word s with
  | case1 s => simp
  | case2 => simp
  | case3 w word s ih => simp [ih]
  | case4 w word c s hne => simp [Ne.symm hne]

theorem afterWord_trimStart_iff (hc : Text.isBlank c = false) :
    afterWord (c :: word) (Text.trimStart s) = some rest ↔
      ∃ w, Text.allBlank w = true ∧ s = w ++ (c :: word ++ rest) := by
  rw [Text.holds_trimStart_iff (p := fun t => afterWord (c :: word) t = some rest)]
  · simp only [afterWord_eq_some_iff]
    constructor
    · rintro ⟨w, _, hw, hs, rfl⟩
      exact ⟨w, hw, hs⟩
    · rintro ⟨w, hw, hs⟩
      exact ⟨w, _, hw, hs, rfl⟩
  · intro d t h
    obtain ⟨rfl, -⟩ := List.cons.inj (afterWord_eq_some_iff.mp h)
    exact hc

theorem enclosed_append_cons (hpath : closing ∉ path) (rest : List Char) :
    enclosed closing (path ++ closing :: rest) = if path = [] then none else some path := by
  simp [enclosed, Text.takeWhile_ne_append_cons hpath]

theorem enclosed_eq_some_iff : enclosed closing s = some path ↔
    path ≠ [] ∧ closing ∉ path ∧ ∃ rest, s = path ++ closing :: rest := by
  constructor
  · intro h
    by_cases hmem : closing ∈ s
    · -- the first closing mark ends the path
      obtain ⟨before, rest, rfl, hbefore⟩ := List.eq_append_cons_of_mem hmem
      rw [enclosed_append_cons hbefore] at h
      split at h
      · cases h
      · next hne =>
          cases h
          exact ⟨hne, hbefore, rest, rfl⟩
    · simp [enclosed, hmem] at h
  · rintro ⟨hne, hpath, rest, rfl⟩
    rw [enclosed_append_cons hpath, if_neg hne]

/-- The marks around a path are quotation marks or angle brackets. -/
inductive Marks : Char → Char → Prop
  | quotation : Marks '"' '"'
  | angle : Marks '<' '>'

theorem delimited_eq_some_iff : delimited s = some path ↔ ∃ opening closing rest,
    Marks opening closing ∧ path ≠ [] ∧ closing ∉ path ∧
      s = opening :: path ++ closing :: rest := by
  constructor
  · intro h
    unfold delimited at h
    split at h
    · obtain ⟨hne, hpath, rest, rfl⟩ := enclosed_eq_some_iff.mp h
      exact ⟨_, _, rest, .quotation, hne, hpath, rfl⟩
    · obtain ⟨hne, hpath, rest, rfl⟩ := enclosed_eq_some_iff.mp h
      exact ⟨_, _, rest, .angle, hne, hpath, rfl⟩
    · cases h
  · rintro ⟨_, _, rest, hmarks, hne, hpath, rfl⟩
    cases hmarks with
    | quotation => exact enclosed_eq_some_iff.mpr ⟨hne, hpath, rest, rfl⟩
    | angle => exact enclosed_eq_some_iff.mpr ⟨hne, hpath, rest, rfl⟩

/-- A line holds a directive with the path; blanks and the path may go over line
ends, and anything may follow the closing mark. -/
def IsDirective (line path : List Char) : Prop :=
  ∃ w₁ w₂ w₃ opening closing rest,
    Text.allBlank w₁ = true ∧ Text.allBlank w₂ = true ∧ Text.allBlank w₃ = true ∧
    Marks opening closing ∧ path ≠ [] ∧ closing ∉ path ∧
    line = w₁ ++ '#' :: w₂ ++ "include".toList ++ w₃ ++ opening :: path ++ closing :: rest

theorem path?_eq_some_iff : path? line = some path ↔ IsDirective line path := by
  have hhash : Text.isBlank '#' = false := by decide
  have hword : Text.isBlank 'i' = false := by decide
  have hmark : ∀ c t, delimited (c :: t) = some path → Text.isBlank c = false := by
    intro c t h
    obtain ⟨_, _, _, hmarks, -, -, hs⟩ := delimited_eq_some_iff.mp h
    obtain ⟨rfl, -⟩ := List.cons.inj hs
    cases hmarks <;> decide
  have hinclude : "include".toList = 'i' :: "nclude".toList := by decide
  unfold path?
  rw [hinclude]
  simp only [Option.bind_eq_bind, Option.bind_eq_some_iff, afterWord_trimStart_iff hhash,
    afterWord_trimStart_iff hword,
    Text.holds_trimStart_iff (p := fun t => delimited t = some path) hmark,
    delimited_eq_some_iff]
  constructor
  · rintro ⟨_, ⟨w₁, h₁, rfl⟩, _, ⟨w₂, h₂, rfl⟩, w₃, _, h₃, rfl, opening, closing, rest, hmarks,
      hne, hpath, rfl⟩
    refine ⟨w₁, w₂, w₃, opening, closing, rest, h₁, h₂, h₃, hmarks, hne, hpath, ?_⟩
    rw [hinclude]
    simp only [List.append_assoc, List.cons_append, List.nil_append]
  · rintro ⟨w₁, w₂, w₃, opening, closing, rest, h₁, h₂, h₃, hmarks, hne, hpath, rfl⟩
    refine ⟨_, ⟨w₁, h₁, ?_⟩, _, ⟨w₂, h₂, rfl⟩, w₃, _, h₃, rfl, opening, closing, rest, hmarks,
      hne, hpath, rfl⟩
    rw [hinclude]
    simp only [List.append_assoc, List.cons_append, List.nil_append]

/-- A line names at most one path, and it is read exactly when there is one. -/
theorem directives_read (line : List Char) :
    (∀ path, path? line = some path ↔ IsDirective line path) ∧
      (∀ path path', IsDirective line path → IsDirective line path' → path = path') ∧
      (path? line = none ↔ ∀ path, ¬ IsDirective line path) := by
  refine ⟨fun path => path?_eq_some_iff, fun path path' h h' => ?_, ?_⟩
  · have hread := path?_eq_some_iff.mpr h
    exact Option.some.inj (hread.symm.trans (path?_eq_some_iff.mpr h'))
  · simp only [Option.eq_none_iff_forall_ne_some, ne_eq, path?_eq_some_iff]

/-- A directive over three lines; only the mark that opens the path can close it. -/
theorem directives_read_threeLines :
    IsDirective "#\n include\u2003<a\"\nb>\"".toList "a\"\nb".toList ∧
      path? "#\n include\u2003<a\"\nb>\"".toList = some "a\"\nb".toList ∧
      ∀ path, IsDirective "#\n include\u2003<a\"\nb>\"".toList path → path = "a\"\nb".toList := by
  have h : IsDirective "#\n include\u2003<a\"\nb>\"".toList "a\"\nb".toList :=
    ⟨[], ['\n', ' '], ['\u2003'], '<', '>', ['"'], by decide, by decide, by decide, .angle,
      by decide, by decide, by decide⟩
  obtain ⟨hread, hunique, -⟩ := directives_read "#\n include\u2003<a\"\nb>\"".toList
  exact ⟨h, (hread _).mpr h, fun path hpath => hunique _ _ hpath h⟩

/-! ## The line end -/

theorem isDirective_append_newline : IsDirective (line ++ ['\n']) path ↔ IsDirective line path := by
  constructor
  · rintro ⟨w₁, w₂, w₃, opening, closing, rest, h₁, h₂, h₃, hmarks, hne, hpath, hline⟩
    refine ⟨w₁, w₂, w₃, opening, closing, rest.dropLast, h₁, h₂, h₃, hmarks, hne, hpath, ?_⟩
    -- a closing mark is no line end, so the line end is behind it
    have hrest : rest ≠ [] := by
      rintro rfl
      obtain ⟨-, hlast⟩ := List.append_inj' hline rfl
      cases hmarks <;> cases hlast
    have hinit := congrArg List.dropLast hline
    rwa [List.dropLast_concat, List.dropLast_append_of_ne_nil (by simp),
      List.dropLast_cons_of_ne_nil hrest] at hinit
  · rintro ⟨w₁, w₂, w₃, opening, closing, rest, h₁, h₂, h₃, hmarks, hne, hpath, rfl⟩
    refine ⟨w₁, w₂, w₃, opening, closing, rest ++ ['\n'], h₁, h₂, h₃, hmarks, hne, hpath, ?_⟩
    simp only [List.append_assoc, List.cons_append]

/-- The end of a line neither completes a directive nor spoils one. -/
theorem path?_append_newline (line : List Char) : path? (line ++ ['\n']) = path? line := by
  apply Option.ext
  intro path
  rw [path?_eq_some_iff, path?_eq_some_iff, isDirective_append_newline]

end SdkGlue.Include
