import SdkGlue.Text.Blank
import SdkGlue.Text.Lines

/-!
# The first character that is no blank
-/

namespace SdkGlue.Text

variable {s : List Char}

theorem isBlank_newline : isBlank '\n' = true := by decide

theorem isBlank_return : isBlank '\r' = true := by decide

theorem trimStart_cons_of_blank {c : Char} (h : isBlank c = true) (s : List Char) :
    trimStart (c :: s) = trimStart s := by
  simp [trimStart, h]

theorem trimStart_cons_of_not_blank {c : Char} (h : isBlank c = false) (s : List Char) :
    trimStart (c :: s) = c :: s := by
  simp [trimStart, h]

/-- Blanks may be skipped by any rule that skips nothing else. -/
theorem trimStart_dropWhile {p : Char → Bool} (hp : ∀ c, p c = true → isBlank c = true)
    (s : List Char) : trimStart (s.dropWhile p) = trimStart s := by
  induction s with
  | nil => rfl
  | cons c s ih =>
      by_cases hc : p c = true
      · rw [List.dropWhile_cons_of_pos hc, ih, trimStart_cons_of_blank (hp c hc)]
      · rw [List.dropWhile_cons_of_neg hc]

theorem trimStart_append_of_allBlank {w : List Char} (hw : allBlank w = true) (s : List Char) :
    trimStart (w ++ s) = trimStart s := by
  induction w with
  | nil => rfl
  | cons c w ih =>
      simp only [allBlank, List.all_cons, Bool.and_eq_true] at hw
      rw [List.cons_append, trimStart_cons_of_blank hw.1, ih hw.2]

/-- What begins with no blank stands behind the blanks of a text or nowhere. -/
theorem holds_trimStart_iff {p : List Char → Prop}
    (hp : ∀ c s, p (c :: s) → isBlank c = false) :
    p (trimStart s) ↔ ∃ w rest, allBlank w = true ∧ s = w ++ rest ∧ p rest := by
  constructor
  · intro h
    refine ⟨s.takeWhile isBlank, trimStart s, List.all_takeWhile, ?_, h⟩
    exact List.takeWhile_append_dropWhile.symm
  · rintro ⟨w, rest, hw, rfl, h⟩
    rw [trimStart_append_of_allBlank hw]
    cases rest with
    | nil => exact h
    | cons c rest => rwa [trimStart_cons_of_not_blank (hp c rest h)]

theorem head?_trimStart_unifyPairs (s : List Char) :
    (trimStart (unifyPairs s)).head? = (trimStart s).head? := by
  fun_induction unifyPairs s with
  | case1 => rfl
  | case2 s ih =>
      rw [trimStart_cons_of_blank isBlank_newline, trimStart_cons_of_blank isBlank_return,
        trimStart_cons_of_blank isBlank_newline, ih]
  | case3 c s _ ih =>
      cases hc : isBlank c with
      | true => rw [trimStart_cons_of_blank hc, trimStart_cons_of_blank hc, ih]
      | false => rw [trimStart_cons_of_not_blank hc, trimStart_cons_of_not_blank hc]; rfl

end SdkGlue.Text
