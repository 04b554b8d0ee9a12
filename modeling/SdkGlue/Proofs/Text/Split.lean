import SdkGlue.Text.Lines

/-!
# Pieces between separators

A text that is put together is split into the pieces of its parts.  Where the
parts meet at a separator the pieces stay apart; where they meet at another
character two pieces become one.
-/

namespace SdkGlue.Text

variable {sep : Char}

theorem splitOn_of_not_mem {s : List Char} (h : sep ∉ s) : splitOn sep s = [s] := by
  induction s with
  | nil => rfl
  | cons c s ih =>
      simp only [List.mem_cons, not_or] at h
      simp [splitOn, Ne.symm h.1, ih h.2]

theorem splitOn_append_cons (s rest : List Char) :
    splitOn sep (s ++ sep :: rest) = splitOn sep s ++ splitOn sep rest := by
  induction s with
  | nil => simp [splitOn]
  | cons c s ih =>
      by_cases hc : c = sep
      · simp [splitOn, hc, ih]
      · have hs : splitOn sep s ≠ [] := splitOn_ne_nil sep s
        obtain ⟨q, qs, hq⟩ := List.exists_cons_of_ne_nil hs
        simp [splitOn, hc, ih, hq]

theorem mem_of_mem_splitOn {s piece : List Char} {c : Char} (h : piece ∈ splitOn sep s)
    (hc : c ∈ piece) : c ∈ s := by
  induction s generalizing piece with
  | nil =>
      rw [List.mem_singleton.mp h] at hc
      cases hc
  | cons d s ih =>
      simp only [splitOn] at h
      split at h
      · rcases List.mem_cons.mp h with rfl | h
        · cases hc
        · exact List.mem_cons_of_mem d (ih h hc)
      · obtain ⟨q, qs, hq⟩ := List.exists_cons_of_ne_nil (splitOn_ne_nil sep s)
        simp only [hq, List.modifyHead_cons, List.mem_cons] at h ih
        rcases h with rfl | h
        · rcases List.mem_cons.mp hc with rfl | hc
          · exact List.mem_cons_self
          · exact List.mem_cons_of_mem d (ih (.inl rfl) hc)
        · exact List.mem_cons_of_mem d (ih (.inr h) hc)

theorem splitOn_append_cons_of_ne {c : Char} (hc : c ≠ sep) (s rest : List Char) :
    ∃ before left right after, splitOn sep s = before ++ [left] ∧
      splitOn sep rest = right :: after ∧
      splitOn sep (s ++ c :: rest) = before ++ (left ++ c :: right) :: after := by
  induction s with
  | nil =>
      obtain ⟨right, after, hrest⟩ := List.exists_cons_of_ne_nil (splitOn_ne_nil sep rest)
      exact ⟨[], [], right, after, rfl, hrest, by simp [splitOn, hc, hrest]⟩
  | cons d s ih =>
      obtain ⟨before, left, right, after, hs, hrest, hsplit⟩ := ih
      by_cases hd : d = sep
      · exact ⟨[] :: before, left, right, after, by simp [splitOn, hd, hs], hrest,
          by simp [splitOn, hd, hsplit]⟩
      · cases before with
        | nil =>
            exact ⟨[], d :: left, right, after, by simp [splitOn, hd, hs], hrest,
              by simp [splitOn, hd, hsplit]⟩
        | cons first before =>
            exact ⟨(d :: first) :: before, left, right, after, by simp [splitOn, hd, hs], hrest,
              by simp [splitOn, hd, hsplit]⟩

/-- A character of a text is the separator or stands in a piece. -/
theorem mem_splitOn_of_mem (sep : Char) {s : List Char} {c : Char} (h : c ∈ s) :
    c = sep ∨ ∃ piece ∈ splitOn sep s, c ∈ piece := by
  induction s with
  | nil => cases h
  | cons d s ih =>
      have hs : splitOn sep s ≠ [] := splitOn_ne_nil sep s
      obtain ⟨q, qs, hq⟩ := List.exists_cons_of_ne_nil hs
      simp only [splitOn, hq, List.modifyHead_cons] at ih ⊢
      rcases List.mem_cons.mp h with rfl | h
      · by_cases hc : c = sep
        · exact .inl hc
        · exact .inr ⟨c :: q, by simp [hc], List.mem_cons_self⟩
      · rcases ih h with hc | ⟨piece, hpiece, hc⟩
        · exact .inl hc
        · by_cases hd : d = sep
          · exact .inr ⟨piece, by simp [hd, hpiece], hc⟩
          · rcases List.mem_cons.mp hpiece with rfl | hpiece
            · exact .inr ⟨d :: piece, by simp [hd], List.mem_cons_of_mem d hc⟩
            · exact .inr ⟨piece, by simp [hd, hpiece], hc⟩

/-- A character of joined texts is one of the separator or of a text. -/
theorem mem_intercalate {between : String} {parts : List String} {c : Char}
    (h : c ∈ (between.intercalate parts).toList) :
    c ∈ between.toList ∨ ∃ part ∈ parts, c ∈ part.toList := by
  induction parts with
  | nil => simp at h
  | cons part parts ih =>
      by_cases hne : parts = []
      · subst hne
        exact .inr ⟨part, by simp, by simpa using h⟩
      · rw [String.intercalate_cons_of_ne_nil hne] at h
        simp only [String.toList_append, List.mem_append] at h
        rcases h with (hc | hc) | hc
        · exact .inr ⟨part, by simp, hc⟩
        · exact .inl hc
        · rcases ih hc with hc | ⟨q, hq, hc⟩
          · exact .inl hc
          · exact .inr ⟨q, List.mem_cons_of_mem part hq, hc⟩

end SdkGlue.Text
