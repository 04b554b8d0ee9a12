import Mathlib.Data.List.Basic

/-!
# The text up to a mark
-/

namespace SdkGlue.Text

variable {s front : List Char} {mark : Char}

theorem takeWhile_ne_append (h : mark ∉ front) (rest : List Char) :
    (front ++ rest).takeWhile (· != mark) = front ++ rest.takeWhile (· != mark) := by
  apply List.takeWhile_append_of_pos
  intro c hc
  apply bne_iff_ne.mpr
  rintro rfl
  exact h hc

theorem takeWhile_ne_append_cons (h : mark ∉ front) (rest : List Char) :
    (front ++ mark :: rest).takeWhile (· != mark) = front := by
  rw [takeWhile_ne_append h, List.takeWhile_cons_of_neg (by simp), List.append_nil]

theorem takeWhile_ne_eq_iff : s.takeWhile (· != mark) = front ↔
    mark ∉ front ∧ (s = front ∨ ∃ rest, s = front ++ mark :: rest) := by
  have hself : ∀ {t : List Char}, mark ∉ t → t.takeWhile (· != mark) = t := by
    intro t h
    simpa using takeWhile_ne_append h []
  constructor
  · rintro rfl
    by_cases hmark : mark ∈ s
    · obtain ⟨before, rest, rfl, hbefore⟩ := List.eq_append_cons_of_mem hmark
      rw [takeWhile_ne_append_cons hbefore]
      exact ⟨hbefore, .inr ⟨rest, rfl⟩⟩
    · rw [hself hmark]
      exact ⟨hmark, .inl rfl⟩
  · rintro ⟨hfront, rfl | ⟨rest, rfl⟩⟩
    · exact hself hfront
    · exact takeWhile_ne_append_cons hfront rest

end SdkGlue.Text
