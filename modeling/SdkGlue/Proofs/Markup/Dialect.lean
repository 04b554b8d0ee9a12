import Mathlib.Data.List.SplitBy
import SdkGlue.Markup
import SdkGlue.Proofs.Except

/-!
# Ordinary dialects

All that is used of a dialect is that one colon makes no name of a picture, and that a
style written in small letters has a canonical name.
-/

namespace SdkGlue

namespace Style

/-! ## Names without parentheses -/

theorem not_mem_lower {s : String} (h : '(' ∉ s.toList) : '(' ∉ (lower s).toList := by
  rw [lower, String.toList_ofList, List.mem_map]
  rintro ⟨c, hc, heq⟩
  unfold Char.toLower at heq
  split at heq
  · next hupper =>
      -- a small letter is no parenthesis
      have hcode := congrArg (fun c : Char => c.val.toNat) heq
      simp only [ge_iff_le, UInt32.le_iff_toNat_le] at hupper
      simp [UInt32.toNat_add] at hcode hupper
      omega
  · exact h (heq ▸ hc)

theorem leavesOutNumber_eq_false {word : String} (h : '(' ∉ word.toList) :
    leavesOutNumber word = false := by
  have hnone : argument? "rgb" word.toList = none := by
    rw [argument?, if_neg]
    simp only [Bool.and_eq_true, not_and]
    intro hprefix
    exact absurd ((List.isPrefixOf_iff_prefix.mp hprefix).subset (by decide)) h
  rw [leavesOutNumber, hnone]
  rfl

theorem readColour_ne {word : String} (h : '(' ∉ word.toList) :
    readColour word ≠ .error .noNumber := by
  rw [readColour, leavesOutNumber_eq_false h]
  split <;> simp

theorem readAttribute_ne (word : String) : readAttribute word ≠ .error .noNumber := by
  rw [readAttribute]
  split <;> simp

theorem read_ne {words : List String} (h : ∀ word ∈ words, '(' ∉ word.toList) (d : Draft) :
    read d words ≠ .error .noNumber := by
  fun_induction read d words with
  | case1 => simp
  | case2 _ _ _ _ _ ih =>
      simp only [List.forall_mem_cons] at h
      exact bind_ne_error (readColour_ne (not_mem_lower h.2.1)) fun a => ih a h.2.2
  | case3 _ _ _ _ _ ih =>
      simp only [List.forall_mem_cons] at h
      exact bind_ne_error (readAttribute_ne _) fun a => ih a h.2.2
  | case4 _ _ _ _ _ ih =>
      simp only [List.forall_mem_cons] at h
      exact ih h.2.2
  | case5 _ _ _ _ _ _ _ _ ih =>
      rw [List.forall_mem_cons] at h
      exact ih h.2
  | case6 _ _ _ _ _ _ _ ih =>
      rw [List.forall_mem_cons] at h
      exact bind_ne_error (readColour_ne (not_mem_lower h.1)) fun a => ih a h.2

theorem exists_canonical {name : List Char} (h : '(' ∉ name) :
    ∃ style, canonical name = .ok style := by
  have hwords : ∀ word ∈ splitWords name, '(' ∉ word.toList := by
    intro word hword
    obtain ⟨piece, hpiece, rfl⟩ := List.mem_map.mp hword
    rw [String.toList_ofList]
    intro hmem
    apply h
    rw [← List.flatten_splitBy (fun a b => decide (Text.isBlank a = Text.isBlank b)) name]
    exact List.mem_flatten.mpr ⟨piece, List.mem_of_mem_filter hpiece, hmem⟩
  have hread := read_ne hwords {}
  unfold canonical
  split
  · exact ⟨_, rfl⟩
  · exact ⟨_, rfl⟩
  · next heq => exact absurd heq hread

end Style

namespace Markup.Dialect

/-- What is used of a dialect. -/
structure IsOrdinary (d : Dialect) : Prop where
  pictures_eq : ∀ s : List Char, s.count ':' ≤ 1 → d.pictures s = s
  exists_style : ∀ name : List Char, (∀ c ∈ name, c.isLower) →
    ∃ style, d.style name [] = .ok style

theorem isOrdinary_small : IsOrdinary small where
  pictures_eq _ _ := rfl
  exists_style name h := by
    have hparen : '(' ∉ name := fun hmem => absurd (h _ hmem) (by decide)
    obtain ⟨style, hstyle⟩ := Style.exists_canonical hparen
    exact ⟨style, by simp [small, hstyle]⟩

end Markup.Dialect

end SdkGlue
