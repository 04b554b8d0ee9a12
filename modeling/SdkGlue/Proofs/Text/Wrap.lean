import SdkGlue.Proofs.Text.Split
import SdkGlue.Text.Wrap

/-!
# Texts that stay on their line

A text without line ends and tabs is one line of the screen, and it is not wrapped
when it fits.
-/

namespace SdkGlue.Text

variable {s t : List Char} {inner : Nat}

theorem width_le_of_sublist (h : s.Sublist t) : width s ≤ width t := by
  induction h with
  | slnil => exact Nat.le_refl _
  | cons c _ ih => exact Nat.le_trans ih (Nat.le_add_left _ _)
  | cons_cons c _ ih => exact Nat.add_le_add_left ih _

theorem trimEnd_sublist (s : List Char) : (trimEnd s).Sublist s := by
  have h := (List.dropWhile_sublist (l := s.reverse) isBlank).reverse
  rwa [List.reverse_reverse] at h

theorem trimEnd_eq_self (h : ∀ c ∈ s.getLast?, isBlank c = false) : trimEnd s = s := by
  rw [trimEnd, List.reverse_eq_iff]
  cases hs : s.reverse with
  | nil => rfl
  | cons c rest =>
      have hlast : c ∈ s.getLast? := by rw [← List.head?_reverse, hs, List.head?_cons]; rfl
      rw [List.dropWhile_cons_of_neg (by simp [h c hlast])]

/-- A text on one line, with no tab in it and no blank at its end. -/
structure IsLine (s : List Char) : Prop where
  shown : ∀ c ∈ s, c ≠ '\t' ∧ endsLine c = false
  trimmed : trimEnd s = s

theorem isLine_nil : IsLine [] := ⟨nofun, rfl⟩

theorem expandTabs_of_not_mem (h : '\t' ∉ s) (column : Nat) : expandTabs column s = s := by
  induction s generalizing column with
  | nil => rfl
  | cons c s ih =>
      simp only [List.mem_cons, not_or] at h
      rw [expandTabs, if_neg (Ne.symm h.1), ih h.2]

theorem IsLine.screenLines_eq (h : IsLine s) : screenLines s = [s] := by
  have hline : '\n' ∉ s := fun hmem => absurd (h.shown _ hmem).2 (by decide)
  have htab : '\t' ∉ s := fun hmem => (h.shown _ hmem).1 rfl
  rw [screenLines, splitOn_of_not_mem hline, List.map_singleton, expandTabs_of_not_mem htab]

theorem IsLine.widest_eq (h : IsLine s) : widest s = width s := by
  have hfrom : ∀ (t : List Char) used, (∀ c ∈ t, endsLine c = false) →
      widestFrom used t = used + width t := by
    intro t
    induction t with
    | nil => exact fun used _ => rfl
    | cons c t ih =>
        intro used ht
        rw [List.forall_mem_cons] at ht
        rw [widestFrom, ht.1, if_neg (by decide), ih _ ht.2, width_cons, Nat.add_assoc]
  rw [widest, hfrom s 0 fun c hc => (h.shown c hc).2, Nat.zero_add]

theorem IsLine.trimExcess_eq (h : IsLine s) (size : Nat) : trimExcess size s = s := by
  rw [trimExcess, h.trimmed, Nat.max_eq_left (Nat.min_le_left _ _), List.take_length]

/-- Words that fit are put on one line. -/
theorem foldl_place_of_width_le {fold : Bool} {ws : List (List Char)} {line : List Char}
    (h : width line + width ws.flatten ≤ inner) :
    ws.foldl (Filling.place inner fold) ⟨[], line⟩ = ⟨[], line ++ ws.flatten⟩ := by
  induction ws generalizing line with
  | nil => simp
  | cons w ws ih =>
      have htrim := width_le_of_sublist (trimEnd_sublist w)
      rw [List.flatten_cons, width_append] at h
      have hplace : Filling.place inner fold ⟨[], line⟩ w = ⟨[], line ++ w⟩ := by
        simp only [Filling.place]
        rw [if_pos (by omega)]
      rw [List.foldl_cons, hplace, ih (by rw [width_append]; omega), List.append_assoc,
        List.flatten_cons]

/-- A line that fits is not wrapped. -/
theorem wrap_of_width_le {fold : Bool} (h : width s ≤ inner) : wrap inner fold s = [s] := by
  unfold wrap
  split
  · rfl
  · next hne =>
      have hwords : (words s).flatten = s := flatten_words hne
      simp only
      rw [foldl_place_of_width_le (by rw [hwords, width_nil]; omega), hwords]
      rfl

end SdkGlue.Text
