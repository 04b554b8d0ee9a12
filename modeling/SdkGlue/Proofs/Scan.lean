import SdkGlue.Proofs.Catalog.Libraries
import SdkGlue.Scan

/-!
# What a scan finds

The members that a scan of a source finds are those that some line means which
stands before the first type definition.
-/

namespace SdkGlue.Scan

variable {lines : List (List Char)} {bytes : List UInt8} {m : Member}

/-- A line of the source before its first type definition includes the member. -/
def Includes (bytes : List UInt8) (m : Member) : Prop :=
  ∃ before line after path, Text.lines (Text.Utf8.decodeLossy bytes) = before ++ line :: after ∧
    (∀ l ∈ before ++ [line], ¬ "typedef".toList <+: l) ∧
    Include.path? line = some path ∧ Include.resolve path = some m

theorem Includes.mem_sdk (h : Includes bytes m) : m ∈ Catalog.sdk := by
  obtain ⟨_, _, _, _, -, -, -, hfind⟩ := h
  exact Catalog.mem_of_find? hfind

theorem mem_region_iff {line : List Char} :
    line ∈ region lines ↔ ∃ before after, lines = before ++ line :: after ∧
      ∀ l ∈ before ++ [line], ¬ "typedef".toList <+: l := by
  have hends : ∀ l, endsRegion l = true ↔ "typedef".toList <+: l := fun l =>
    List.isPrefixOf_iff_prefix
  constructor
  · intro h
    obtain ⟨before, after, hsplit⟩ := List.append_of_mem h
    refine ⟨before, after ++ lines.dropWhile (!endsRegion ·), ?_, fun l hl hend => ?_⟩
    · calc lines
          _ = region lines ++ lines.dropWhile (!endsRegion ·) :=
            List.takeWhile_append_dropWhile.symm
          _ = before ++ line :: (after ++ lines.dropWhile (!endsRegion ·)) := by
            rw [hsplit, List.append_assoc, List.cons_append]
    · have hmem : l ∈ region lines := by
        rw [hsplit]
        rcases List.mem_append.mp hl with hl | hl
        · exact List.mem_append_left _ hl
        · rw [List.mem_singleton.mp hl]
          simp
      have hopen := List.all_takeWhile (p := (!endsRegion ·)) (l := lines)
      have hkept := List.all_eq_true.mp hopen l hmem
      simp [(hends l).mpr hend] at hkept
  · rintro ⟨before, after, rfl, hall⟩
    have hkept : ∀ l ∈ before ++ [line], (!endsRegion l) = true := by
      intro l hl
      have hne : endsRegion l ≠ true := fun hend => hall l hl ((hends l).mp hend)
      simpa using hne
    rw [region, List.append_cons, List.takeWhile_append_of_pos hkept]
    simp

theorem mem_members_iff : m ∈ (ofBytes bytes).members ↔ Includes bytes m := by
  simp only [ofBytes, ofText, ofLines, paths, Catalog.mem_arrange, List.mem_filterMap]
  constructor
  · rintro ⟨-, path, ⟨line, hline, hpath⟩, hm⟩
    obtain ⟨before, after, hlines, hopen⟩ := mem_region_iff.mp hline
    exact ⟨before, line, after, path, hlines, hopen, hpath, hm⟩
  · rintro ⟨before, line, after, path, hlines, hopen, hpath, hm⟩
    have hline := mem_region_iff.mpr ⟨before, after, hlines, hopen⟩
    exact ⟨Catalog.mem_of_find? hm, path, ⟨line, hline, hpath⟩, hm⟩

end SdkGlue.Scan
