import Mathlib.Data.List.Forall2
import SdkGlue.Include
import SdkGlue.Proofs.Catalog.Keys
import SdkGlue.Proofs.Text.Upto

/-!
# The paths that mean a member

A path is folded to its stem, the trimmed text up to the first dot, with path
separators replaced.  Keys hold neither dots nor separators nor blanks, so the
stems that fold to a key are the key itself and what becomes of it when
underscores are written as separators.
-/

namespace SdkGlue.Include

variable {path key s : List Char} {name : String} {m : Member}

/-- What may stand for a character of a key: for an underscore also a path
separator. -/
def Writes (a b : Char) : Prop := b = a ∨ a = '_' ∧ (b = '/' ∨ b = '\\')

def Spells (key s : List Char) : Prop := List.Forall₂ Writes key s

/-- The trimmed path is a spelling of a key of the member, or one with a dot and
any text behind it. -/
def Means (path : List Char) (m : Member) : Prop :=
  ∃ key ∈ Catalog.sdk.keysOf m, ∃ s, Spells key.toList s ∧
    (Text.trim path = s ∨ ∃ rest, Text.trim path = s ++ '.' :: rest)

/-! ## Spellings of a key -/

def IsKeyChar (c : Char) : Prop := c ≠ '.' ∧ c ≠ '/' ∧ c ≠ '\\' ∧ Text.isBlank c = false

instance (c : Char) : Decidable (IsKeyChar c) :=
  inferInstanceAs (Decidable (_ ∧ _ ∧ _ ∧ _))

theorem isKeyChar_of_mem_keys (h : name ∈ Keyed.keys Catalog.sdk.index) :
    ∀ c ∈ name.toList, IsKeyChar c := by
  have hall : ∀ m ∈ Catalog.sdk, m.name.toList.all (IsKeyChar ·) = true ∧
      m.library.toList.all (IsKeyChar ·) = true := by decide +kernel
  obtain ⟨m, hm, rfl | rfl⟩ := Catalog.mem_keys_index h
  · simpa using (hall m hm).1
  · simpa using (hall m hm).2

theorem foldSeparator_eq_iff {a b : Char} (ha : IsKeyChar a) :
    foldSeparator b = a ↔ Writes a b := by
  obtain ⟨-, hslash, hback, -⟩ := ha
  unfold foldSeparator Writes
  split
  · next hb =>
      have hne : b ≠ a := by
        rintro rfl
        exact hb.elim hslash hback
      simp [hb, hne, eq_comm]
  · next hb => simp [hb]

theorem map_foldSeparator_eq_iff (hkey : ∀ c ∈ key, IsKeyChar c) :
    s.map foldSeparator = key ↔ Spells key s := by
  induction key generalizing s with
  | nil => simp [Spells]
  | cons a key ih =>
      cases s with
      | nil => simp [Spells]
      | cons b s =>
          have ha := hkey a List.mem_cons_self
          have hrest := ih (s := s) fun c hc => hkey c (List.mem_cons_of_mem a hc)
          rw [Spells, List.forall₂_cons, ← foldSeparator_eq_iff ha, List.map_cons, List.cons.injEq,
            hrest]
          rfl

theorem dot_not_mem_of_spells (hkey : ∀ c ∈ key, IsKeyChar c) (h : Spells key s) : '.' ∉ s := by
  induction h with
  | nil => simp
  | @cons a b key s hab _ ih =>
      have hb : b ≠ '.' := by
        rcases hab with rfl | ⟨-, rfl | rfl⟩
        · exact (hkey b List.mem_cons_self).1
        · decide
        · decide
      have hs := ih fun c hc => hkey c (List.mem_cons_of_mem a hc)
      simp [Ne.symm hb, hs]

/-! ## Stems -/

/-- The trimmed path up to its first dot. -/
def stem (path : List Char) : List Char := (Text.trim path).takeWhile (· != '.')

theorem fold_eq (path : List Char) : fold path = (stem path).map foldSeparator := by
  have hdot : ((· != '.') ∘ foldSeparator) = (· != '.') := by
    funext c
    simp only [Function.comp, foldSeparator]
    split
    · next hc => rcases hc with rfl | rfl <;> rfl
    · rfl
  rw [fold, List.takeWhile_map, hdot, stem]

theorem means_iff : Means path m ↔ ∃ key ∈ Catalog.sdk.keysOf m, Spells key.toList (stem path) := by
  constructor
  · rintro ⟨key, hkey, s, hspells, htrim⟩
    have hchars := isKeyChar_of_mem_keys (Catalog.mem_keys_of_mem_keysOf hkey)
    have hstem : stem path = s :=
      Text.takeWhile_ne_eq_iff.mpr ⟨dot_not_mem_of_spells hchars hspells, htrim⟩
    exact ⟨key, hkey, hstem ▸ hspells⟩
  · rintro ⟨key, hkey, hspells⟩
    exact ⟨key, hkey, stem path, hspells, (Text.takeWhile_ne_eq_iff.mp rfl).2⟩

theorem resolve_eq_some_iff : resolve path = some m ↔ Means path m := by
  rw [resolve, ← Catalog.mem_keysOf_iff, means_iff]
  constructor
  · intro h
    have hchars := isKeyChar_of_mem_keys (Catalog.mem_keys_of_mem_keysOf h)
    refine ⟨_, h, (map_foldSeparator_eq_iff hchars).mp ?_⟩
    rw [String.toList_ofList, fold_eq]
  · rintro ⟨key, hkey, hspells⟩
    have hchars := isKeyChar_of_mem_keys (Catalog.mem_keys_of_mem_keysOf hkey)
    rw [fold_eq, (map_foldSeparator_eq_iff hchars).mpr hspells, String.ofList_toList]
    exact hkey

/-! ## Unknown paths -/

/-- No spelling of the key, up to a dot behind it, has the character in this
place: it is a blank, a separator in the place of no underscore, or a dot that
does not end the key. -/
def Misplaced (key : List Char) (i : Nat) (c : Char) : Prop :=
  Text.isBlank c = true ∨ (c = '/' ∨ c = '\\') ∧ key[i]? ≠ some '_' ∨ c = '.' ∧ key.length ≠ i

theorem not_writes_of_misplaced {a c : Char} {i : Nat} (ha : IsKeyChar a) (hi : key[i]? = some a)
    (h : Misplaced key i c) : ¬ Writes a c := by
  obtain ⟨hdot, hslash, hback, hblank⟩ := ha
  rintro (rfl | ⟨rfl, hc⟩)
  · rcases h with h | ⟨h | h, -⟩ | ⟨h, -⟩
    · exact Bool.false_ne_true (hblank.symm.trans h)
    · exact hslash h
    · exact hback h
    · exact hdot h
  · rcases h with h | ⟨-, h⟩ | ⟨rfl, -⟩
    · rcases hc with rfl | rfl <;> exact absurd h (by decide)
    · exact h hi
    · exact absurd hc (by decide)

theorem not_spells_of_misplaced {x y : List Char} {c : Char} (hkey : ∀ c ∈ key, IsKeyChar c)
    (htrim : Text.trim path = x ++ c :: y) (hx : '.' ∉ x) (h : Misplaced key x.length c) :
    ¬ Spells key (stem path) := by
  intro hspells
  rw [stem, htrim, Text.takeWhile_ne_append hx] at hspells
  by_cases hc : c = '.'
  · -- the stem ends here, and so would the key
    subst hc
    rw [List.takeWhile_cons_of_neg (by simp), List.append_nil] at hspells
    rcases h with h | ⟨h, -⟩ | ⟨-, h⟩
    · exact absurd h (by decide)
    · exact absurd h (by decide)
    · exact h hspells.length_eq
  · rw [List.takeWhile_cons_of_pos (by simpa)] at hspells
    have hlt : x.length < key.length := by
      have hlength := hspells.length_eq
      simp only [List.length_append, List.length_cons] at hlength
      omega
    have hwrites := hspells.get hlt (by simp)
    simp only [List.get_eq_getElem, List.getElem_append_right (Nat.le_refl _), Nat.sub_self,
      List.getElem_cons_zero] at hwrites
    exact not_writes_of_misplaced (hkey _ (List.getElem_mem hlt)) (List.getElem?_eq_getElem hlt) h
      hwrites

/-- A path resolves to the member that it means, which is one at most.  It
resolves to none when a character of it that no dot precedes is out of place for
every key. -/
theorem resolve_spellings (path : List Char) :
    (∀ m, resolve path = some m ↔ Means path m) ∧
      (∀ m m', Means path m → Means path m' → m = m') ∧
      ∀ x c y, Text.trim path = x ++ c :: y → '.' ∉ x →
        (∀ key ∈ Keyed.keys Catalog.sdk.index, Misplaced key.toList x.length c) →
        resolve path = none := by
  refine ⟨fun m => resolve_eq_some_iff, fun m m' h h' => ?_, fun x c y htrim hx hall => ?_⟩
  · have hresolve := resolve_eq_some_iff.mpr h
    exact Option.some.inj (hresolve.symm.trans (resolve_eq_some_iff.mpr h'))
  · rw [Option.eq_none_iff_forall_ne_some]
    intro m hm
    obtain ⟨key, hkey, hspells⟩ := means_iff.mp (resolve_eq_some_iff.mp hm)
    have hkeys := Catalog.mem_keys_of_mem_keysOf hkey
    exact not_spells_of_misplaced (isKeyChar_of_mem_keys hkeys) htrim hx (hall key hkeys) hspells

/-- A separator may be of either kind, but there is one only. -/
theorem resolve_spellings_headers :
    Means "\thardware\\adc.h.in ".toList ⟨"adc", "hardware_adc"⟩ ∧
      resolve "\thardware\\adc.h.in ".toList = some ⟨"adc", "hardware_adc"⟩ ∧
      (∀ m, Means "\thardware\\adc.h.in ".toList m → m = ⟨"adc", "hardware_adc"⟩) ∧
      resolve "pico//stdlib.h".toList = none := by
  have hmeans : Means "\thardware\\adc.h.in ".toList ⟨"adc", "hardware_adc"⟩ := by
    refine ⟨"hardware_adc", by decide, "hardware\\adc".toList, ?_, .inr ⟨"h.in".toList, by decide⟩⟩
    unfold Spells Writes
    decide
  have hmisplaced : ∀ key ∈ Keyed.keys Catalog.sdk.index, Misplaced key.toList 5 '/' := by
    have hall : ∀ m ∈ Catalog.sdk, Misplaced m.name.toList 5 '/' ∧
        Misplaced m.library.toList 5 '/' := by
      unfold Misplaced
      decide +kernel
    intro key hkey
    obtain ⟨m, hm, rfl | rfl⟩ := Catalog.mem_keys_index hkey
    · exact (hall m hm).1
    · exact (hall m hm).2
  obtain ⟨hresolve, hunique, -⟩ := resolve_spellings "\thardware\\adc.h.in ".toList
  obtain ⟨-, -, hnone⟩ := resolve_spellings "pico//stdlib.h".toList
  exact ⟨hmeans, (hresolve _).mpr hmeans, fun m h => hunique m _ h hmeans,
    hnone "pico/".toList '/' "stdlib.h".toList (by decide) (by decide) hmisplaced⟩

end SdkGlue.Include
