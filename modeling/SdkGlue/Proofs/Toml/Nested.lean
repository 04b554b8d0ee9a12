import SdkGlue.Proofs.Except
import SdkGlue.Proofs.Text.Blank
import SdkGlue.Toml.Reader

/-!
# Documents with a table in them

A header makes a table or an array at the top of its document, and nothing that
follows takes it away.  So a TOML text that begins with a bracket describes a
table some field of which holds a table or an array.
-/

namespace SdkGlue.Toml

open Value (Fields)

variable {fields fields' : Fields} {d d' : Draft} {s rest : List Char} {key : Key}

/-- Some field holds a table or an array. -/
def Nested (fields : Fields) : Prop :=
  ∃ k v, Keyed.get? fields k = some v ∧ isClosed v = true

theorem Nested.put_closed (fields : Fields) (k : String) {v : Value} (hv : isClosed v = true) :
    Nested (Keyed.put k v fields) :=
  ⟨k, v, by simp, hv⟩

theorem Nested.put_of_none (h : Nested fields) {k : String} (hk : Keyed.get? fields k = none)
    (v : Value) : Nested (Keyed.put k v fields) := by
  obtain ⟨k', v', hget, hv'⟩ := h
  have hne : k ≠ k' := by
    rintro rfl
    rw [hk] at hget
    cases hget
  exact ⟨k', v', by simp [hne, hget], hv'⟩

/-! ## Tables and entries -/

/-- A dotted key leads into a table or an array. -/
theorem nested_of_within_cons {lists : Bool} {k : String}
    {f : Fields → Except Mistake Fields} (h : within lists (k :: key) f fields = .ok fields') :
    Nested fields' := by
  rw [within] at h
  obtain ⟨v, hv, rfl⟩ := map_eq_ok_iff.mp h
  apply Nested.put_closed
  split at hv
  · obtain ⟨t, -, rfl⟩ := map_eq_ok_iff.mp hv
    rfl
  · split at hv
    · obtain ⟨items, -, rfl⟩ := map_eq_ok_iff.mp hv
      rfl
    · cases hv
  · dsimp only at hv
    split at hv
    · obtain ⟨t, -, rfl⟩ := map_eq_ok_iff.mp hv
      rfl
    · cases hv

theorem Nested.within {lists : Bool} {f : Fields → Except Mistake Fields}
    (hf : ∀ fields fields', Nested fields → f fields = .ok fields' → Nested fields')
    (h : Nested fields) (hw : within lists key f fields = .ok fields') : Nested fields' := by
  cases key with
  | nil => exact hf _ _ h hw
  | cons k key => exact nested_of_within_cons hw

theorem Nested.addEntry {repeated : Mistake} {k : String} {v : Value} (h : Nested fields)
    (ha : addEntry repeated k v fields = .ok fields') : Nested fields' := by
  unfold Toml.addEntry at ha
  split at ha
  · cases ha
  · next hk =>
      cases ha
      exact h.put_of_none (by simpa using hk) v

theorem nested_of_appendTable {k : String} (h : appendTable k fields = .ok fields') :
    Nested fields' := by
  unfold appendTable at h
  split at h
  · cases h
    exact Nested.put_closed _ _ rfl
  · cases h
    exact Nested.put_closed _ _ rfl
  · cases h

namespace Draft

theorem nested_of_openTable (hkey : key ≠ []) (h : d.openTable key = .ok d') : Nested d'.root := by
  obtain ⟨k, key, rfl⟩ := List.exists_cons_of_ne_nil hkey
  unfold openTable at h
  split at h
  · cases h
  · obtain ⟨root, hroot, hd⟩ := bind_eq_ok_iff.mp h
    cases hd
    exact nested_of_within_cons hroot

theorem nested_of_openArrayTable (h : d.openArrayTable key = .ok d') : Nested d'.root := by
  unfold openArrayTable at h
  split at h
  · cases h
  · obtain ⟨root, hroot, hd⟩ := bind_eq_ok_iff.mp h
    cases hd
    cases hparent : parentOf key with
    | nil =>
        rw [hparent] at hroot
        exact nested_of_appendTable hroot
    | cons k parent =>
        rw [hparent] at hroot
        exact nested_of_within_cons hroot

theorem nested_addPair {v : Value} (h : Nested d.root) (ha : d.addPair key v = .ok d') :
    Nested d'.root := by
  unfold addPair at ha
  dsimp only at ha
  split at ha
  · cases ha
  · split at ha
    · cases ha
    · obtain ⟨root, hroot, hd⟩ := bind_eq_ok_iff.mp ha
      cases hd
      exact h.within (fun _ _ hn he => hn.addEntry he) hroot

end Draft

/-! ## Statements and lines -/

theorem ne_nil_of_readKey {n : Nat} (h : readKey n s = .ok (key, rest)) : key ≠ [] := by
  cases n with
  | zero => cases h
  | succ n =>
      rw [readKey] at h
      obtain ⟨⟨part, r⟩, -, h⟩ := bind_eq_ok_iff.mp h
      dsimp only at h
      split at h
      · obtain ⟨⟨parts, r'⟩, -, h⟩ := bind_eq_ok_iff.mp h
        cases h
        simp
      · cases h
        simp

theorem placed_eq_ok_iff {α : Type} {r : Except Mistake α} {a : α} :
    placed rest r = .ok a ↔ r = .ok a :=
  mapError_eq_ok_iff

theorem nested_of_readTableHeader (h : readTableHeader d s = .ok (d', rest)) :
    Nested d'.root := by
  rw [readTableHeader] at h
  obtain ⟨⟨key, r⟩, hkey, h⟩ := bind_eq_ok_iff.mp h
  obtain ⟨e, hopen, h⟩ := bind_eq_ok_iff.mp h
  have hnested := Draft.nested_of_openTable (ne_nil_of_readKey hkey) (placed_eq_ok_iff.mp hopen)
  split at h
  · cases h
    exact hnested
  · cases h

theorem nested_of_readArrayTableHeader (h : readArrayTableHeader d s = .ok (d', rest)) :
    Nested d'.root := by
  rw [readArrayTableHeader] at h
  obtain ⟨⟨key, r⟩, -, h⟩ := bind_eq_ok_iff.mp h
  obtain ⟨e, hopen, h⟩ := bind_eq_ok_iff.mp h
  have hnested := Draft.nested_of_openArrayTable (placed_eq_ok_iff.mp hopen)
  split at h
  · cases h
    exact hnested
  · cases h

theorem nested_of_readStatement_bracket (h : readStatement d ('[' :: s) = .ok (d', rest)) :
    Nested d'.root := by
  unfold readStatement at h
  split at h
  · exact nested_of_readArrayTableHeader h
  · exact nested_of_readTableHeader h
  · next heq => cases heq
  · next hother _ heq => exact (hother (List.cons.inj heq).1.symm).elim
  · next heq => cases heq

/-- A statement leaves a table with a table in it as one. -/
theorem nested_readStatement (hd : Nested d.root) (h : readStatement d s = .ok (d', rest)) :
    Nested d'.root := by
  unfold readStatement at h
  split at h
  · exact nested_of_readArrayTableHeader h
  · exact nested_of_readTableHeader h
  · cases h
    exact hd
  · split at h
    · obtain ⟨⟨key, v, r⟩, -, h⟩ := bind_eq_ok_iff.mp h
      obtain ⟨e, hadd, h⟩ := bind_eq_ok_iff.mp h
      cases h
      exact Draft.nested_addPair hd (placed_eq_ok_iff.mp hadd)
    · cases h
  · cases h
    exact hd

theorem readLines_succ_eq_ok {n : Nat} (h : readLines (n + 1) d s = .ok d') :
    (skip s = [] ∧ d' = d) ∨
      (∃ r, skip s = '\n' :: r ∧ readLines n d r = .ok d') ∨
      ∃ e r, skip s ≠ [] ∧ readStatement d (skip s) = .ok (e, r) ∧
        (d' = e ∨ ∃ r', readLines n e r' = .ok d') := by
  rw [readLines] at h
  split at h
  · next hs =>
      cases h
      exact .inl ⟨hs, rfl⟩
  · next r hs => exact .inr (.inl ⟨r, hs, h⟩)
  · next hne hline =>
      obtain ⟨⟨e, r⟩, hstatement, h⟩ := bind_eq_ok_iff.mp h
      obtain ⟨r', -, h⟩ := bind_eq_ok_iff.mp h
      refine .inr (.inr ⟨e, r, hne, hstatement, ?_⟩)
      split at h
      · cases h
        exact .inl rfl
      · next r'' => exact .inr ⟨r'', h⟩
      · cases h

theorem nested_readLines {n : Nat} (hd : Nested d.root) (h : readLines n d s = .ok d') :
    Nested d'.root := by
  induction n generalizing d s with
  | zero =>
      cases h
      exact hd
  | succ n ih =>
      rcases readLines_succ_eq_ok h with ⟨-, rfl⟩ | ⟨r, -, hr⟩ | ⟨e, r, -, he, hrest⟩
      · exact hd
      · exact ih hd hr
      · have hnested := nested_readStatement hd he
        rcases hrest with rfl | ⟨r', hr'⟩
        · exact hnested
        · exact ih hnested hr'

theorem isBlank_of_isSpace {c : Char} (h : isSpace c = true) : Text.isBlank c = true := by
  simp only [isSpace, Bool.or_eq_true, decide_eq_true_eq] at h
  rcases h with rfl | rfl <;> decide

theorem trimStart_skip (s : List Char) : Text.trimStart (skip s) = Text.trimStart s :=
  Text.trimStart_dropWhile (fun _ => isBlank_of_isSpace) s

theorem begins_of_readStatement {c : Char} (h : readStatement d (c :: s) = .ok (d', rest)) :
    c = '[' ∨ c = '#' ∨ isBareKeyChar c = true ∨ c = '"' ∨ c = '\'' := by
  unfold readStatement at h
  split at h
  · next heq => exact .inl (List.cons.inj heq).1
  · next heq => exact .inl (List.cons.inj heq).1
  · next heq => exact .inr (.inl (List.cons.inj heq).1)
  · next c' r _ _ _ heq =>
      obtain ⟨rfl, rfl⟩ := List.cons.inj heq
      split at h
      · next hbegin => exact .inr (.inr (by simpa [or_assoc] using hbegin))
      · cases h
  · next heq => cases heq

theorem not_isBlank_of_isBareKeyChar {c : Char} (h : isBareKeyChar c = true) :
    Text.isBlank c = false := by
  have hcode : (0x30 ≤ c.toNat ∧ c.toNat ≤ 0x7a) ∨ c.toNat = 0x2d := by
    unfold isBareKeyChar Char.isAlphanum Char.isAlpha Char.isUpper Char.isLower Char.isDigit at h
    simp only [Bool.or_eq_true, Bool.and_eq_true, decide_eq_true_eq, ge_iff_le,
      UInt32.le_iff_toNat_le] at h
    change ((((0x41 ≤ c.toNat ∧ c.toNat ≤ 0x5a) ∨ (0x61 ≤ c.toNat ∧ c.toNat ≤ 0x7a)) ∨
      (0x30 ≤ c.toNat ∧ c.toNat ≤ 0x39)) ∨ c = '-') ∨ c = '_' at h
    rcases h with ((h | h) | rfl) | rfl
    · omega
    · omega
    · decide
    · decide
  rw [Bool.eq_false_iff, Text.isBlank, ne_eq, Text.Ranges.contains_iff]
  simp only [Text.blankRanges, List.mem_cons, List.not_mem_nil, or_false]
  rintro ⟨r, hr, hlow, hhigh⟩
  rcases hr with rfl | rfl | rfl | rfl | rfl | rfl | rfl | rfl | rfl | rfl <;>
    dsimp only at hlow hhigh <;> omega

theorem not_isBlank_of_readStatement {c : Char} (h : readStatement d (c :: s) = .ok (d', rest)) :
    Text.isBlank c = false := by
  rcases begins_of_readStatement h with rfl | rfl | hbare | rfl | rfl
  · decide
  · decide
  · exact not_isBlank_of_isBareKeyChar hbare
  · decide
  · decide

/-- A document that begins with a bracket has a table in it.  Induction on the
number of lines, of which some may be empty before the first statement. -/
theorem nested_of_readLines {n : Nat} (hn : s.length < n)
    (hs : (Text.trimStart s).head? = some '[' ∨ (Text.trimStart s).head? = some '\x7b')
    (h : readLines n d s = .ok d') : Nested d'.root := by
  induction n generalizing s with
  | zero => cases hn
  | succ n ih =>
      rw [← trimStart_skip] at hs
      have hlength : (skip s).length ≤ s.length := (List.dropWhile_suffix _).length_le
      rcases readLines_succ_eq_ok h with ⟨hnil, -⟩ | ⟨r, hline, hr⟩ | ⟨e, r, hne, he, hrest⟩
      · simp [hnil, Text.trimStart] at hs
      · rw [hline, Text.trimStart_cons_of_blank Text.isBlank_newline] at hs
        rw [hline, List.length_cons] at hlength
        exact ih (by omega) hs hr
      · obtain ⟨c, r', hc⟩ := List.exists_cons_of_ne_nil hne
        rw [hc] at hs he
        rw [Text.trimStart_cons_of_not_blank (not_isBlank_of_readStatement he)] at hs
        have hnested : Nested e.root := by
          rcases hs with hs | hs <;> obtain rfl := Option.some.inj hs
          · exact nested_of_readStatement_bracket he
          · exact absurd (begins_of_readStatement he) (by decide)
        rcases hrest with rfl | ⟨r'', hr''⟩
        · exact hnested
        · exact nested_readLines hnested hr''

/-- A document whose first character is a bracket, blanks apart, has a table or an
array in one of its fields. -/
theorem nested_of_decode
    (hs : (Text.trimStart s).head? = some '[' ∨ (Text.trimStart s).head? = some '\x7b')
    (h : decode s = .ok fields) : Nested fields := by
  rw [← Text.head?_trimStart_unifyPairs] at hs
  unfold decode at h
  dsimp only at h
  split at h
  · next d hd =>
      cases h
      exact nested_of_readLines (Nat.lt_succ_self _) hs hd
  · cases h
  · cases h

end SdkGlue.Toml
