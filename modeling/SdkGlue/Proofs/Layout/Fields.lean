import Mathlib.Data.List.Perm.Basic
import SdkGlue.Proofs.Keyed
import SdkGlue.Proofs.Layout.Format

/-!
# The entries of a layout table

A table describes a layout exactly when every one of its entries fits on its own.
Otherwise each entry that does not fit is reported once: those of known fields in
the order of the fields, then the others in the order of the table.
-/

namespace SdkGlue.Layout

/-- A text with a character that is no blank. -/
def IsPathText (v : Value) : Prop :=
  ∃ s, v.string? = some s ∧ ∃ c ∈ s.toList, Text.isBlank c = false

/-- A text that begins with a dot and goes on. -/
def IsSuffixText (v : Value) : Prop :=
  ∃ s, v.string? = some s ∧ s.toList.head? = some '.' ∧ 2 ≤ s.length

/-- An entry that a layout can have. -/
inductive Fits : String × Value → Prop
  | sourceDir {v : Value} (h : IsPathText v) : Fits ("generated_dir", v)
  | gluePath {v : Value} (h : IsPathText v) : Fits ("output_path", v)
  | suffix {v : Value} (h : IsSuffixText v) : Fits ("source_suffix", v)

/-- What is wrong with the text of a field. -/
def textProblem? (key s : String) : Option Problem :=
  if key = "source_suffix" then checkSuffix s else checkPath s

/-- What is wrong with an entry on its own. -/
def problem? (e : String × Value) : Option Problem :=
  if e.1 ∈ knownKeys then
    match e.2.string? with
    | none => some .notText
    | some s => textProblem? e.1 s
  else some .unknownKey

/-- The report on an entry, if something is wrong with it. -/
def fault? (e : String × Value) : Option FieldFault :=
  (problem? e).map fun problem => ⟨e.1, problem, e.2⟩

/-- The entries of a table that are no known fields. -/
def others (fields : Value.Fields) : Value.Fields := fields.filter fun e => e.1 ∉ knownKeys

/-- The entries in the order in which they are reported on. -/
def inOrder (fields : Value.Fields) : Value.Fields :=
  knownKeys.filterMap (fun key => (Keyed.get? fields key).map (key, ·)) ++ others fields

/-- The text of a field, or the default. -/
def textOr (key default : String) (fields : Value.Fields) : String :=
  ((Keyed.get? fields key).bind Value.string?).getD default

variable {fields fields' : Value.Fields} {key : String} {e : String × Value} {l : Layout}

/-! ## Entries that fit -/

theorem checkPath_eq_none_iff {s : String} :
    checkPath s = none ↔ ∃ c ∈ s.toList, Text.isBlank c = false := by
  simp [checkPath, Text.allBlank]

theorem checkSuffix_eq_none_iff {s : String} :
    checkSuffix s = none ↔ s.toList.head? = some '.' ∧ 2 ≤ s.length := by
  unfold checkSuffix
  rw [← String.length_toList]
  split
  · next hs => simp [hs]
  · next hs =>
      match s.toList, hs with
      | [], _ => simp
      | [c], _ => simp
      | c :: d :: rest, hs =>
          have hdot : c ≠ '.' := fun h => hs d rest (h ▸ rfl)
          simp [hdot]

theorem fault?_eq_none_iff : fault? e = none ↔ Fits e := by
  obtain ⟨key, v⟩ := e
  simp only [fault?, Option.map_eq_none_iff, problem?]
  constructor
  · intro h
    split at h
    · next hknown =>
        simp only [knownKeys, List.mem_cons, List.not_mem_nil, or_false] at hknown
        cases hs : v.string? with
        | none =>
            rw [hs] at h
            cases h
        | some s =>
            rw [hs] at h
            rcases hknown with rfl | rfl | rfl
            · exact .sourceDir ⟨s, hs, checkPath_eq_none_iff.mp h⟩
            · exact .gluePath ⟨s, hs, checkPath_eq_none_iff.mp h⟩
            · exact .suffix ⟨s, hs, checkSuffix_eq_none_iff.mp h⟩
    · cases h
  · rintro (⟨s, hs, hfits⟩ | ⟨s, hs, hfits⟩ | ⟨s, hs, hfits⟩)
    · simpa [knownKeys, hs, textProblem?] using checkPath_eq_none_iff.mpr hfits
    · simpa [knownKeys, hs, textProblem?] using checkPath_eq_none_iff.mpr hfits
    · simpa [knownKeys, hs, textProblem?] using checkSuffix_eq_none_iff.mpr hfits

theorem Fits.known (h : Fits e) : e.1 ∈ knownKeys := by
  cases h <;> simp [knownKeys]

/-! ## Reading one field -/

/-- The report on a field, if the table has it and something is wrong with it. -/
def fieldFault? (fields : Value.Fields) (key : String) : Option FieldFault :=
  (Keyed.get? fields key).bind fun v => fault? (key, v)

/-- A field is read as its entry is judged. -/
theorem readField_eq (key : String) (check : String → Option Problem) (hknown : key ∈ knownKeys)
    (hcheck : ∀ s, textProblem? key s = check s) (default : String) (fields : Value.Fields) :
    readField key default check fields =
      match fieldFault? fields key with
      | none => .ok (textOr key default fields)
      | some f => .error f := by
  unfold readField fieldFault? textOr
  cases Keyed.get? fields key with
  | none => rfl
  | some v =>
      simp only [Option.bind_some, fault?, problem?, if_pos hknown]
      cases v.string? with
      | none => rfl
      | some s =>
          simp only [hcheck]
          cases check s <;> rfl

theorem unknownEntries_eq (fields : Value.Fields) :
    unknownEntries fields = (others fields).filterMap fault? := by
  rw [unknownEntries, others, ← List.filterMap_eq_map]
  apply List.filterMap_congr
  intro e he
  have hunknown : e.1 ∉ knownKeys := by simpa using (List.mem_filter.mp he).2
  simp [fault?, problem?, hunknown]

/-! ## Reading a table -/

theorem filterMap_inOrder (fields : Value.Fields) :
    (inOrder fields).filterMap fault? =
      knownKeys.filterMap (fieldFault? fields) ++ unknownEntries fields := by
  rw [inOrder, List.filterMap_append, List.filterMap_filterMap, unknownEntries_eq]
  congr 2
  funext key
  rw [Option.bind_map]
  rfl

/-- The layout whose fields are those of a table, or the defaults. -/
def described (fields : Value.Fields) : Layout where
  sourceDir := textOr "generated_dir" standard.sourceDir fields
  gluePath := textOr "output_path" standard.gluePath fields
  suffix := textOr "source_suffix" standard.suffix fields

/-- A table is read as its entries are judged, one by one. -/
theorem ofFields_eq (fields : Value.Fields) :
    ofFields fields =
      if (inOrder fields).filterMap fault? = [] then .ok (described fields)
      else .error ((inOrder fields).filterMap fault?) := by
  rw [filterMap_inOrder, ofFields, readField_eq "generated_dir" checkPath (by decide) fun _ => rfl,
    readField_eq "output_path" checkPath (by decide) fun _ => rfl,
    readField_eq "source_suffix" checkSuffix (by decide) fun _ => rfl]
  simp only [knownKeys]
  cases h₁ : fieldFault? fields "generated_dir" <;>
    cases h₂ : fieldFault? fields "output_path" <;>
    cases h₃ : fieldFault? fields "source_suffix" <;>
    cases h₄ : unknownEntries fields <;>
    simp [h₁, h₂, h₃, faultOf, described]

theorem ofFields_eq_error_iff {faults : List FieldFault} :
    ofFields fields = .error faults ↔
      faults ≠ [] ∧ faults = (inOrder fields).filterMap fault? := by
  rw [ofFields_eq]
  split
  · next hnone =>
      rw [hnone]
      exact ⟨nofun, fun ⟨hne, h⟩ => absurd h hne⟩
  · next hsome =>
      rw [Except.error.injEq]
      constructor
      · rintro rfl
        exact ⟨hsome, rfl⟩
      · rintro ⟨-, rfl⟩
        rfl

theorem ofFields_eq_ok_iff_described :
    ofFields fields = .ok l ↔ (∀ e ∈ inOrder fields, Fits e) ∧ l = described fields := by
  simp only [← fault?_eq_none_iff, ← List.filterMap_eq_nil_iff]
  rw [ofFields_eq]
  split
  · next hnone => simp [hnone, eq_comm]
  · next hsome => simp [hsome]

/-- Where no key stands twice, every entry is judged once. -/
theorem perm_inOrder (h : Keyed.keys fields |>.Nodup) : (inOrder fields).Perm fields := by
  have hmem : ∀ e, e ∈ knownKeys.filterMap (fun key => (Keyed.get? fields key).map (key, ·)) ↔
      e ∈ fields.filter fun e => e.1 ∈ knownKeys := by
    rintro ⟨key, v⟩
    simp only [List.mem_filterMap, Option.map_eq_some_iff, List.mem_filter, decide_eq_true_eq,
      ← Keyed.get?_eq_some_iff_of_nodup h]
    constructor
    · rintro ⟨k, hk, v', hv, ⟨⟩⟩
      exact ⟨hv, hk⟩
    · rintro ⟨hv, hk⟩
      exact ⟨key, hk, v, hv, rfl⟩
  have hknown : (knownKeys.filterMap fun key => (Keyed.get? fields key).map (key, ·)).Nodup := by
    apply List.Nodup.filterMap _ (by decide)
    intro key key' e he he'
    obtain ⟨v, -, rfl⟩ := Option.map_eq_some_iff.mp he
    obtain ⟨v', -, heq⟩ := Option.map_eq_some_iff.mp he'
    exact (congrArg Prod.fst heq).symm
  have hfields : fields.Nodup := List.Nodup.of_map Prod.fst h
  have hperm := (List.perm_ext_iff_of_nodup hknown (hfields.filter _)).mpr hmem
  have hsplit := List.filter_append_perm (fun e : String × Value => decide (e.1 ∈ knownKeys)) fields
  rw [inOrder, others]
  exact (hperm.append_right _).trans (by simpa using hsplit)

/-- Where its known fields stand in a table makes no difference. -/
theorem ofFields_of_perm (hkeys : (Keyed.keys fields).Nodup) (hperm : List.Perm fields' fields)
    (hothers : others fields' = others fields) : ofFields fields' = ofFields fields := by
  have hget : Keyed.get? fields' = Keyed.get? fields :=
    funext (Keyed.get?_eq_of_perm hkeys hperm)
  have hdescribed : described fields' = described fields := by
    simp only [described, textOr, hget]
  have horder : inOrder fields' = inOrder fields := by
    simp only [inOrder, hget, hothers]
  rw [ofFields_eq, ofFields_eq, hdescribed, horder]

/-- An entry that fits adds no fault and hides none, wherever it stands. -/
theorem filterMap_inOrder_insert {front rest : Value.Fields} (hfits : Fits e)
    (hkeys : (Keyed.keys (front ++ e :: rest)).Nodup) :
    (inOrder (front ++ e :: rest)).filterMap fault? =
      (inOrder (front ++ rest)).filterMap fault? := by
  have hothers : others (front ++ e :: rest) = others (front ++ rest) := by
    simp [others, hfits.known]
  have hfault : fieldFault? (front ++ e :: rest) = fieldFault? (front ++ rest) := by
    funext key
    unfold fieldFault?
    by_cases hkey : e.1 = key
    · subst hkey
      have hperm : (front ++ e :: rest).Perm (e :: (front ++ rest)) := List.perm_middle
      have hnodup := (hperm.map Prod.fst).nodup_iff.mp hkeys
      have hnone : Keyed.get? (front ++ rest) e.1 = none :=
        Keyed.get?_eq_none_iff.mpr (List.nodup_cons.mp hnodup).1
      have hsome : Keyed.get? (front ++ e :: rest) e.1 = some e.2 :=
        (Keyed.get?_eq_some_iff_of_nodup hkeys).mpr (by simp)
      rw [hnone, hsome]
      exact fault?_eq_none_iff.mpr hfits
    · rw [Keyed.get?_append, Keyed.get?_append, Keyed.get?_cons, if_neg hkey]
  rw [filterMap_inOrder, filterMap_inOrder, unknownEntries_eq, unknownEntries_eq, hothers, hfault]

/-! ## Writing a layout as a table -/

theorem Fits.text (h : Fits e) : ∃ s, e.2.string? = some s ∧ Fits (e.1, .text s) := by
  rcases h with ⟨s, hs, hfits⟩ | ⟨s, hs, hfits⟩ | ⟨s, hs, hfits⟩
  · exact ⟨s, hs, .sourceDir ⟨s, rfl, hfits⟩⟩
  · exact ⟨s, hs, .gluePath ⟨s, rfl, hfits⟩⟩
  · exact ⟨s, hs, .suffix ⟨s, rfl, hfits⟩⟩

theorem fits_standard : ∀ e ∈ standard.toFields, Fits e := by
  intro e he
  rw [← fault?_eq_none_iff]
  simp only [toFields, List.mem_cons, List.not_mem_nil, or_false] at he
  rcases he with rfl | rfl | rfl <;> rfl

/-- A default fits where a field is missing, and the text of a field that fits
does. -/
theorem fits_textOr {default : String} (hall : ∀ e ∈ inOrder fields, Fits e)
    (hdefault : (key, .text default) ∈ standard.toFields) :
    Fits (key, .text (textOr key default fields)) := by
  have hfits := fits_standard _ hdefault
  cases hv : Keyed.get? fields key with
  | none => simpa [textOr, hv] using hfits
  | some v =>
      have hmem : (key, v) ∈ inOrder fields :=
        List.mem_append_left _ (List.mem_filterMap.mpr ⟨key, hfits.known, by rw [hv]; rfl⟩)
      obtain ⟨s, hs, htext⟩ := (hall _ hmem).text
      simpa [textOr, hv, hs] using htext

/-- What was read is read again from its own table. -/
theorem ofFields_toFields (h : ofFields fields = .ok l) : ofFields l.toFields = .ok l := by
  obtain ⟨hall, rfl⟩ := ofFields_eq_ok_iff_described.mp h
  refine ofFields_eq_ok_iff_described.mpr ⟨fun e he => ?_, rfl⟩
  have hmem : e ∈ (described fields).toFields := he
  simp only [toFields, List.mem_cons, List.not_mem_nil, or_false] at hmem
  rcases hmem with rfl | rfl | rfl
  · exact fits_textOr hall (by simp [toFields])
  · exact fits_textOr hall (by simp [toFields])
  · exact fits_textOr hall (by simp [toFields])

/-- A table describes a layout exactly when each of its entries fits; a field that
is there is kept as it is, and a missing one is the default.  Otherwise the faults
are those of the entries one by one, the known fields first.  So it does not matter
where the known fields stand, and an entry that fits makes no difference to the
faults. -/
theorem ofFields_exact (hkeys : (Keyed.keys fields).Nodup) :
    ((∃ l, ofFields fields = .ok l) ↔ ∀ e ∈ fields, Fits e) ∧
      (∀ l, ofFields fields = .ok l →
        l.sourceDir = textOr "generated_dir" standard.sourceDir fields ∧
        l.gluePath = textOr "output_path" standard.gluePath fields ∧
        l.suffix = textOr "source_suffix" standard.suffix fields ∧
        ofFields l.toFields = .ok l) ∧
      (∀ faults, ofFields fields = .error faults ↔
        faults ≠ [] ∧ faults = (inOrder fields).filterMap fault?) ∧
      (∀ e, fault? e = none ↔ Fits e) ∧ (inOrder fields).Perm fields ∧
      (∀ fields', List.Perm fields' fields → others fields' = others fields →
        ofFields fields' = ofFields fields) ∧
      ∀ front e rest, fields = front ++ e :: rest → Fits e →
        ∀ faults, ofFields fields = .error faults ↔ ofFields (front ++ rest) = .error faults := by
  have hperm := perm_inOrder hkeys
  refine ⟨?_, ?_, fun faults => ofFields_eq_error_iff, fun e => fault?_eq_none_iff, hperm,
    fun fields' => ofFields_of_perm hkeys, ?_⟩
  · simp only [ofFields_eq_ok_iff_described, exists_and_left, exists_eq, and_true, hperm.mem_iff]
  · intro l h
    obtain ⟨-, rfl⟩ := ofFields_eq_ok_iff_described.mp h
    exact ⟨rfl, rfl, rfl, ofFields_toFields h⟩
  · rintro front e rest rfl hfits faults
    rw [ofFields_eq_error_iff, ofFields_eq_error_iff, filterMap_inOrder_insert hfits hkeys]

/-- A table with faults of every kind, and a field that fits among them. -/
def mixedFields : Value.Fields :=
  [("extra", .null), ("source_suffix", .text "c"), ("output_path", .text "glue"),
   ("generated_dir", .list [.int 1]), ("more", .bool true)]

/-- The faults of that table, those of known fields first. -/
def mixedFaults : List FieldFault :=
  [⟨"generated_dir", .notText, .list [.int 1]⟩, ⟨"source_suffix", .badSuffix "c", .text "c"⟩,
   ⟨"extra", .unknownKey, .null⟩, ⟨"more", .unknownKey, .bool true⟩]

theorem ofFields_exact_mixedFields :
    (Keyed.keys mixedFields).Nodup ∧ ofFields mixedFields = .error mixedFaults ∧
      ofFields [("extra", .null), ("source_suffix", .text "c"), ("generated_dir", .list [.int 1]),
        ("more", .bool true)] = .error mixedFaults := by
  have hkeys : (Keyed.keys mixedFields).Nodup := by decide
  obtain ⟨-, -, hfaults, hfits, -, -, hinsert⟩ := ofFields_exact hkeys
  have herror : ofFields mixedFields = .error mixedFaults := (hfaults _).mpr ⟨nofun, rfl⟩
  refine ⟨hkeys, herror, (hinsert [("extra", .null), ("source_suffix", .text "c")]
    ("output_path", .text "glue") [("generated_dir", .list [.int 1]), ("more", .bool true)]
    rfl ((hfits _).mp rfl) _).mp herror⟩

end SdkGlue.Layout
