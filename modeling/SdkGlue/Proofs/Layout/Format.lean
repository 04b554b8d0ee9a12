import SdkGlue.Layout.Load
import SdkGlue.Proofs.Json.Object
import SdkGlue.Proofs.Toml.Nested

/-!
# The format of a layout text

A text is looked at only at its first character that is no blank.  That is
enough: a JSON object begins with a brace, and a TOML text that begins with a
bracket has a table in one of its fields, which no layout has.
-/

namespace SdkGlue.Layout

variable {t : List Char} {fields : Value.Fields} {l l' : Layout}

/-- The text is a JSON object that describes the layout. -/
def IsJson (t : List Char) (l : Layout) : Prop :=
  ∃ fields, Json.decode t = .ok (.table fields) ∧ ofFields fields = .ok l

/-- The text is a TOML document that describes the layout. -/
def IsToml (t : List Char) (l : Layout) : Prop :=
  ∃ fields, Toml.decode t = .ok fields ∧ ofFields fields = .ok l

/-! ## The fields of a layout -/

theorem ofFields_eq_ok_iff :
    ofFields fields = .ok l ↔
      readField "generated_dir" standard.sourceDir checkPath fields = .ok l.sourceDir ∧
      readField "output_path" standard.gluePath checkPath fields = .ok l.gluePath ∧
      readField "source_suffix" standard.suffix checkSuffix fields = .ok l.suffix ∧
      unknownEntries fields = [] := by
  unfold ofFields
  dsimp only
  constructor
  · intro h
    split at h
    · next h₁ h₂ h₃ h₄ =>
        cases h
        exact ⟨h₁, h₂, h₃, h₄⟩
    · cases h
  · rintro ⟨h₁, h₂, h₃, h₄⟩
    rw [h₁, h₂, h₃, h₄]

theorem string?_of_readField {key default : String} {check : String → Option Problem} {s : String}
    {v : Value} (h : readField key default check fields = .ok s)
    (hv : Keyed.get? fields key = some v) : v.string? ≠ none := by
  intro hnone
  simp [readField, hv, hnone] at h

/-- Every field of a layout holds a text. -/
theorem string?_of_ofFields {key : String} {v : Value} (h : ofFields fields = .ok l)
    (hv : Keyed.get? fields key = some v) : v.string? ≠ none := by
  obtain ⟨hsource, hglue, hsuffix, hunknown⟩ := ofFields_eq_ok_iff.mp h
  have hknown : key ∈ knownKeys := by
    obtain ⟨e, he, rfl⟩ := Option.map_eq_some_iff.mp hv
    have hkey : e.1 = key := by simpa using List.find?_some he
    rw [unknownEntries, List.map_eq_nil_iff, List.filter_eq_nil_iff] at hunknown
    simpa [hkey] using hunknown e (List.mem_of_find?_eq_some he)
  simp only [knownKeys, List.mem_cons, List.not_mem_nil, or_false] at hknown
  rcases hknown with rfl | rfl | rfl
  · exact string?_of_readField hsource hv
  · exact string?_of_readField hglue hv
  · exact string?_of_readField hsuffix hv

theorem not_nested_of_ofFields (h : ofFields fields = .ok l) : ¬ Toml.Nested fields := by
  rintro ⟨key, v, hv, hclosed⟩
  apply string?_of_ofFields h hv
  cases v <;> simp_all [Toml.isClosed, Value.string?]

/-! ## Detecting the format -/

theorem formatOf_eq_json_iff :
    formatOf t = .json ↔
      (Text.trimStart t).head? = some '[' ∨ (Text.trimStart t).head? = some '\x7b' := by
  unfold formatOf
  split <;> simp_all

theorem formatOf_of_isJson (h : IsJson t l) : formatOf t = .json := by
  obtain ⟨fields, hdecode, -⟩ := h
  exact formatOf_eq_json_iff.mpr (.inr (Json.head?_of_decode_table hdecode))

theorem formatOf_of_isToml (h : IsToml t l) : formatOf t = .toml := by
  obtain ⟨fields, hdecode, hfields⟩ := h
  cases hformat : formatOf t with
  | toml => rfl
  | json =>
      have hhead := formatOf_eq_json_iff.mp hformat
      exact absurd (Toml.nested_of_decode hhead hdecode) (not_nested_of_ofFields hfields)

theorem fromTable_eq_ok_iff : fromTable fields = .ok l ↔ ofFields fields = .ok l :=
  mapError_eq_ok_iff

theorem parseJson_eq_ok_iff : parseJson t = .ok fields ↔ Json.decode t = .ok (.table fields) := by
  unfold parseJson
  split <;> simp_all

theorem parseToml_eq_ok_iff : parseToml t = .ok fields ↔ Toml.decode t = .ok fields := by
  unfold parseToml
  split <;> simp_all

theorem fromDocument_json_iff : fromDocument .json t = .ok l ↔ IsJson t l := by
  simp only [fromDocument, parse, bind_eq_ok_iff, parseJson_eq_ok_iff, fromTable_eq_ok_iff, IsJson]

theorem fromDocument_toml_iff : fromDocument .toml t = .ok l ↔ IsToml t l := by
  simp only [fromDocument, parse, bind_eq_ok_iff, parseToml_eq_ok_iff, fromTable_eq_ok_iff, IsToml]

/-- A text read in the format that is detected describes a layout exactly when it
describes one in some format. -/
theorem fromDocument_formatOf_iff :
    fromDocument (formatOf t) t = .ok l ↔ IsJson t l ∨ IsToml t l := by
  constructor
  · intro h
    cases hformat : formatOf t with
    | json => exact .inl (fromDocument_json_iff.mp (hformat ▸ h))
    | toml => exact .inr (fromDocument_toml_iff.mp (hformat ▸ h))
  · rintro (h | h)
    · rw [formatOf_of_isJson h]
      exact fromDocument_json_iff.mpr h
    · rw [formatOf_of_isToml h]
      exact fromDocument_toml_iff.mpr h

/-- No text describes a layout in both formats. -/
theorem not_isToml_of_isJson (h : IsJson t l) : ¬ IsToml t l' := by
  intro h'
  cases (formatOf_of_isJson h).symm.trans (formatOf_of_isToml h')

end SdkGlue.Layout
