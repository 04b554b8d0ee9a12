import SdkGlue.Proofs.Layout.Load
import SdkGlue.Proofs.Store.Resolve

/-!
# Inline texts and files

A text that is given in place of a path is looked up as a path first.  When that
comes to an answer, the text is loaded as a file that holds it would be; a text
that is too long for a path comes to none.
-/

namespace SdkGlue.Layout

variable {s : Store} {source : Source} {path : Path} {text : String}

theorem fromDocument_ne_system (format : Format) (t : List Char) (cause : Cause) (path : String) :
    fromDocument format t ≠ .error (.system cause path) := by
  have hparse : parse format t ≠ .error (.system cause path) := by
    cases format with
    | json =>
        change parseJson t ≠ _
        unfold parseJson
        split <;> exact nofun
    | toml =>
        change parseToml t ≠ _
        unfold parseToml
        split <;> exact nofun
  unfold fromDocument
  cases hfields : parse format t with
  | error e =>
      intro h
      cases h
      exact hparse hfields
  | ok fields =>
      rw [ok_bind, fromTable]
      cases ofFields fields <;> exact nofun

theorem load_text_of_long (hlong : ((Script.probe (Path.ofString text).text).run s).result =
      .error (.system .nameTooLong (Path.ofString text).text)) :
    ((load (.text text)).run s).result =
      .error (.system .nameTooLong (Path.ofString text).text) := by
  rw [result_load, fetch_of_names rfl, fetchPathOr, Script.result_bind, hlong, error_bind,
    error_bind]

/-- An inline text is loaded like a file that holds it, unless it is too long to be
looked up as a path. -/
theorem load_text_eq_load_file_iff (hreturn : '\r' ∉ text.toList)
    (hnone : ((Script.probe (Path.ofString text).text).run s).result ≠ .ok (some .file))
    (hfile : LeadsTo s source path (Text.Utf8.encode text.toList)) :
    ((load (.text text)).run s).result = ((load source).run s).result ↔
      ((Script.probe (Path.ofString text).text).run s).result ≠
        .error (.system .nameTooLong (Path.ofString text).text) := by
  have hdetects := Detects.file hfile (textOfBytes_encode hreturn)
  rw [result_load_of_detects hdetects]
  rcases Script.result_probe_cases (Path.ofString text).text s with ⟨kind, hprobe⟩ | hlong
  · have hinline : Detects s (.text text) text.toList :=
      .inline rfl hprobe fun hkind => hnone (hkind ▸ hprobe)
    rw [result_load_of_detects hinline, hprobe]
    exact ⟨fun _ => nofun, fun _ => rfl⟩
  · rw [load_text_of_long hlong, hlong]
    constructor
    · intro h
      exact absurd h.symm (fromDocument_ne_system _ _ _ _)
    · intro h
      exact absurd rfl h

/-- A short text is loaded like a file that holds it. -/
theorem load_text_eq_load_file_objectText :
    ((load (.text objectText)).run (oneFile objectText)).result =
      ((load (.text "layout.conf")).run (oneFile objectText)).result := by
  have hprobe : ((Script.probe (Path.ofString objectText).text).run
      (oneFile objectText)).result = .ok none := by rfl
  refine (load_text_eq_load_file_iff (by decide) ?_ (leadsTo_oneFile objectText)).mpr ?_
  · rw [hprobe]
    exact nofun
  · rw [hprobe]
    exact nofun

theorem probe_of_long (s : Store) (hslash : '/' ∉ text.toList) (hnul : '\x00' ∉ text.toList)
    (hlong : Store.maxName < text.utf8ByteSize) :
    ((Script.probe (Path.ofString text).text).run s).result =
      .error (.system .nameTooLong (Path.ofString text).text) := by
  have hstep : Store.isStep text = true := by
    have hempty : text ≠ "" := by
      rintro rfl
      exact absurd hlong (by decide)
    have hdot : text ≠ "." := by
      rintro rfl
      exact absurd hlong (by decide)
    simp [Store.isStep, hempty, hdot]
  have hkind : s.kindAt text = .error .nameTooLong := by
    rw [Store.kindAt, Store.resolve_of_long hslash hlong]
    rfl
  rw [Path.text_ofString_of_not_mem hslash hstep, Script.probe,
    if_neg (by simpa [Script.hasNul] using hnul), Script.run_ask]
  simp only [Request.run, hkind]
  rfl

/-- A comment, longer than the name of an entry may be. -/
def longText : String := String.ofList ('#' :: List.replicate 255 'a')

/-- The text of a file that describes a layout is not loaded on its own. -/
theorem load_longText_ne :
    '\r' ∉ longText.toList ∧
      ((Script.probe (Path.ofString longText).text).run (oneFile longText)).result ≠
        .ok (some .file) ∧
      LeadsTo (oneFile longText) (.text "layout.conf") (.ofString "layout.conf")
        (Text.Utf8.encode longText.toList) ∧
      ((load (.text "layout.conf")).run (oneFile longText)).result = .ok standard ∧
      ((load (.text longText)).run (oneFile longText)).result =
        .error (.system .nameTooLong (Path.ofString longText).text) := by
  have hchars : longText.toList = '#' :: List.replicate 255 'a' := String.toList_ofList
  have hmem : ∀ c ∈ longText.toList, c = '#' ∨ c = 'a' := by
    intro c hc
    rw [hchars, List.mem_cons] at hc
    exact hc.imp_right List.eq_of_mem_replicate
  have hreturn : '\r' ∉ longText.toList := fun hc => absurd (hmem _ hc) (by decide)
  have hprobe := probe_of_long (oneFile longText)
    (fun hc => absurd (hmem _ hc) (by decide)) (fun hc => absurd (hmem _ hc) (by decide))
    (by decide +kernel : Store.maxName < longText.utf8ByteSize)
  have hfile := leadsTo_oneFile longText
  have htoml : IsToml longText.toList standard := by
    rw [hchars]
    exact fromDocument_toml_iff.mp (toOption_eq_some_iff.mp (by decide +kernel))
  refine ⟨hreturn, by rw [hprobe]; exact nofun, hfile, ?_, load_text_of_long hprobe⟩
  rw [result_load_of_detects (.file hfile (textOfBytes_encode hreturn))]
  exact fromDocument_formatOf_iff.mpr (.inr htoml)

end SdkGlue.Layout
