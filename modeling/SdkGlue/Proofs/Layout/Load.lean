import SdkGlue.Proofs.Layout.Format
import SdkGlue.Proofs.Script
import SdkGlue.Proofs.Text.Lines
import SdkGlue.Proofs.Text.Utf8

/-!
# Loading a layout from a text or a path

A source that is a text or a path is looked up first, and what is found there
decides which text is fetched and read.  The text is read in the format that it looks like
when no file is there, and when the suffix of the file tells no format.
-/

namespace SdkGlue

namespace Layout

variable {s : Store} {source : Source} {path : Path} {text : String} {t : List Char}
  {bytes : List UInt8} {l : Layout}

/-- The path that is looked up for a source, and the text that is read when no
file is there. -/
def Source.names? : Source → Option (Path × String)
  | .text text => some (.ofString text, text)
  | .path path => some (path, path.text)
  | _ => none

theorem fetch_of_names (h : source.names? = some (path, text)) :
    fetch source = fetchPathOr path text := by
  cases source <;> cases h <;> rfl

/-- A layout is read from what was fetched. -/
theorem result_load (source : Source) (s : Store) :
    ((load source).run s).result = ((fetch source).run s).result >>= Contents.read := by
  rw [load, Script.result_bind]
  cases ((fetch source).run s).result <;> rfl

theorem result_load_nothing (s : Store) : ((load .nothing).run s).result = .ok standard := rfl

theorem result_fetchPathOr_of_no_file {kind : Option Entry.Kind}
    (hprobe : ((Script.probe path.text).run s).result = .ok kind) (hkind : kind ≠ some .file) :
    ((fetchPathOr path text).run s).result =
      .ok (.document (formatOf text.toList) text.toList) := by
  rw [fetchPathOr, Script.result_bind, hprobe, Script.readOnly_probe]
  cases kind with
  | none => rfl
  | some kind =>
      cases kind with
      | file => exact absurd rfl hkind
      | link => rfl
      | directory => rfl

theorem result_fetchPathOr_of_file
    (hprobe : ((Script.probe path.text).run s).result = .ok (some .file))
    (hread : s.read path.text = .ok bytes) :
    ((fetchPathOr path text).run s).result =
      textOfBytes bytes >>= fun t => .ok (.document (fileFormat path t) t) := by
  rw [fetchPathOr, Script.result_bind, hprobe, Script.readOnly_probe]
  change ((fetchFile path).run s).result = _
  rw [fetchFile, Script.result_bind, Script.run_read, Script.hasNul_of_probe hprobe, hread]
  simp only [Bool.false_eq_true, if_false]
  change ((Script.ofExcept (textOfBytes bytes) >>= fun t =>
    Script.report (.layoutFile path (fileFormat path t)) >>= fun _ =>
      pure (.document (fileFormat path t) t) : Script Contents).run s).result = _
  rw [Script.result_bind, Script.run_ofExcept]
  cases textOfBytes bytes <;> rfl

theorem readOnly_fetch (source : Source) : (fetch source).ReadOnly := by
  have hlater : ∀ (n : Note) (contents : Contents),
      (Script.report n >>= fun _ => pure contents).ReadOnly := by
    intro n contents
    exact (Script.readOnly_report n).bind fun _ => Script.readOnly_pure _
  have hread : ∀ path : Path, (Script.call path.text (.read path.text)).ReadOnly := by
    intro path s
    rw [Script.run_read]
    split <;> rfl
  have hfile : ∀ path, (fetchFile path).ReadOnly := by
    intro path
    apply (hread path).bind
    intro bytes
    exact Script.ReadOnly.bind (fun _ => rfl) fun t => hlater _ _
  have hpath : ∀ path text, (fetchPathOr path text).ReadOnly := by
    intro path text
    apply (Script.readOnly_probe _).bind
    intro kind
    split
    · exact hfile path
    · exact hlater _ _
  cases source with
  | nothing => exact hlater _ _
  | table fields => exact hlater _ _
  | text s => exact hpath _ _
  | path p => exact hpath _ _
  | other v => exact fun _ => rfl

/-! ## Texts whose format is detected -/

/-- The suffix of the path tells no format. -/
def IsUnmarked (path : Path) : Prop :=
  String.ofList (path.suffix.toList.map Char.toLower) ∉ [".toml", ".tml", ".json"]

theorem fileFormat_of_isUnmarked (h : IsUnmarked path) (t : List Char) :
    fileFormat path t = formatOf t := by
  simp only [IsUnmarked, List.mem_cons, List.not_mem_nil, or_false, not_or] at h
  simp [fileFormat, h]

/-- A source leads to a file whose suffix tells no format, and the file holds the
bytes. -/
structure LeadsTo (s : Store) (source : Source) (path : Path) (bytes : List UInt8) : Prop where
  named : ∃ text, source.names? = some (path, text)
  found : ((Script.probe path.text).run s).result = .ok (some .file)
  holds : s.read path.text = .ok bytes
  unmarked : IsUnmarked path

/-- Loading a source comes to reading a text whose format is detected: an inline
text, or the text of a file whose suffix tells no format. -/
inductive Detects (s : Store) (source : Source) : List Char → Prop
  | inline {path : Path} {text : String} {kind : Option Entry.Kind}
      (hnames : source.names? = some (path, text))
      (hprobe : ((Script.probe path.text).run s).result = .ok kind)
      (hkind : kind ≠ some .file) : Detects s source text.toList
  | file {path : Path} {bytes : List UInt8} {t : List Char} (hfile : LeadsTo s source path bytes)
      (htext : textOfBytes bytes = .ok t) : Detects s source t

theorem result_load_of_detects (h : Detects s source t) :
    ((load source).run s).result = fromDocument (formatOf t) t := by
  cases h with
  | inline hnames hprobe hkind =>
      rw [result_load, fetch_of_names hnames, result_fetchPathOr_of_no_file hprobe hkind, ok_bind,
        Contents.read]
  | file hfile htext =>
      obtain ⟨text, hnames⟩ := hfile.named
      rw [result_load, fetch_of_names hnames, result_fetchPathOr_of_file hfile.found hfile.holds,
        htext, ok_bind, ok_bind, fileFormat_of_isUnmarked hfile.unmarked, Contents.read]

/-- Detecting the format loses no layout and finds none that is not there. -/
theorem load_detected_iff (h : Detects s source t) :
    (∀ l, ((load source).run s).result = .ok l ↔ IsJson t l ∨ IsToml t l) ∧
      ¬ ((∃ l, IsJson t l) ∧ ∃ l, IsToml t l) := by
  constructor
  · intro l
    rw [result_load_of_detects h]
    exact fromDocument_formatOf_iff
  · rintro ⟨⟨l, hjson⟩, l', htoml⟩
    exact not_isToml_of_isJson hjson htoml

theorem textOfBytes_encode (h : '\r' ∉ t) : textOfBytes (Text.Utf8.encode t) = .ok t := by
  unfold textOfBytes
  rw [Text.Utf8.decode_encode]
  exact congrArg Except.ok (Text.unifyNewlines_of_not_mem h)

/-- A store with one file that holds a text; its name tells no format. -/
def oneFile (text : String) : Store :=
  (Store.empty []).set ["layout.conf"] (.file (Text.Utf8.encode text.toList))

theorem leadsTo_oneFile (text : String) :
    LeadsTo (oneFile text) (.text "layout.conf") (.ofString "layout.conf")
      (Text.Utf8.encode text.toList) where
  named := ⟨"layout.conf", rfl⟩
  found := by rfl
  holds := by rfl
  unmarked := by unfold IsUnmarked; decide

/-- An object that begins behind a line end. -/
def objectText : String := "\n \x7b\"output_path\": \"glue\"\x7d"

theorem load_detected_objectText :
    Detects (oneFile objectText) (.text "layout.conf") objectText.toList ∧
      ((load (.text "layout.conf")).run (oneFile objectText)).result =
        .ok ⟨standard.sourceDir, "glue", standard.suffix⟩ := by
  have hdetects : Detects (oneFile objectText) (.text "layout.conf") objectText.toList :=
    .file (leadsTo_oneFile objectText) (textOfBytes_encode (by decide))
  have hjson : IsJson objectText.toList ⟨standard.sourceDir, "glue", standard.suffix⟩ :=
    fromDocument_json_iff.mp (toOption_eq_some_iff.mp (by decide +kernel))
  exact ⟨hdetects, ((load_detected_iff hdetects).1 _).mpr (.inl hjson)⟩

end Layout

end SdkGlue
