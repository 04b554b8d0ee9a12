import SdkGlue.Json.Writer
import SdkGlue.Proofs.Json.Written
import SdkGlue.Proofs.Layout.Load

/-!
# Layouts that were written

A table that was written to a file as a JSON text is loaded from the file as if it
were given itself.  The text is read back as the table, with its entries in their
order, so the faults are reported in the same order too.
-/

namespace SdkGlue.Layout

variable {s : Store} {source : Source} {path : Path} {ascii : Bool} {fields : Value.Fields}

/-- The suffix of the path tells that a file holds a JSON text. -/
def IsJsonPath (path : Path) : Prop :=
  String.ofList (path.suffix.toList.map Char.toLower) = ".json"

theorem fileFormat_of_isJsonPath (h : IsJsonPath path) (t : List Char) :
    fileFormat path t = .json := by
  unfold IsJsonPath at h
  simp [fileFormat, h]

/-- A source leads to a file with the suffix of JSON texts, and the file holds the
text of a table, its characters beyond ASCII escaped or not. -/
structure LeadsToTable (s : Store) (source : Source) (path : Path) (ascii : Bool)
    (fields : Value.Fields) : Prop where
  named : ∃ text, source.names? = some (path, text)
  found : ((Script.probe path.text).run s).result = .ok (some .file)
  holds : s.read path.text = .ok (Text.Utf8.encode (Json.encode ascii (.table fields)).toList)
  marked : IsJsonPath path

/-- The text of a table has no line end, so the bytes of a file give it back. -/
theorem textOfBytes_written (hplain : Json.IsPlain (.table fields)) :
    textOfBytes (Text.Utf8.encode (Json.encode ascii (.table fields)).toList) =
      .ok (Json.writeValue ascii (.table fields)) := by
  have hreturn : '\r' ∉ Json.writeValue ascii (.table fields) := fun h =>
    absurd (hplain.isPrinted '\r' h) (by decide)
  rw [Json.encode, String.toList_ofList, textOfBytes_encode hreturn]

theorem fromDocument_written (hplain : Json.IsPlain (.table fields)) :
    fromDocument .json (Json.writeValue ascii (.table fields)) = fromTable fields := by
  rw [fromDocument, parse, parseJson, Json.decode_writeValue hplain]
  rfl

/-- Loading a table from the file that it was written to is loading the table: it
gives the same layout, or the same faults in the same order. -/
theorem load_written (h : LeadsToTable s source path ascii fields)
    (hplain : Json.IsPlain (.table fields)) :
    ((load source).run s).result = ((load (.table fields)).run s).result := by
  obtain ⟨text, hnames⟩ := h.named
  rw [result_load, fetch_of_names hnames, result_fetchPathOr_of_file h.found h.holds,
    textOfBytes_written hplain, ok_bind, ok_bind, fileFormat_of_isJsonPath h.marked,
    Contents.read, fromDocument_written hplain]
  rfl

/-- A store with one file, whose name ends as those of JSON texts do, that holds the
text of a table. -/
def writtenFile (ascii : Bool) (fields : Value.Fields) : Store :=
  (Store.empty []).set ["layout.JSON"]
    (.file (Text.Utf8.encode (Json.encode ascii (.table fields)).toList))

theorem leadsToTable_writtenFile (ascii : Bool) (fields : Value.Fields) :
    LeadsToTable (writtenFile ascii fields) (.text "layout.JSON") (.ofString "layout.JSON") ascii
      fields where
  named := ⟨"layout.JSON", rfl⟩
  found := by rfl
  holds := by rfl
  marked := by unfold IsJsonPath; decide

/-- A table with values of every kind, among them two that a layout cannot have. -/
def nestedFields : Value.Fields :=
  [("extra", .list [.null, .bool true, .int (-12), .table [("", .text "ü\r\n")]]),
   ("output_path", .text "\"glue\\𝄞"), ("source_suffix", .text "c")]

theorem isPlain_nestedFields : Json.IsPlain (.table nestedFields) := by
  refine .table _ (by decide) fun e he => ?_
  simp only [nestedFields, List.mem_cons, List.not_mem_nil, or_false] at he
  rcases he with rfl | rfl | rfl
  · refine .list _ fun v hv => ?_
    simp only [List.mem_cons, List.not_mem_nil, or_false] at hv
    rcases hv with rfl | rfl | rfl | rfl
    · exact .null
    · exact .bool true
    · exact .int _ (by decide)
    · refine .table _ (by decide) fun e he => ?_
      obtain rfl := List.mem_singleton.mp he
      exact .text _
  · exact .text _
  · exact .text _

theorem load_written_nestedFields :
    LeadsToTable (writtenFile true nestedFields) (.text "layout.JSON") (.ofString "layout.JSON")
        true nestedFields ∧
      Json.IsPlain (.table nestedFields) ∧
      ((load (.text "layout.JSON")).run (writtenFile true nestedFields)).result =
        .error (.layout [⟨"source_suffix", .badSuffix "c", .text "c"⟩,
          ⟨"extra", .unknownKey, .list [.null, .bool true, .int (-12),
            .table [("", .text "ü\r\n")]]⟩]) := by
  have hfile := leadsToTable_writtenFile true nestedFields
  refine ⟨hfile, isPlain_nestedFields, ?_⟩
  rw [load_written hfile isPlain_nestedFields]
  rfl

end SdkGlue.Layout
