import SdkGlue.Json.Reader
import SdkGlue.Script
import SdkGlue.Text.Lines
import SdkGlue.Toml.Reader

/-!
# Loading a layout

A layout comes from a table, from a file, or from an inline document.  A text
is a path first: when a file is there, the file holds the document, otherwise
the text itself is one.  The suffix of a file tells its format; where it does
not, and inline, the first character that is no blank does.  The document is
fetched first, and read then.
-/

namespace SdkGlue.Layout

/-- Where a layout comes from. -/
inductive Source where
  | nothing
  | table (fields : Value.Fields)
  | text (s : String)
  | path (p : Path)
  | other (v : Value)
  deriving Repr

/-- The format of a document, by its first character that is no blank. -/
def formatOf (s : List Char) : Format :=
  match (Text.trimStart s).head? with
  | some '\x7b' => .json
  | some '[' => .json
  | _ => .toml

/-- The format of a file, by its suffix or else by its content. -/
def fileFormat (path : Path) (s : List Char) : Format :=
  let suffix := String.ofList (path.suffix.toList.map Char.toLower)
  if suffix = ".toml" ∨ suffix = ".tml" then .toml
  else if suffix = ".json" then .json
  else formatOf s

/-- The table of a JSON text.  A table holds texts only, so a document with an
unpaired surrogate in a string is none. -/
def parseJson (s : List Char) : Except Fault Value.Fields :=
  match Json.decode s with
  | .ok (.table fields) => .ok fields
  | .ok _ => .error .notTable
  | .error (.syntaxError e) => .error (.json e)
  | .error (.tooLong digits) => .error (.integerTooLong digits)
  | .error .unpaired => .error .notTable

def parseToml (s : List Char) : Except Fault Value.Fields :=
  match Toml.decode s with
  | .ok fields => .ok fields
  | .error (.syntaxError e) => .error (.toml e)
  | .error (.tooLong digits) => .error (.integerTooLong digits)

def parse : Format → List Char → Except Fault Value.Fields
  | .json => parseJson
  | .toml => parseToml

def fromTable (fields : Value.Fields) : Except Fault Layout :=
  (ofFields fields).mapError .layout

def fromDocument (format : Format) (s : List Char) : Except Fault Layout := do
  fromTable (← parse format s)

/-- The text of a file: strict UTF-8, every line end one line feed. -/
def textOfBytes (bytes : List UInt8) : Except Fault (List Char) :=
  match Text.Utf8.decode bytes with
  | .ok s => .ok (Text.unifyNewlines s)
  | .error e => .error (.notUtf8 e)

/-- What a source holds. -/
inductive Contents where
  | standard
  | table (fields : Value.Fields)
  | document (format : Format) (s : List Char)

def Contents.read : Contents → Except Fault Layout
  | .standard => .ok Layout.standard
  | .table fields => fromTable fields
  | .document format s => fromDocument format s

def fetchFile (path : Path) : Script Contents := do
  let bytes ← Script.call path.text (.read path.text)
  let s ← Script.ofExcept (textOfBytes bytes)
  let format := fileFormat path s
  Script.report (.layoutFile path format)
  return .document format s

def fetchInline (text : String) : Script Contents := do
  let format := formatOf text.toList
  Script.report (.inlineLayout format)
  return .document format text.toList

/-- The document in the file at a path, or a text when no file is there. -/
def fetchPathOr (path : Path) (text : String) : Script Contents := do
  match ← Script.probe path.text with
  | some .file => fetchFile path
  | _ => fetchInline text

def fetch : Source → Script Contents
  | .nothing => do
      Script.report .standardLayout
      return .standard
  | .table fields => do
      Script.report .givenLayout
      return .table fields
  | .text s => fetchPathOr (.ofString s) s
  | .path p => fetchPathOr p p.text
  | .other v => Script.fail (.badSource v.typeName)

def load (source : Source) : Script Layout := do
  Script.ofExcept (← fetch source).read

end SdkGlue.Layout
