import SdkGlue.Document.Literal
import SdkGlue.Path
import SdkGlue.Text.Blank

/-!
# Project layouts

A layout says where a project keeps its generated sources, where its glue
goes, and which names generated sources have.  It is read from the fields of a
configuration table; every fault of the table is found, those of known fields
first.
-/

namespace SdkGlue

/-- Where the parts of a project lie; paths are seen from the project root. -/
structure Layout where
  sourceDir : String
  gluePath : String
  suffix : String
  deriving DecidableEq, Repr

namespace Layout

/-- The layout of a project that does not describe its own. -/
def standard : Layout := ⟨"csource/build/nimcache", "csource/imports.cmake", ".c"⟩

/-- The directory of the generated sources of a project. -/
def sourcesOf (l : Layout) (project : Path) : Path := project.join (.ofString l.sourceDir)

def glueOf (l : Layout) (project : Path) : Path := project.join (.ofString l.gluePath)

/-- What is wrong with a field. -/
inductive Problem where
  | notText
  | blankPath
  | badSuffix (given : String)
  | unknownKey
  deriving DecidableEq, Repr

/-- A field with a problem, and the value it has. -/
structure FieldFault where
  key : String
  problem : Problem
  value : Value
  deriving Repr

def Problem.code : Problem → String
  | .notText => "string_type"
  | .blankPath => "value_error"
  | .badSuffix _ => "value_error"
  | .unknownKey => "extra_forbidden"

def Problem.message : Problem → String
  | .notText => "Input should be a valid string"
  | .blankPath => "Value error, path must not be empty"
  | .badSuffix given => s!"Value error, Invalid source suffix '{given}', expected e.g. '.c'"
  | .unknownKey => "Extra inputs are not permitted"

/-- A path has a character that is no blank. -/
def checkPath (s : String) : Option Problem :=
  if Text.allBlank s.toList then some .blankPath else none

/-- A suffix has a dot first and something after it. -/
def checkSuffix (s : String) : Option Problem :=
  match s.toList with
  | '.' :: _ :: _ => none
  | _ => some (.badSuffix s)

/-- The text of a field, or the default when the field is missing. -/
def readField (key default : String) (check : String → Option Problem)
    (fields : Value.Fields) : Except FieldFault String :=
  match Keyed.get? fields key with
  | none => .ok default
  | some v =>
      match v.string? with
      | none => .error ⟨key, .notText, v⟩
      | some s =>
          match check s with
          | none => .ok s
          | some problem => .error ⟨key, problem, v⟩

def knownKeys : List String := ["generated_dir", "output_path", "source_suffix"]

/-- The faults of entries that a layout does not have. -/
def unknownEntries (fields : Value.Fields) : List FieldFault :=
  (fields.filter fun e => e.1 ∉ knownKeys).map fun e => ⟨e.1, .unknownKey, e.2⟩

def faultOf {α : Type} : Except FieldFault α → List FieldFault
  | .ok _ => []
  | .error f => [f]

/-- The layout that a table describes, or all its faults. -/
def ofFields (fields : Value.Fields) : Except (List FieldFault) Layout :=
  let sourceDir := readField "generated_dir" standard.sourceDir checkPath fields
  let gluePath := readField "output_path" standard.gluePath checkPath fields
  let suffix := readField "source_suffix" standard.suffix checkSuffix fields
  match sourceDir, gluePath, suffix, unknownEntries fields with
  | .ok sourceDir, .ok gluePath, .ok suffix, [] => .ok ⟨sourceDir, gluePath, suffix⟩
  | _, _, _, unknown => .error (faultOf sourceDir ++ faultOf gluePath ++ faultOf suffix ++ unknown)

def toFields (l : Layout) : Value.Fields :=
  [("generated_dir", .text l.sourceDir), ("output_path", .text l.gluePath),
   ("source_suffix", .text l.suffix)]

/-- A key in a report, marked when it holds a dot. -/
def keyText (key : String) : String :=
  if key.toList.contains '.' then s!"`{key}`" else key

def FieldFault.report (f : FieldFault) : String :=
  s!"{keyText f.key}\n  {f.problem.message} [type={f.problem.code}, " ++
    s!"input_value={f.value.shown}, input_type={f.value.typeName}]"

def report (faults : List FieldFault) : String :=
  let plural := if faults.length = 1 then "error" else "errors"
  "\n".intercalate
    (s!"{faults.length} validation {plural} for GlueConfig" :: faults.map FieldFault.report)

end Layout

end SdkGlue
