import SdkGlue.Scan
import SdkGlue.Script

/-!
# Generated sources

The generated sources of a directory are its entries whose name ends with a
suffix and that are files once links are followed.  They are visited in the
order of their names, and an entry is judged only when its turn comes.
-/

namespace SdkGlue.Sources

/-- An entry whose name ends with the suffix. -/
structure Candidate where
  path : String
  kind : Entry.Kind
  deriving DecidableEq, Repr

def entryPath (directory name : String) : String :=
  if directory = "" then name
  else if directory.toList.getLast? = some '/' then directory ++ name
  else directory ++ "/" ++ name

def hasSuffix (suffix name : String) : Bool := suffix.toList.isSuffixOf name.toList

/-- The candidates among the entries of a directory, by name. -/
def select (directory suffix : String) (entries : List (String × Entry.Kind)) : List Candidate :=
  ((entries.filter fun e => hasSuffix suffix e.1).mergeSort fun a b => a.1 ≤ b.1).map
    fun e => ⟨entryPath directory e.1, e.2⟩

def candidates (directory suffix : String) : Script (List Candidate) := do
  let entries ← Script.call directory (.list directory)
  return select directory suffix entries

/-- A candidate is a source when it is a file or a link that leads to one.  A
link that leads nowhere is none. -/
def isSource (c : Candidate) : Script Bool :=
  match c.kind with
  | .file => pure true
  | .directory => pure false
  | .link => Script.ask (.kindAt c.path) fun
      | .ok (kind : Entry.Kind) => pure (kind = .file)
      | .error .missing => pure false
      | .error cause => Script.fail (.system cause c.path)

/-- Visits the sources among candidates. -/
def visit {α : Type} (f : Path → Script α) : List Candidate → Script (List α)
  | [] => pure []
  | c :: cs => do
      if ← isSource c then
        let a ← f (.ofString c.path)
        let as ← visit f cs
        return a :: as
      else visit f cs

def forEach {α : Type} (directory suffix : String) (f : Path → Script α) : Script (List α) := do
  visit f (← candidates directory suffix)

def list (directory suffix : String) : Script (List Path) := forEach directory suffix pure

/-- The notes of a scan. -/
def reportScan (file : String) (scan : Scan) : Script Unit := do
  scan.unknown.forM fun path => Script.report (.unknownInclude path file)
  Script.report (.scanned file scan.members.length)

def membersOf (path : Path) : Script (List Member) := do
  let bytes ← Script.call path.text (.read path.text)
  let scan := Scan.ofBytes bytes
  reportScan path.name scan
  return scan.members

/-- The members that each source of a directory includes. -/
def scanEach (directory suffix : String) : Script (List (Path × List Member)) :=
  forEach directory suffix fun path => do return (path, ← membersOf path)

/-- The members that the sources of a directory include. -/
def collect (directory suffix : String) : Script (List Member) := do
  let found ← forEach directory suffix membersOf
  let members := Catalog.sdk.arrange found.flatten
  Script.report (.collected members.length found.length directory)
  return members

def remove (path : Path) : Script Unit := Script.call path.text (.unlink path.text)

/-- Removes the sources of a directory and counts them; without a directory
there is nothing to do. -/
def clean (directory suffix : String) : Script Nat := do
  match ← Script.probe (Path.ofString directory).text with
  | some .directory => do
      let removed ← forEach directory suffix remove
      Script.report (.cleaned removed.length directory)
      return removed.length
  | _ => do
      Script.report (.nothingToClean directory)
      return 0

end SdkGlue.Sources
