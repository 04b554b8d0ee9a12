import SdkGlue.Store.Walk

/-!
# Operations on a store

Reading and writing follow a link at the end of the path; removing and moving
act on the link itself.  An operation that fails leaves the store as it is.
-/

namespace SdkGlue.Store

/-- The kind of what a path leads to, links followed. -/
def kindAt (s : Store) (path : String) : Except Cause Entry.Kind := do
  match ← s.resolve .target path with
  | .entry _ e => return e.kind
  | .vacant _ _ => throw .missing

/-- The names in a directory with their kinds. -/
def list (s : Store) (path : String) : Except Cause (List (String × Entry.Kind)) := do
  match ← s.resolve .target path with
  | .entry loc .directory => return s.children loc
  | .entry _ _ => throw .notDirectory
  | .vacant _ _ => throw .missing

def read (s : Store) (path : String) : Except Cause (List UInt8) := do
  match ← s.resolve .target path with
  | .entry _ (.file bytes) => return bytes
  | .entry _ _ => throw .isDirectory
  | .vacant _ _ => throw .missing

def write (s : Store) (path : String) (bytes : List UInt8) : Except Cause Store := do
  match ← s.resolve .writing path with
  | .entry loc (.file _) => return s.set loc (.file bytes)
  | .entry _ _ => throw .isDirectory
  | .vacant dir name => return s.set (name :: dir) (.file bytes)

def unlink (s : Store) (path : String) : Except Cause Store := do
  match ← s.resolve .entry path with
  | .entry _ .directory => throw .isDirectory
  | .entry loc _ => return s.remove loc
  | .vacant _ _ => throw .missing

/-- Moves the file or link at one path to another path, in place of a file or
link there. -/
def rename (s : Store) (source target : String) : Except Cause Store := do
  match ← s.resolve .entry source with
  | .entry _ .directory => throw .isDirectory
  | .vacant _ _ => throw .missing
  | .entry loc e =>
      match ← s.resolve .entry target with
      | .entry _ .directory => throw .isDirectory
      | .entry loc' _ => return if loc = loc' then s else (s.remove loc).set loc' e
      | .vacant dir name => return (s.remove loc).set (name :: dir) e

def makeLink (s : Store) (path target : String) : Except Cause Store := do
  match ← s.resolve .entry path with
  | .entry _ _ => throw .isDirectory
  | .vacant dir name => return s.set (name :: dir) (.link target)

/-- Creates a directory, unless the path leads to one. -/
def makeDirectory (s : Store) (path : String) : Except Cause Store := do
  match ← s.resolve .target path with
  | .entry _ .directory => return s
  | .entry _ _ => throw .notDirectory
  | .vacant _ _ =>
      match ← s.resolve .entry path with
      | .vacant dir name => return s.set (name :: dir) .directory
      | .entry _ _ => throw .notDirectory

/-- Creates a directory and those on the way to it. -/
def makeDirectories (s : Store) (path : String) : Except Cause Store :=
  let parts := components path
  (List.range parts.length).foldlM (fun s i =>
    let front := "/".intercalate (parts.take (i + 1))
    if front = "" then .ok s else s.makeDirectory front) s

/-- A location below another one, as a path. -/
def pathBelow? (top : Location) (loc : Location) : Option String :=
  if top.isSuffixOf loc ∧ top.length < loc.length then
    some ("/".intercalate (loc.take (loc.length - top.length)).reverse)
  else none

def tree (s : Store) : List (String × Entry) :=
  let found := s.entries.filterMap fun (loc, e) => (pathBelow? s.cwd loc).map (·, e)
  found.mergeSort fun a b => a.1 ≤ b.1

end SdkGlue.Store
