import SdkGlue.Keyed
import SdkGlue.Text.Lines

/-!
# Stores

A store is a file system: a finite map from locations to files, links and
directories, with a working directory.  The root always counts as a directory.
-/

namespace SdkGlue

/-- A place in the tree: the names on the way to it, the innermost first. -/
abbrev Location := List String

/-- What stands at a location. -/
inductive Entry where
  | file (bytes : List UInt8)
  | link (target : String)
  | directory
  deriving DecidableEq, Repr

/-- The kind of an entry. -/
inductive Entry.Kind where
  | file
  | link
  | directory
  deriving DecidableEq, Repr

def Entry.kind : Entry → Kind
  | .file _ => .file
  | .link _ => .link
  | .directory => .directory

/-- A file system with its working directory; each location has one entry. -/
structure Store where
  entries : Keyed Location Entry
  cwd : Location
  nodup : entries.keys.Nodup

namespace Store

/-- The directories on the way to a location, itself included. -/
def way : Location → Keyed Location Entry
  | [] => []
  | name :: dir => (name :: dir, .directory) :: way dir

theorem length_le_of_mem_way {loc dir : Location} (h : loc ∈ (way dir).keys) :
    loc.length ≤ dir.length := by
  induction dir with
  | nil => simp [way, Keyed.keys] at h
  | cons name dir ih =>
      rcases List.mem_cons.mp h with rfl | h
      · exact Nat.le_refl _
      · have := ih h
        simp only [List.length_cons]
        omega

theorem nodup_way (dir : Location) : (way dir).keys.Nodup := by
  induction dir with
  | nil => exact List.nodup_nil
  | cons name dir ih =>
      refine List.nodup_cons.mpr ⟨fun h => ?_, ih⟩
      have := length_le_of_mem_way h
      simp only [List.length_cons] at this
      omega

/-- The store that holds nothing but the way to its working directory. -/
def empty (cwd : Location) : Store := ⟨way cwd, cwd, nodup_way cwd⟩

def find? (s : Store) (loc : Location) : Option Entry :=
  if loc = [] then some .directory else Keyed.get? s.entries loc

def set (s : Store) (loc : Location) (e : Entry) : Store where
  entries := Keyed.put loc e s.entries
  cwd := s.cwd
  nodup := Keyed.nodup_keys_put s.nodup loc e

def remove (s : Store) (loc : Location) : Store where
  entries := Keyed.erase loc s.entries
  cwd := s.cwd
  nodup := Keyed.nodup_keys_erase s.nodup loc

/-- The names in a directory with their kinds, in the order of the store. -/
def children (s : Store) (dir : Location) : List (String × Entry.Kind) :=
  s.entries.filterMap fun
    | (name :: parent, e) => if parent = dir then some (name, e.kind) else none
    | ([], _) => none

@[simp] theorem find?_root (s : Store) : s.find? [] = some .directory := rfl

@[simp] theorem find?_set_cons (s : Store) (name : String) (dir : Location) (e : Entry)
    (loc : Location) :
    (s.set (name :: dir) e).find? loc = if name :: dir = loc then some e else s.find? loc := by
  by_cases h : loc = []
  · subst h; simp
  · simp [find?, set, h]

@[simp] theorem find?_remove_cons (s : Store) (name : String) (dir loc : Location) :
    (s.remove (name :: dir)).find? loc =
      if name :: dir = loc then none else s.find? loc := by
  by_cases h : loc = []
  · subst h; simp
  · simp [find?, remove, h]

@[simp] theorem cwd_set (s : Store) (loc : Location) (e : Entry) : (s.set loc e).cwd = s.cwd := rfl

@[simp] theorem cwd_remove (s : Store) (loc : Location) : (s.remove loc).cwd = s.cwd := rfl

end Store

end SdkGlue
