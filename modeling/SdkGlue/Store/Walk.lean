import SdkGlue.Store

/-!
# Walking along a path

A path leads to a place: an entry, or a free name in a directory.  The walk
goes from left to right, follows links on the way, and stops at the first
component that cannot be passed.
-/

namespace SdkGlue

/-- Why an operation of the file system fails. -/
inductive Cause where
  | missing
  | notDirectory
  | isDirectory
  | nameTooLong
  | linkLoop
  deriving DecidableEq, Repr

/-- Where a path leads. -/
inductive Place where
  | entry (loc : Location) (e : Entry)
  | vacant (dir : Location) (name : String)
  deriving DecidableEq, Repr

/-- What a walk is for: the entry at the end of the path, what a link at the end
leads to, or a file to be written there. -/
inductive Aim where
  | entry
  | target
  | writing
  deriving DecidableEq, Repr

/-- A link at the end of the path is followed. -/
def Aim.follows : Aim → Bool
  | .entry => false
  | .target => true
  | .writing => true

/-- A file to be written is refused as a directory when slashes follow its name,
whatever is there. -/
def Aim.refuses (aim : Aim) (rest : List String) : Bool :=
  aim = .writing && !rest.isEmpty && rest.all (· = "")

@[simp] theorem Aim.refuses_entry (rest : List String) : Aim.entry.refuses rest = false := by
  simp [refuses]

@[simp] theorem Aim.refuses_target (rest : List String) : Aim.target.refuses rest = false := by
  simp [refuses]

@[simp] theorem Aim.refuses_nil (aim : Aim) : aim.refuses [] = false := by
  simp [refuses]

namespace Store

/-- The longest name of an entry, in bytes. -/
def maxName : Nat := 255

/-- The length, in bytes, from which on a path is too long. -/
def maxPath : Nat := 4096

/-- The number of links that one walk follows. -/
def maxLinks : Nat := 40

/-- The components of a path, the empty ones included. -/
def components (path : String) : List String :=
  (Text.splitOn '/' path.toList).map String.ofList

/-- The place from which a path starts, seen from a directory. -/
def startOf (path : String) (dir : Location) : Location :=
  if path.toList.head? = some '/' then [] else dir

/-- Walks from a directory along components.  An empty component and `.` stay
where they are, `..` goes up, and a link is handed to `jump` with the components
that remain, unless it is the entry at the end that is asked for. -/
def walkWith (s : Store) (aim : Aim)
    (jump : Location → List String → Except Cause Place) :
    Location → List String → Except Cause Place
  | loc, [] => .ok (.entry loc .directory)
  | loc, name :: rest =>
      if name = "" ∨ name = "." then walkWith s aim jump loc rest
      else if name = ".." then walkWith s aim jump loc.tail rest
      else if aim.refuses rest then .error .isDirectory
      else if maxName < name.utf8ByteSize then .error .nameTooLong
      else
        match s.find? (name :: loc) with
        | none => if rest = [] then .ok (.vacant loc name) else .error .missing
        | some .directory => walkWith s aim jump (name :: loc) rest
        | some (.file bytes) =>
            if rest = [] then .ok (.entry (name :: loc) (.file bytes))
            else .error .notDirectory
        | some (.link target) =>
            if rest = [] ∧ !aim.follows then .ok (.entry (name :: loc) (.link target))
            else jump (startOf target loc) (components target ++ rest)

/-- Walks along components, following at most so many links. -/
def walk (s : Store) (aim : Aim) : (links : Nat) → Location → List String →
    Except Cause Place
  | 0 => walkWith s aim fun _ _ => .error .linkLoop
  | n + 1 => walkWith s aim (walk s aim n)

def resolve (s : Store) (aim : Aim) (path : String) : Except Cause Place :=
  if path = "" then .error .missing
  else if maxPath ≤ path.utf8ByteSize then .error .nameTooLong
  else walk s aim maxLinks (startOf path s.cwd) (components path)

end Store

end SdkGlue
