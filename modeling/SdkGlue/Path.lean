import SdkGlue.Text.Lines

/-!
# Paths

A path is a root and the components below it.  Reading a path drops empty
components and `.`, keeps `..`, and keeps exactly two leading slashes apart
from one; any other number of leading slashes is one.
-/

namespace SdkGlue

/-- Where a path starts. -/
inductive Path.Root where
  | relative
  | slash
  | doubleSlash
  deriving DecidableEq, Repr

/-- A path in its normal form. -/
structure Path where
  root : Path.Root
  parts : List String
  deriving DecidableEq, Repr

namespace Path

/-- The text that a root puts in front of the components. -/
def Root.text : Root → String
  | .relative => ""
  | .slash => "/"
  | .doubleSlash => "//"

def isPart (piece : List Char) : Bool := piece != [] && piece != ['.']

def rootOf : List Char → Root
  | '/' :: '/' :: '/' :: _ => .slash
  | '/' :: '/' :: _ => .doubleSlash
  | '/' :: _ => .slash
  | _ => .relative

def ofString (s : String) : Path :=
  ⟨rootOf s.toList, ((Text.splitOn '/' s.toList).filter isPart).map String.ofList⟩

/-- Writes a path; the empty one is `.`. -/
def text (p : Path) : String :=
  if p.root = .relative ∧ p.parts = [] then "."
  else p.root.text ++ "/".intercalate p.parts

instance : ToString Path := ⟨text⟩

/-- The path `q` seen from `p`: an absolute one stands alone. -/
def join (p q : Path) : Path :=
  if q.root = .relative then ⟨p.root, p.parts ++ q.parts⟩ else q

/-- The last component, empty when there is none. -/
def name (p : Path) : String := p.parts.getLast?.getD ""

def withName (p : Path) (name : String) : Path := ⟨p.root, p.parts.dropLast ++ [name]⟩

/-- The part of a file name from its last dot on, unless the dot begins or
ends the name. -/
def suffixOf (name : List Char) : List Char :=
  let tail := (name.reverse.takeWhile (· != '.')).reverse
  let stem := name.length - tail.length
  if stem ≤ 1 ∨ tail = [] then [] else '.' :: tail

def suffix (p : Path) : String := String.ofList (suffixOf p.name.toList)

theorem join_relative {p q : Path} (h : q.root = .relative) :
    p.join q = ⟨p.root, p.parts ++ q.parts⟩ := by
  simp [join, h]

theorem join_absolute {p q : Path} (h : q.root ≠ .relative) : p.join q = q := by
  simp [join, h]

end Path

end SdkGlue
