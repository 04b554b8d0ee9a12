import SdkGlue.Catalog.Sdk
import SdkGlue.Text.Blank

/-!
# Include directives

A directive is `#include` with a path between quotation marks or angle
brackets; blanks may stand before and after `#` and before the path.  The path
is folded to a name, and the catalog says which member the name means.
-/

namespace SdkGlue.Include

/-- The text after a word that the given text starts with. -/
def afterWord : (word : List Char) → List Char → Option (List Char)
  | [], s => some s
  | _ :: _, [] => none
  | w :: word, c :: s => if w = c then afterWord word s else none

/-- The text up to a closing mark, when it is not empty and the mark is there. -/
def enclosed (close : Char) (s : List Char) : Option (List Char) :=
  let path := s.takeWhile (· != close)
  if path = [] ∨ close ∉ s then none else some path

def delimited : List Char → Option (List Char)
  | '"' :: s => enclosed '"' s
  | '<' :: s => enclosed '>' s
  | _ => none

/-- The path of the directive that a line holds. -/
def path? (line : List Char) : Option (List Char) := do
  let s ← afterWord ['#'] (Text.trimStart line)
  let s ← afterWord "include".toList (Text.trimStart s)
  delimited (Text.trimStart s)

/-- A path separator becomes part of the name. -/
def foldSeparator (c : Char) : Char := if c = '/' ∨ c = '\\' then '_' else c

/-- The name that a path folds to: the trimmed path up to its first dot, with
separators replaced. -/
def fold (path : List Char) : List Char :=
  ((Text.trim path).map foldSeparator).takeWhile (· != '.')

def resolve (path : List Char) : Option Member :=
  Catalog.sdk.find? (String.ofList (fold path))

end SdkGlue.Include
