import SdkGlue.Markup.Style

/-!
# Markup

Text for the terminal may hold tags.  A tag is a bracket, one of the letters
`a` to `z` or one of `#`, `/`, `@`, and the characters up to the first closing
bracket, with no other opening bracket in between.  A tag that opens a style
and one that closes an open style leave no trace.  Backslashes before a tag
count in pairs, each pair is one backslash, and an odd one makes the tag plain
text.  What stands in a tag, and which names between colons mean a picture, is up to a
dialect.
-/

namespace SdkGlue.Markup

/-- What is known of names: a text with pictures in place of their names, the canonical
name of a style that is given with its parameters, and what is wrong with the parameters
of a handler, which is a tag that begins with `@`. -/
structure Dialect where
  pictures : List Char → List Char
  style : (name parameters : List Char) → Except String String
  handler : List Char → Option String

/-- The dialect without pictures, with handlers that take any parameters. -/
def Dialect.small : Dialect where
  pictures s := s
  style name parameters := do
    let style ← Style.canonical name
    if parameters ≠ [] then
      let _ ← Style.canonical (style.toList ++ ' ' :: parameters)
    return style
  handler _ := none

/-- Why a text is not well marked up. -/
inductive Fault where
  | unmatched (tag : String) (offset : Nat)
  | nothingOpen (offset : Nat)
  | unreadable (message : String)
  deriving DecidableEq, Repr

def Fault.message : Fault → String
  | .unmatched tag offset =>
      s!"closing tag '{tag}' at position {offset} doesn't match any open tag"
  | .nothingOpen offset => s!"closing tag '[/]' at position {offset} has nothing to close"
  | .unreadable message => message

/-- A piece of a marked-up text: plain text, or a tag at its offset. -/
inductive Piece where
  | plain (s : List Char)
  | tag (offset : Nat) (body : List Char)
  deriving DecidableEq, Repr

def startsTag (c : Char) : Bool := c.isLower || c = '#' || c = '/' || c = '@'

/-- The inside of the tag whose bracket was just read. -/
def tagBody? : List Char → Option (List Char)
  | [] => none
  | c :: s =>
      let body := s.takeWhile fun d => d != ']' && d != '['
      if startsTag c && (s.drop body.length).head? = some ']' then some (c :: body) else none

/-- The number of backslashes before the tag at the front, and its inside. -/
def tag? (s : List Char) : Option (Nat × List Char) :=
  let slashes := (s.takeWhile (· = '\\')).length
  match s.drop slashes with
  | '[' :: t => (tagBody? t).map (slashes, ·)
  | _ => none

/-- The pieces that a tag with backslashes before it makes. -/
def tagPieces (offset slashes : Nat) (body : List Char) : List Piece :=
  let kept := Piece.plain (List.replicate (slashes / 2) '\\')
  if slashes % 2 = 1 then [kept, .plain ('[' :: body ++ [']'])]
  else [kept, .tag (offset + slashes) body]

/-- The pieces of a text from an offset on, of which the first `skip` characters
belong to a tag that was read, behind a run of plain text.  A backslash before a bracket
that begins no tag is left out. -/
def pieces (skip offset : Nat) (run : List Char) : List Char → List Piece
  | [] => [.plain run]
  | c :: s =>
      match skip with
      | skip + 1 => pieces skip (offset + 1) run s
      | 0 =>
          match tag? (c :: s) with
          | some (slashes, body) =>
              .plain run :: tagPieces offset slashes body ++
                pieces (slashes + body.length + 1) (offset + 1) [] s
          | none =>
              if c = '\\' ∧ s.head? = some '[' then pieces 0 (offset + 1) run s
              else pieces 0 (offset + 1) (run ++ [c]) s

/-- A tag that is open: the canonical name of its style, and its parameters. -/
structure Open where
  name : String
  parameters : List Char
  deriving DecidableEq, Repr

namespace Dialect

variable (d : Dialect)

def readStyle (name parameters : List Char) : Except Fault String :=
  (d.style name parameters).mapError .unreadable

/-- What the inside of a tag opens. -/
def openTag (body : List Char) : Except Fault Open := do
  let name := body.takeWhile (· != '=')
  let parameters := body.drop (name.length + 1)
  return ⟨← d.readStyle name parameters, parameters⟩

/-- The tag that a tag with the given inside closes, its name being behind the slash. -/
def closedBy (opened : List Open) (offset : Nat) (body name : List Char) :
    Except Fault Open := do
  if Text.allBlank name then
    match opened.head? with
    | some o => return o
    | none => .error (.nothingOpen offset)
  else
    let style ← d.readStyle (Text.trim name) []
    match opened.find? (·.name = style) with
    | some o => return o
    | none => .error (.unmatched (String.ofList ('[' :: body ++ [']'])) offset)

/-- Reads the parameters of a handler. -/
def checkHandler (o : Open) : Except Fault Unit :=
  if o.name.toList.head? = some '@' ∧ o.parameters ≠ [] then
    match d.handler o.parameters with
    | some message => .error (.unreadable message)
    | none => .ok ()
  else .ok ()

/-- The plain text of pieces; `opened` holds the tags that are open, the innermost
first. -/
def resolve : (opened : List Open) → List Piece → Except Fault (List Char)
  | _, [] => .ok []
  | opened, .plain s :: ps => (d.pictures s ++ ·) <$> resolve opened ps
  | opened, .tag offset body :: ps =>
      match body.takeWhile (· != '=') with
      | '/' :: name => do
          let o ← d.closedBy opened offset body name
          d.checkHandler o
          resolve (opened.erase o) ps
      | _ => do
          let o ← d.openTag body
          resolve (o :: opened) ps

end Dialect

/-- A control character that the terminal does not get. -/
def isDropped (c : Char) : Bool := c.toNat ∈ [7, 8, 11, 12, 13]

def plain (d : Dialect) (s : String) : Except Fault (List Char) :=
  (·.filter (!isDropped ·)) <$> d.resolve [] (pieces 0 0 [] s.toList)

end SdkGlue.Markup
