import SdkGlue.Text.Position
import SdkGlue.Text.Quoted

/-!
# Errors of TOML texts

What is wrong with a text that is no TOML document, and where.
-/

namespace SdkGlue.Toml

/-- A dotted key. -/
abbrev Key := List String

/-- What is wrong at a place of a text. -/
inductive Mistake where
  | statement
  | newline
  | equals
  | keyStart
  | declaredTwice (key : Key)
  | overwrite
  | tableEnd
  | arrayTableEnd
  | immutable (key : Key)
  | redefined (key : Key)
  | unclosedArray
  | unclosedInlineTable
  | duplicateKey (key : String)
  | backslash
  | hex
  | notScalar
  | missing (mark : String)
  | invalidCharacter (c : Char)
  | unterminated
  | illegalCharacter (c : Char)
  | value
  | date
  deriving DecidableEq, Repr

/-- Why reading stopped: a mistake, with the number of characters left from
its place on, or an integer with too many digits. -/
inductive Stop where
  | mistake (what : Mistake) (left : Nat)
  | tooLong (digits : Nat)
  deriving DecidableEq, Repr

/-- A mistake and its line and column, none at the end of the document. -/
structure SyntaxError where
  what : Mistake
  place : Option (Nat × Nat)
  deriving DecidableEq, Repr

/-- A key as a tuple of quoted parts. -/
def keyText : Key → String
  | [part] => "(" ++ Text.quote part ++ ",)"
  | parts => "(" ++ ", ".intercalate (parts.map Text.quote) ++ ")"

def Mistake.message : Mistake → String
  | .statement => "Invalid statement"
  | .newline => "Expected newline or end of document after a statement"
  | .equals => "Expected '=' after a key in a key/value pair"
  | .keyStart => "Invalid initial character for a key part"
  | .declaredTwice key => s!"Cannot declare {keyText key} twice"
  | .overwrite => "Cannot overwrite a value"
  | .tableEnd => "Expected ']' at the end of a table declaration"
  | .arrayTableEnd => "Expected ']]' at the end of an array declaration"
  | .immutable key => s!"Cannot mutate immutable namespace {keyText key}"
  | .redefined key => s!"Cannot redefine namespace {keyText key}"
  | .unclosedArray => "Unclosed array"
  | .unclosedInlineTable => "Unclosed inline table"
  | .duplicateKey key => s!"Duplicate inline table key {Text.quote key}"
  | .backslash => "Unescaped '\\' in a string"
  | .hex => "Invalid hex value"
  | .notScalar => "Escaped character is not a Unicode scalar value"
  | .missing mark => s!"Expected {Text.quote mark}"
  | .invalidCharacter c => s!"Found invalid character {Text.quote c.toString}"
  | .unterminated => "Unterminated string"
  | .illegalCharacter c => s!"Illegal character {Text.quote c.toString}"
  | .value => "Invalid value"
  | .date => "Invalid date or datetime"

def SyntaxError.message (e : SyntaxError) : String :=
  let place := match e.place with
    | none => "end of document"
    | some (line, column) => s!"line {line}, column {column}"
  s!"{e.what.message} (at {place})"

/-- The place in a text that has so many characters left after it. -/
def SyntaxError.at (what : Mistake) (source : List Char) (left : Nat) : SyntaxError :=
  let before := source.take (source.length - left)
  ⟨what, if left = 0 then none else some (Text.lineAfter before, Text.columnAfter before)⟩

end SdkGlue.Toml
