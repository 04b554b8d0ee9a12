import SdkGlue.Text.Position

/-!
# Errors of JSON texts

What is wrong with a text that is no JSON document, and where.
-/

namespace SdkGlue.Json

/-- What is wrong at a place of a text. -/
inductive Mistake where
  | value
  | propertyName
  | colon
  | comma
  | extraData
  | unterminated
  | control
  | escape
  | unicodeEscape
  | byteOrderMark
  deriving DecidableEq, Repr

/-- Why reading stopped: a mistake, with the number of characters left from
its place on, an integer with too many digits, or a string with a surrogate
that has no partner. -/
inductive Stop where
  | mistake (what : Mistake) (left : Nat)
  | tooLong (digits : Nat)
  | unpaired
  deriving DecidableEq, Repr

/-- A mistake and its place in the text. -/
structure SyntaxError where
  what : Mistake
  offset : Nat
  line : Nat
  column : Nat
  deriving DecidableEq, Repr

def Mistake.message : Mistake → String
  | .value => "Expecting value"
  | .propertyName => "Expecting property name enclosed in double quotes"
  | .colon => "Expecting ':' delimiter"
  | .comma => "Expecting ',' delimiter"
  | .extraData => "Extra data"
  | .unterminated => "Unterminated string starting at"
  | .control => "Invalid control character at"
  | .escape => "Invalid \\escape"
  | .unicodeEscape => "Invalid \\uXXXX escape"
  | .byteOrderMark => "Unexpected UTF-8 BOM (decode using utf-8-sig)"

def SyntaxError.message (e : SyntaxError) : String :=
  s!"{e.what.message}: line {e.line} column {e.column} (char {e.offset})"

/-- The place in a text that has so many characters left after it. -/
def SyntaxError.at (what : Mistake) (source : List Char) (left : Nat) : SyntaxError :=
  let offset := source.length - left
  let before := source.take offset
  ⟨what, offset, Text.lineAfter before, Text.columnAfter before⟩

end SdkGlue.Json
