import SdkGlue.Json.Number
import SdkGlue.Json.Text

/-!
# Reading JSON texts

A document is one value between blanks.  Besides JSON proper the names `NaN`,
`Infinity` and `-Infinity` are values.  Of the entries of an object with one
name, the last gives the value and the first the place.
-/

namespace SdkGlue.Json

/-- The characters that may stand between tokens. -/
def isSpace (c : Char) : Bool := c = ' ' || c = '\t' || c = '\n' || c = '\r'

def skip (s : List Char) : List Char := s.dropWhile isSpace

def words : List (List Char × Value) :=
  [("null".toList, .null), ("true".toList, .bool true), ("false".toList, .bool false),
   ("NaN".toList, .real .notANumber), ("Infinity".toList, .real (.infinite false)),
   ("-Infinity".toList, .real (.infinite true))]

/-- The word that stands here, and the text after it. -/
def word? (s : List Char) : Option (Value × List Char) :=
  (words.find? fun w => w.1.isPrefixOf s).map fun w => (w.2, s.drop w.1.length)

mutual

/-- Reads a value; the first argument bounds the depth and length. -/
def readValue : Nat → List Char → Except Stop (Value × List Char)
  | 0, s => .error (.mistake .value s.length)
  | n + 1, s =>
      match s with
      | [] => .error (.mistake .value 0)
      | '"' :: r => do
          let (text, r) ← readString r
          return (.text text, r)
      | '\x7b' :: r =>
          match skip r with
          | '\x7d' :: r => .ok (.table [], r)
          | r => do
              let (fields, r) ← readEntries n [] r
              return (.table fields, r)
      | '[' :: r =>
          match skip r with
          | ']' :: r => .ok (.list [], r)
          | r => do
              let (items, r) ← readItems n r
              return (.list items, r)
      | s => match word? s with
        | some found => .ok found
        | none => readNumber s

/-- Reads the items of an array, from the first one to the closing bracket. -/
def readItems : Nat → List Char → Except Stop (List Value × List Char)
  | 0, s => .error (.mistake .value s.length)
  | n + 1, s => do
      let (v, r) ← readValue n s
      match skip r with
      | ']' :: r => return ([v], r)
      | ',' :: r => do
          let (vs, r) ← readItems n (skip r)
          return (v :: vs, r)
      | r => .error (.mistake .comma r.length)

/-- Reads the entries of an object after those in `fields`, from the next name
to the closing brace. -/
def readEntries : Nat → Value.Fields → List Char → Except Stop (Value.Fields × List Char)
  | 0, _, s => .error (.mistake .propertyName s.length)
  | n + 1, fields, s =>
      match s with
      | '"' :: r => do
          let (key, r) ← readString r
          match skip r with
          | ':' :: r => do
              let (v, r) ← readValue n (skip r)
              let fields := Keyed.put key v fields
              match skip r with
              | '\x7d' :: r => return (fields, r)
              | ',' :: r => readEntries n fields (skip r)
              | r => .error (.mistake .comma r.length)
          | r => .error (.mistake .colon r.length)
      | s => .error (.mistake .propertyName s.length)

end

/-- Why a text is no document. -/
inductive Failure where
  | syntaxError (e : SyntaxError)
  | tooLong (digits : Nat)
  | unpaired
  deriving DecidableEq, Repr

/-- Reads a document, a value with nothing but blanks after it. -/
def readDocument (s : List Char) : Except Stop Value :=
  match s with
  | '\ufeff' :: _ => .error (.mistake .byteOrderMark s.length)
  | _ => do
      let (v, r) ← readValue (2 * s.length + 2) (skip s)
      match skip r with
      | [] => return v
      | r => .error (.mistake .extraData r.length)

def decode (s : List Char) : Except Failure Value :=
  (readDocument s).mapError fun
    | .mistake what left => .syntaxError (.at what s left)
    | .tooLong digits => .tooLong digits
    | .unpaired => .unpaired

end SdkGlue.Json
