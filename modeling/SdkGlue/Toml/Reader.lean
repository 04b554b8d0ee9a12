import SdkGlue.Text.Lines
import SdkGlue.Toml.Lexical
import SdkGlue.Toml.Scalar
import SdkGlue.Toml.Tables

/-!
# Reading TOML texts

A document is a sequence of statements: entries, table headers and headers of
arrays of tables, each on a line of its own.
-/

namespace SdkGlue.Toml

def isBareKeyChar (c : Char) : Bool := c.isAlphanum || c = '-' || c = '_'

def readKeyPart (s : List Char) : Except Stop (String × List Char) :=
  match readOneLine? s with
  | some r => r.map fun (cs, rest) => (String.ofList cs, rest)
  | none =>
      match s.span isBareKeyChar with
      | ([], _) => .error (.mistake .keyStart s.length)
      | (cs, rest) => .ok (String.ofList cs, rest)

/-- A dotted key with the blanks after it; the number bounds its parts. -/
def readKey : Nat → List Char → Except Stop (Key × List Char)
  | 0, s => .error (.mistake .keyStart s.length)
  | n + 1, s => do
      let (part, s) ← readKeyPart s
      match skip s with
      | '.' :: s => do
          let (key, s) ← readKey n (skip s)
          return (part :: key, s)
      | s => return ([part], s)

/-- A mistake at the place that has these characters left. -/
def placed {α : Type} (left : List Char) (r : Except Mistake α) : Except Stop α :=
  r.mapError (.mistake · left.length)

mutual

/-- Reads a value; the first argument bounds the depth and length. -/
def readValue : Nat → List Char → Except Stop (Value × List Char)
  | 0, s => .error (.mistake .value s.length)
  | n + 1, s =>
      match readString? s with
      | some r => r.map fun (cs, rest) => (.text (String.ofList cs), rest)
      | none =>
          match s with
          | '[' :: r => do
              match ← skipLayout false r with
              | ']' :: r => return (.list [], r)
              | r => do
                  let (items, r) ← readItems n r
                  return (.list items, r)
          | '\x7b' :: r =>
              match skip r with
              | '\x7d' :: r => .ok (.table [], r)
              | r => do
                  let (fields, r) ← readInline n ⟨[], []⟩ r
                  return (.table fields, r)
          | s => readScalar s

/-- Reads the items of an array, from the next one to the closing bracket. -/
def readItems : Nat → List Char → Except Stop (List Value × List Char)
  | 0, s => .error (.mistake .unclosedArray s.length)
  | n + 1, s => do
      let (v, s) ← readValue n s
      match ← skipLayout false s with
      | ']' :: s => return ([v], s)
      | ',' :: s =>
          match ← skipLayout false s with
          | ']' :: s => return ([v], s)
          | s => do
              let (vs, s) ← readItems n s
              return (v :: vs, s)
      | s => .error (.mistake .unclosedArray s.length)

def readPair : Nat → List Char → Except Stop (Key × Value × List Char)
  | 0, s => .error (.mistake .equals s.length)
  | n + 1, s => do
      let (key, s) ← readKey (s.length + 1) s
      match s with
      | '=' :: s => do
          let (v, s) ← readValue n (skip s)
          return (key, v, s)
      | s => .error (.mistake .equals s.length)

/-- Reads the entries of an inline table, from the next key to the closing
brace. -/
def readInline : Nat → InlineDraft → List Char → Except Stop (Value.Fields × List Char)
  | 0, _, s => .error (.mistake .unclosedInlineTable s.length)
  | n + 1, d, s => do
      let (key, v, s) ← readPair n s
      let d ← placed s (d.addPair key v)
      match skip s with
      | '\x7d' :: s => return (d.fields, s)
      | ',' :: s => readInline n d (skip s)
      | s => .error (.mistake .unclosedInlineTable s.length)

end

/-- A bound for everything that the readers do with a text. -/
def bound (s : List Char) : Nat := 3 * s.length + 3

def readTableHeader (d : Draft) (s : List Char) : Except Stop (Draft × List Char) := do
  let (key, s) ← readKey (s.length + 1) (skip s)
  let d ← placed s (d.openTable key)
  match s with
  | ']' :: s => return (d, s)
  | s => .error (.mistake .tableEnd s.length)

/-- Reads the header of an array of tables, after its brackets. -/
def readArrayTableHeader (d : Draft) (s : List Char) : Except Stop (Draft × List Char) := do
  let (key, s) ← readKey (s.length + 1) (skip s)
  let d ← placed s (d.openArrayTable key)
  match s with
  | ']' :: ']' :: s => return (d, s)
  | s => .error (.mistake .arrayTableEnd s.length)

/-- Reads one statement, or nothing before a comment. -/
def readStatement (d : Draft) (s : List Char) : Except Stop (Draft × List Char) :=
  match s with
  | '[' :: '[' :: r => readArrayTableHeader d.settle r
  | '[' :: r => readTableHeader d.settle r
  | '#' :: _ => .ok (d, s)
  | c :: _ =>
      if isBareKeyChar c || c = '"' || c = '\'' then do
        let (key, v, s) ← readPair (bound s) s
        return (← placed s (d.addPair key v), s)
      else .error (.mistake .statement s.length)
  | [] => .ok (d, [])

/-- Reads the statements from the beginning of a line on; the number bounds
the lines. -/
def readLines : Nat → Draft → List Char → Except Stop Draft
  | 0, d, _ => .ok d
  | n + 1, d, s =>
      match skip s with
      | [] => .ok d
      | '\n' :: s => readLines n d s
      | s => do
          let (d, s) ← readStatement d s
          match ← skipComment (skip s) with
          | [] => return d
          | '\n' :: s => readLines n d s
          | s => .error (.mistake .newline s.length)

/-- Why a text is no document. -/
inductive Failure where
  | syntaxError (e : SyntaxError)
  | tooLong (digits : Nat)
  deriving DecidableEq, Repr

def decode (source : List Char) : Except Failure Value.Fields :=
  let s := Text.unifyPairs source
  match readLines (s.length + 1) .empty s with
  | .ok d => .ok d.root
  | .error (.mistake what left) => .error (.syntaxError (.at what s left))
  | .error (.tooLong digits) => .error (.tooLong digits)

end SdkGlue.Toml
