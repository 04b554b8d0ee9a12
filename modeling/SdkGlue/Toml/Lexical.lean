import SdkGlue.Text.Digits
import SdkGlue.Toml.Error

/-!
# Blanks, comments and strings of TOML texts
-/

namespace SdkGlue.Toml

def isSpace (c : Char) : Bool := c = ' ' || c = '\t'

/-- The text from the next character on that is no blank. -/
def skip (s : List Char) : List Char := s.dropWhile isSpace

/-- A control character other than the tab. -/
def isControl (c : Char) : Bool := (c.toNat < 0x20 && c != '\t') || c.toNat = 0x7f

/-- The text from the end of the line of a comment on. -/
def skipCommentBody : List Char → Except Stop (List Char)
  | [] => .ok []
  | '\n' :: s => .ok ('\n' :: s)
  | c :: s =>
      if isControl c then .error (.mistake (.invalidCharacter c) (s.length + 1))
      else skipCommentBody s

def skipComment : List Char → Except Stop (List Char)
  | '#' :: s => skipCommentBody s
  | s => .ok s

/-- The text after blanks, line ends and comments. -/
def skipLayout : (inComment : Bool) → List Char → Except Stop (List Char)
  | _, [] => .ok []
  | true, c :: s =>
      if c = '\n' then skipLayout false s
      else if isControl c then .error (.mistake (.invalidCharacter c) (s.length + 1))
      else skipLayout true s
  | false, c :: s =>
      if isSpace c || c = '\n' then skipLayout false s
      else if c = '#' then skipLayout true s
      else .ok (c :: s)

/-- The text before the first occurrence of a mark, and the text after it. -/
def breakOn? (mark : List Char) : List Char → Option (List Char × List Char)
  | [] => none
  | c :: s =>
      if mark.isPrefixOf (c :: s) then some ([], (c :: s).drop mark.length)
      else (breakOn? mark s).map fun (before, after) => (c :: before, after)

/-- A literal string up to its closing mark. -/
def readLiteral (mark : List Char) (illegal : Char → Bool) (s : List Char) :
    Except Stop (List Char × List Char) :=
  match breakOn? mark s with
  | none => .error (.mistake (.missing (String.ofList mark)) 0)
  | some (body, rest) =>
      match body.dropWhile (!illegal ·) with
      | [] => .ok (body, rest)
      | c :: bad =>
          .error (.mistake (.invalidCharacter c) (bad.length + 1 + mark.length + rest.length))

/-- The character that an escape of one letter stands for. -/
def simpleEscape? : Char → Option Char
  | 'b' => some '\x08'
  | 't' => some '\t'
  | 'n' => some '\n'
  | 'f' => some '\x0c'
  | 'r' => some '\r'
  | '"' => some '"'
  | '\\' => some '\\'
  | _ => none

def hexNumber? (width : Nat) (s : List Char) : Option Nat := do
  let digits ← (s.take width).mapM Text.hexValue?
  if digits.length = width then some (digits.foldl (fun n d => n * 16 + d) 0) else none

/-- The character whose code point has `width` hexadecimal digits here. -/
def readCodePoint (width : Nat) (s : List Char) : Except Stop (List Char × List Char) :=
  match hexNumber? width s with
  | none => .error (.mistake .hex s.length)
  | some n =>
      let rest := s.drop width
      if n.isValidChar then .ok ([Char.ofNat n], rest)
      else .error (.mistake .notScalar rest.length)

/-- The text after a line end that a backslash takes away, with all blanks and
line ends that follow. -/
def skipLineEnd (s : List Char) : Except Stop (List Char) :=
  match skip s with
  | [] => .ok []
  | '\n' :: s => .ok (s.dropWhile fun c => isSpace c || c = '\n')
  | s => .error (.mistake .backslash s.length)

/-- What an escape stands for, after its backslash. -/
def readEscape (multiline : Bool) : List Char → Except Stop (List Char × List Char)
  | [] => .error (.mistake .backslash 0)
  | c :: s =>
      if multiline && (isSpace c || c = '\n') then do return ([], ← skipLineEnd (c :: s))
      else if c = 'u' then readCodePoint 4 s
      else if c = 'U' then readCodePoint 8 s
      else match simpleEscape? c with
        | some d => .ok ([d], s)
        | none => .error (.mistake .backslash s.length)

/-- A character that a basic string may not hold as it is. -/
def isIllegal (multiline : Bool) (c : Char) : Bool := isControl c && !(multiline && c = '\n')

/-- A basic string after its opening mark; the number bounds its length. -/
def readBasic (multiline : Bool) : Nat → List Char → Except Stop (List Char × List Char)
  | 0, s => .error (.mistake .unterminated s.length)
  | n + 1, s =>
      match s with
      | [] => .error (.mistake .unterminated 0)
      | '"' :: r =>
          if !multiline then .ok ([], r)
          else if ['"', '"'].isPrefixOf r then .ok ([], r.drop 2)
          else do
            let (body, r) ← readBasic multiline n r
            return ('"' :: body, r)
      | '\\' :: r => do
          let (part, r) ← readEscape multiline r
          let (body, r) ← readBasic multiline n r
          return (part ++ body, r)
      | c :: r =>
          if isIllegal multiline c then
            .error (.mistake (.illegalCharacter c) (r.length + 1))
          else do
            let (body, r) ← readBasic multiline n r
            return (c :: body, r)

/-- Up to two more marks that belong to the end of a string of several lines. -/
def extraMarks (mark : Char) : List Char → List Char × List Char
  | a :: b :: s =>
      if a = mark then if b = mark then ([a, b], s) else ([a], b :: s) else ([], a :: b :: s)
  | [a] => if a = mark then ([a], []) else ([], [a])
  | [] => ([], [])

/-- A string of several lines after its opening marks. -/
def readMultiline (mark : Char) (s : List Char) : Except Stop (List Char × List Char) := do
  let s := match s with
    | '\n' :: s => s
    | s => s
  let (body, rest) ←
    if mark = '"' then readBasic true (s.length + 1) s
    else readLiteral [mark, mark, mark] (isIllegal true) s
  let (extra, rest) := extraMarks mark rest
  return (body ++ extra, rest)

def readOneLine? (s : List Char) : Option (Except Stop (List Char × List Char)) :=
  match s with
  | '"' :: r => some (readBasic false (r.length + 1) r)
  | '\'' :: r => some (readLiteral ['\''] isControl r)
  | _ => none

def readString? (s : List Char) : Option (Except Stop (List Char × List Char)) :=
  match s with
  | '"' :: '"' :: '"' :: r => some (readMultiline '"' r)
  | '\'' :: '\'' :: '\'' :: r => some (readMultiline '\'' r)
  | s => readOneLine? s

end SdkGlue.Toml
