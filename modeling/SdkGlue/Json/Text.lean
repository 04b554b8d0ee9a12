import SdkGlue.Json.Error
import SdkGlue.Text.Digits

/-!
# Strings of JSON texts

A string is read as code units first, one for each escape.  A high surrogate
followed by a low one then becomes one code point.  A string in which any other
surrogate is left is no text, and is not read.
-/

namespace SdkGlue.Json

/-- The character that an escape of one letter stands for. -/
def simpleEscape? : Char → Option Nat
  | '"' => some 0x22
  | '\\' => some 0x5c
  | '/' => some 0x2f
  | 'b' => some 0x08
  | 'f' => some 0x0c
  | 'n' => some 0x0a
  | 'r' => some 0x0d
  | 't' => some 0x09
  | _ => none

def hex4? (a b c d : Char) : Option Nat := do
  let a ← Text.hexValue? a
  let b ← Text.hexValue? b
  let c ← Text.hexValue? c
  let d ← Text.hexValue? d
  return ((a * 16 + b) * 16 + c) * 16 + d

/-- The code units up to the closing mark and what follows it; `opening` is
the number of characters left at the opening mark. -/
def readUnits (opening : Nat) : List Char → Except Stop (List Nat × List Char)
  | [] => .error (.mistake .unterminated opening)
  | '"' :: s => .ok ([], s)
  | ['\\'] => .error (.mistake .unterminated opening)
  | '\\' :: 'u' :: s =>
      match s with
      | a :: b :: c :: d :: e :: s' =>
          match hex4? a b c d with
          | none => .error (.mistake .unicodeEscape (s.length + 1))
          | some unit => do
              let (units, rest) ← readUnits opening (e :: s')
              return (unit :: units, rest)
      | _ => .error (.mistake .unicodeEscape (s.length + 1))
  | '\\' :: c :: s =>
      match simpleEscape? c with
      | none => .error (.mistake .escape (s.length + 2))
      | some unit => do
          let (units, rest) ← readUnits opening s
          return (unit :: units, rest)
  | c :: s =>
      if c.toNat < 0x20 then .error (.mistake .control (s.length + 1))
      else do
        let (units, rest) ← readUnits opening s
        return (c.toNat :: units, rest)

def isHighSurrogate (n : Nat) : Bool := 0xd800 ≤ n && n ≤ 0xdbff

def isLowSurrogate (n : Nat) : Bool := 0xdc00 ≤ n && n ≤ 0xdfff

def joinPair (high low : Nat) : Nat := 0x10000 + (high - 0xd800) * 0x400 + (low - 0xdc00)

/-- The code points of code units. -/
def joinSurrogates : List Nat → List Nat
  | [] => []
  | [n] => [n]
  | a :: b :: rest =>
      if isHighSurrogate a && isLowSurrogate b then joinPair a b :: joinSurrogates rest
      else a :: joinSurrogates (b :: rest)

/-- The text of code points, if no surrogate is among them. -/
def textOf? (codes : List Nat) : Option String :=
  if codes.any fun n => isHighSurrogate n || isLowSurrogate n then none
  else some (String.ofList (codes.map Char.ofNat))

/-- The string whose opening mark has been read, and what follows it. -/
def readString (s : List Char) : Except Stop (String × List Char) := do
  let (units, rest) ← readUnits (s.length + 1) s
  match textOf? (joinSurrogates units) with
  | some text => return (text, rest)
  | none => throw .unpaired

end SdkGlue.Json
