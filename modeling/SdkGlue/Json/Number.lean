import SdkGlue.Document
import SdkGlue.Json.Error
import SdkGlue.Text.Digits

/-!
# Numbers of JSON texts

A number has an integer part without extra zeros; a fraction and an exponent
belong to it only when they have digits.
-/

namespace SdkGlue.Json

/-- The digits at the beginning of a text, and the rest. -/
def spanDigits (s : List Char) : List Char × List Char := s.span Char.isDigit

/-- The integer part: a zero alone, or digits that start with another one. -/
def integerPart? : List Char → Option (List Char × List Char)
  | '0' :: s => some (['0'], s)
  | s => match spanDigits s with
    | ([], _) => none
    | (ds, rest) => some (ds, rest)

/-- The digits of the fraction, if a point and a digit stand here. -/
def fraction : List Char → List Char × List Char
  | '.' :: s => match spanDigits s with
    | ([], _) => ([], '.' :: s)
    | (ds, rest) => (ds, rest)
  | s => ([], s)

/-- The exponent, if its mark and a digit stand here. -/
def exponent? (s : List Char) : Option (Int × List Char) :=
  match s with
  | c :: s =>
      if c = 'e' ∨ c = 'E' then
        let (negative, digits) := match s with
          | '-' :: s => (true, s)
          | '+' :: s => (false, s)
          | s => (false, s)
        match spanDigits digits with
        | ([], _) => none
        | (ds, rest) =>
            let n : Int := Text.natOfDigits ds
            some (if negative then -n else n, rest)
      else none
  | [] => none

/-- The longest integer that is read. -/
def maxDigits : Nat := 4300

/-- A number after its sign; `left` is the number of characters left where it
starts. -/
def readUnsigned (negative : Bool) (left : Nat) (s : List Char) :
    Except Stop (Value × List Char) :=
  match integerPart? s with
  | none => .error (.mistake .value left)
  | some (whole, s) =>
      let (part, s) := fraction s
      match part, exponent? s with
      | [], none =>
          if maxDigits < whole.length then .error (.tooLong whole.length)
          else
            let n : Int := Text.natOfDigits whole
            .ok (.int (if negative then -n else n), s)
      | part, none =>
          .ok (.real (.finite negative (Text.natOfDigits (whole ++ part)) (-part.length)), s)
      | part, some (e, s) =>
          .ok (.real (.finite negative (Text.natOfDigits (whole ++ part)) (e - part.length)), s)

def readNumber (s : List Char) : Except Stop (Value × List Char) :=
  match s with
  | '-' :: rest => readUnsigned true s.length rest
  | _ => readUnsigned false s.length s

end SdkGlue.Json
