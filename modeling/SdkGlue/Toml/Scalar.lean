import SdkGlue.Document
import SdkGlue.Text.Digits
import SdkGlue.Toml.Error

/-!
# Numbers, dates and times of TOML texts

A scalar is the longest beginning of the text that has its form; what follows
it is for the reader to judge.
-/

namespace SdkGlue.Toml

/-- A number of exactly `width` decimal digits. -/
def fixedNumber? (width : Nat) (s : List Char) : Option (Nat × List Char) :=
  let digits := s.take width
  if digits.length = width ∧ digits.all Char.isDigit then
    some (Text.natOfDigits digits, s.drop width)
  else none

def twoDigits? (low high : Nat) (s : List Char) : Option (Nat × List Char) := do
  let (n, s) ← fixedNumber? 2 s
  if low ≤ n ∧ n ≤ high then some (n, s) else none

/-- The text after a character that has to stand here. -/
def after? (c : Char) : List Char → Option (List Char)
  | d :: s => if d = c then some s else none
  | [] => none

/-- A date with a month and a day that some month has. -/
def date? (s : List Char) : Option (Date × List Char) := do
  let (year, s) ← fixedNumber? 4 s
  let (month, s) ← twoDigits? 1 12 (← after? '-' s)
  let (day, s) ← twoDigits? 1 31 (← after? '-' s)
  return (⟨year, month, day⟩, s)

/-- The microseconds of a fraction of a second; further digits are dropped. -/
def micros (s : List Char) : Nat × List Char :=
  match s with
  | '.' :: r =>
      let (digits, rest) := r.span Char.isDigit
      if digits = [] then (0, s)
      else
        let six := digits.take 6
        (Text.natOfDigits six * Nat.pow 10 (6 - six.length), rest)
  | _ => (0, s)

def time? (s : List Char) : Option (TimeOfDay × List Char) := do
  let (hour, s) ← twoDigits? 0 23 s
  let (minute, s) ← twoDigits? 0 59 (← after? ':' s)
  let (second, s) ← twoDigits? 0 59 (← after? ':' s)
  let (us, s) := micros s
  return (⟨hour, minute, second, us⟩, s)

/-- An offset from universal time, in minutes. -/
def offset? (s : List Char) : Option (Int × List Char) :=
  match s with
  | c :: s =>
      if c = 'Z' ∨ c = 'z' then some (0, s)
      else if c = '+' ∨ c = '-' then do
        let (hours, s) ← twoDigits? 0 23 s
        let (minutes, s) ← twoDigits? 0 59 (← after? ':' s)
        let n : Int := hours * 60 + minutes
        return (if c = '-' then -n else n, s)
      else none
  | [] => none

/-- The time of day after a date, behind `T` or a space. -/
def timeAfterDate? (s : List Char) : Option (TimeOfDay × List Char) :=
  match s with
  | c :: s => if c = 'T' ∨ c = 't' ∨ c = ' ' then time? s else none
  | [] => none

/-- A calendar value and whether its day exists. -/
def moment? (s : List Char) : Option (Moment × Bool × List Char) :=
  match date? s with
  | some (d, s) =>
      match timeAfterDate? s with
      | none => some (.date d, d.isValid, s)
      | some (t, s) =>
          match offset? s with
          | none => some (.dateTime d t none, d.isValid, s)
          | some (minutes, s) => some (.dateTime d t (some minutes), d.isValid, s)
  | none => (time? s).map fun (t, s) => (.time t, true, s)

/-- A run of digits, single underscores between them left out. -/
def digitRun (isDigit : Char → Bool) : List Char → List Char × List Char
  | '_' :: d :: s =>
      if isDigit d then
        let (ds, rest) := digitRun isDigit s
        (d :: ds, rest)
      else ([], '_' :: d :: s)
  | c :: s =>
      if isDigit c then
        let (ds, rest) := digitRun isDigit s
        (c :: ds, rest)
      else ([], c :: s)
  | [] => ([], [])

def digits? (isDigit : Char → Bool) (s : List Char) : Option (List Char × List Char) :=
  match s with
  | c :: _ => if isDigit c then some (digitRun isDigit s) else none
  | [] => none

/-- A whole number in the base of its mark. -/
def basedInteger? (s : List Char) : Option (Nat × List Char) :=
  let value (base : Nat) (r : List Char) := do
    let isDigit (c : Char) : Bool := (Text.hexValue? c).any (· < base)
    let (ds, rest) ← digits? isDigit r
    return (ds.foldl (fun n d => n * base + (Text.hexValue? d).getD 0) 0, rest)
  match s with
  | '0' :: 'x' :: r => value 16 r
  | '0' :: 'b' :: r => value 2 r
  | '0' :: 'o' :: r => value 8 r
  | _ => none

/-- The integer part of a decimal number: a zero alone, or digits that start
with another one. -/
def wholePart? (s : List Char) : Option (List Char × List Char) :=
  match s with
  | '0' :: r => some (['0'], r)
  | _ => digits? Char.isDigit s

def sign (s : List Char) : Bool × List Char :=
  match s with
  | '-' :: r => (true, r)
  | '+' :: r => (false, r)
  | _ => (false, s)

/-- The digits after the point, if a point and a digit stand here. -/
def fraction? (s : List Char) : Option (List Char × List Char) := do
  digits? Char.isDigit (← after? '.' s)

/-- The exponent, if its mark and a digit stand here. -/
def exponent? (s : List Char) : Option (Int × List Char) :=
  match s with
  | c :: s =>
      if c = 'e' ∨ c = 'E' then do
        let (negative, s) := sign s
        let (ds, rest) ← digits? Char.isDigit s
        let n : Int := Text.natOfDigits ds
        return (if negative then -n else n, rest)
      else none
  | [] => none

/-- The longest decimal integer that is read. -/
def maxDigits : Nat := 4300

def decimal? (s : List Char) : Option (Except Stop Value × List Char) := do
  let (negative, r) := sign s
  let (whole, r) ← wholePart? r
  let real (part : List Char) (e : Int) : Except Stop Value :=
    .ok (.real (.finite negative (Text.natOfDigits (whole ++ part)) (e - part.length)))
  match fraction? r with
  | some (part, r) =>
      match exponent? r with
      | some (e, r) => return (real part e, r)
      | none => return (real part 0, r)
  | none =>
      match exponent? r with
      | some (e, r) => return (real [] e, r)
      | none =>
          let n : Int := Text.natOfDigits whole
          if maxDigits < whole.length then return (.error (.tooLong whole.length), r)
          else return (.ok (.int (if negative then -n else n)), r)

def number? (s : List Char) : Option (Except Stop Value × List Char) :=
  match basedInteger? s with
  | some (n, r) => some (.ok (.int n), r)
  | none => decimal? s

/-- The words for the values beyond all numbers. -/
def specialReal? (s : List Char) : Option (Value × List Char) :=
  let (negative, r) := sign s
  if "inf".toList.isPrefixOf r then some (.real (.infinite negative), r.drop 3)
  else if "nan".toList.isPrefixOf r then some (.real .notANumber, r.drop 3)
  else none

def boolean? (s : List Char) : Option (Value × List Char) :=
  if "true".toList.isPrefixOf s then some (.bool true, s.drop 4)
  else if "false".toList.isPrefixOf s then some (.bool false, s.drop 5)
  else none

def readScalar (s : List Char) : Except Stop (Value × List Char) :=
  match boolean? s with
  | some found => .ok found
  | none =>
  match moment? s with
  | some (m, true, r) => .ok (.moment m, r)
  | some (_, false, _) => .error (.mistake .date s.length)
  | none =>
  match number? s with
  | some (v, r) => v.map (·, r)
  | none =>
  match specialReal? s with
  | some found => .ok found
  | none => .error (.mistake .value s.length)

end SdkGlue.Toml
