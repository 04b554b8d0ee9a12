import SdkGlue.Decimal.Shortest
import SdkGlue.Document
import SdkGlue.Text.Quoted

/-!
# How a report shows a value

A report on a bad configuration shows the offending value as a literal, cut in
the middle when it is long, together with the name of its type.
-/

namespace SdkGlue.Value

def typeName : Value → String
  | .null => "NoneType"
  | .bool _ => "bool"
  | .int _ => "int"
  | .real _ => "float"
  | .text _ => "str"
  | .moment (.date _) => "date"
  | .moment (.time _) => "time"
  | .moment (.dateTime _ _ _) => "datetime"
  | .list _ => "list"
  | .table _ => "dict"

/-- The longest integer that is written out. -/
def maxDigits : Nat := 4300

/-- The literal of an integer, if it is not too long to write. -/
def intLiteral (n : Int) : Option String :=
  let s := toString n
  if (Nat.toDigits 10 n.natAbs).length ≤ maxDigits then some s else none

def call (head : String) (args : List String) : String :=
  head ++ "(" ++ ", ".intercalate args ++ ")"

/-- The numbers of a time of day, without seconds or microseconds that are
zero at its end. -/
def timeNumbers (t : TimeOfDay) : List String :=
  [t.hour, t.minute].map toString ++
    if t.micros ≠ 0 then [t.second, t.micros].map toString
    else if t.second ≠ 0 then [toString t.second]
    else []

def dateNumbers (d : Date) : List String := [d.year, d.month, d.day].map toString

/-- The literal of an offset in minutes: a span of days and seconds, the
seconds never negative. -/
def offsetLiteral (minutes : Int) : String :=
  if minutes = 0 then "datetime.timezone.utc"
  else
    let seconds := minutes * 60
    let days := Int.fdiv seconds 86400
    let rest := Int.fmod seconds 86400
    let span := (if days = 0 then [] else [s!"days={days}"]) ++
      (if rest = 0 then [] else [s!"seconds={rest}"])
    call "datetime.timezone" [call "datetime.timedelta" span]

def momentLiteral : Moment → String
  | .date d => call "datetime.date" (dateNumbers d)
  | .time t => call "datetime.time" (timeNumbers t)
  | .dateTime d t offset =>
      call "datetime.datetime" (dateNumbers d ++ timeNumbers t ++
        match offset with
        | none => []
        | some minutes => [s!"tzinfo={offsetLiteral minutes}"])

mutual

/-- The literal of a value, unless an integer in it is too long. -/
def literal? : Value → Option String
  | .null => some "None"
  | .bool b => some (if b then "True" else "False")
  | .int n => intLiteral n
  | .real d => some d.text
  | .text s => some (Text.quote s)
  | .moment m => some (momentLiteral m)
  | .list items => do return "[" ++ ", ".intercalate (← literals? items) ++ "]"
  | .table fields => do return "\x7b" ++ ", ".intercalate (← entryLiterals? fields) ++ "\x7d"

def literals? : List Value → Option (List String)
  | [] => some []
  | v :: vs => do return (← literal? v) :: (← literals? vs)

def entryLiterals? : List (String × Value) → Option (List String)
  | [] => some []
  | (k, v) :: rest => do
      return (Text.quote k ++ ": " ++ (← literal? v)) :: (← entryLiterals? rest)

end

def literal (v : Value) : String := (literal? v).getD s!"<unprintable {v.typeName} object>"

def byteSize (s : List Char) : Nat := s.foldr (·.utf8Size + ·) 0

/-- The longest beginning of a text that is no longer than `size` bytes. -/
def takeBytes : (size : Nat) → List Char → List Char
  | _, [] => []
  | size, c :: s => if c.utf8Size ≤ size then c :: takeBytes (size - c.utf8Size) s else []

/-- A text of more than fifty bytes with its middle left out: the first 25
bytes and the last 24 stay, less what would split a character. -/
def abridge (s : List Char) : List Char :=
  if byteSize s ≤ 50 then s
  else takeBytes 25 s ++ "...".toList ++ (takeBytes 24 s.reverse).reverse

def shown (v : Value) : String := String.ofList (abridge v.literal.toList)

end SdkGlue.Value
