import SdkGlue.Decimal

/-!
# The shortest text of a binary number

A decimal number is rounded to the nearest binary number of 53 bits, and that
is written with the fewest digits that round to it again; among those the
nearest wins.  All arithmetic is exact.
-/

namespace SdkGlue.Decimal

/-- A quotient rounded to the nearest whole number, a half to the even one. -/
def roundDiv (num den : Nat) : Nat :=
  let q := num / den
  let r := num % den
  if 2 * r < den then q else if den < 2 * r then q + 1 else q + q % 2

/-- A quotient of whole numbers. -/
structure Ratio where
  num : Nat
  den : Nat

def Ratio.scale (x : Ratio) (base : Nat) : Int → Ratio
  | .ofNat k => ⟨x.num * Nat.pow base k, x.den⟩
  | .negSucc k => ⟨x.num, x.den * Nat.pow base (k + 1)⟩

/-- The larger quotient is not below the smaller. -/
def Ratio.le (x y : Ratio) : Bool := x.num * y.den ≤ y.num * x.den

/-- The greatest `e` with `2 ^ e` at most a positive quotient. -/
def Ratio.log2 (x : Ratio) : Int :=
  let e := (Nat.log2 x.num : Int) - Nat.log2 x.den
  if (Ratio.mk 1 1 |>.scale 2 e).le x then e else e - 1

/-- A binary number `mantissa * 2 ^ exponent`, or one too large. -/
inductive Binary where
  | finite (mantissa : Nat) (exponent : Int)
  | tooLarge
  deriving DecidableEq, Repr

def leastMantissa : Nat := 4503599627370496

/-- The binary number of 53 bits nearest to a positive quotient. -/
def nearest (x : Ratio) : Binary :=
  let e := max (x.log2 - 52) (-1074)
  let y := x.scale 2 (-e)
  let m := roundDiv y.num y.den
  let (m, e) := if m = 2 * leastMantissa then (leastMantissa, e + 1) else (m, e)
  if 971 < e then .tooLarge else .finite m e

/-- The quotients that round to a binary number, the ends included when the
mantissa is even: four times the mantissa and the ends, over a common scale. -/
def rounds (m : Nat) (e : Int) (x : Ratio) : Bool :=
  let below := if m = leastMantissa ∧ -1074 < e then 1 else 2
  let low := (Ratio.mk (4 * m - below) 4).scale 2 e
  let high := (Ratio.mk (4 * m + 2) 4).scale 2 e
  if m % 2 = 0 then low.le x && x.le high else !x.le low && !high.le x

def width (n : Nat) : Nat := (Nat.toDigits 10 n).length

/-- The greatest `k` with `10 ^ k` at most a positive quotient. -/
def Ratio.log10 (x : Ratio) : Int :=
  let k := (width x.num : Int) - width x.den
  if (Ratio.mk 1 1 |>.scale 10 k).le x then k else k - 1

/-- The multiple of `10 ^ k` nearest to a binary number among those that round
to it, as its factor. -/
def onGrid? (mantissa : Nat) (e k : Int) : Option Nat :=
  let x := (Ratio.mk mantissa 1).scale 2 e |>.scale 10 (-k)
  let n := roundDiv x.num x.den
  let hits (c : Nat) := rounds mantissa e ((Ratio.mk c 1).scale 10 k)
  let floor := x.num / x.den
  if hits n then some n
  else if hits floor then some floor
  else if hits (floor + 1) then some (floor + 1)
  else none

/-- The first grid, from one digit to seventeen, that holds a number rounding
to the binary one. -/
def shortestFrom (mantissa : Nat) (e top : Int) : (left : Nat) → Nat × Int
  | 0 => (mantissa, e)
  | left + 1 =>
      let k := top - (16 - left : Int)
      match onGrid? mantissa e k with
      | some n => (n, k)
      | none => shortestFrom mantissa e top left

/-- Digits without trailing zeros, and the power of ten they are multiplied by. -/
def dropZeros : (fuel : Nat) → Nat → Int → Nat × Int
  | 0, n, k => (n, k)
  | fuel + 1, n, k => if n ≠ 0 ∧ n % 10 = 0 then dropZeros fuel (n / 10) (k + 1) else (n, k)

/-- The fewest digits of a binary number, as a factor and a power of ten. -/
def shortest (mantissa : Nat) (e : Int) : Nat × Int :=
  let top := ((Ratio.mk mantissa 1).scale 2 e).log10
  let (n, k) := shortestFrom mantissa e top 17
  dropZeros 20 n k

/-- Digits with a point or an exponent: plain from `0.0001` up to below
`10 ^ 16`, with at least one digit on either side of the point. -/
def layOut (n : Nat) (k : Int) : String :=
  let digits := Nat.toDigits 10 n
  let point := (digits.length : Int) + k
  let zeros (c : Nat) := List.replicate c '0'
  if -4 < point ∧ point ≤ 16 then
    if point ≤ 0 then
      String.ofList ('0' :: '.' :: zeros (-point).toNat ++ digits)
    else if digits.length ≤ point.toNat then
      String.ofList (digits ++ zeros (point.toNat - digits.length) ++ ['.', '0'])
    else
      String.ofList (digits.take point.toNat ++ '.' :: digits.drop point.toNat)
  else
    let power := point - 1
    let body := match digits with
      | [] => []
      | [d] => [d]
      | d :: ds => d :: '.' :: ds
    let digitsOf := Nat.toDigits 10 power.natAbs
    let mark := if power < 0 then '-' else '+'
    String.ofList (body ++ 'e' :: mark :: zeros (2 - digitsOf.length) ++ digitsOf)

def magnitudeText (digits : Nat) (exponent : Int) : String :=
  let top := (width digits : Int) + exponent
  if digits = 0 ∨ top < -340 then "0.0"
  else if 320 < top then "inf"
  else
    match nearest ((Ratio.mk digits 1).scale 10 exponent) with
    | .tooLarge => "inf"
    | .finite 0 _ => "0.0"
    | .finite m e =>
        let (n, k) := shortest m e
        layOut n k

/-- The text of the binary number nearest to a decimal one. -/
def text : Decimal → String
  | .finite negative digits exponent =>
      (if negative then "-" else "") ++ magnitudeText digits exponent
  | .infinite negative => if negative then "-inf" else "inf"
  | .notANumber => "nan"

end SdkGlue.Decimal
