/-!
# Decimal numbers as written

A number with a fraction or an exponent is kept as it is written: a whole
number times a power of ten.
-/

namespace SdkGlue

/-- A written number that is no integer: `digits * 10 ^ exponent`, or one of
the values beyond all numbers. -/
inductive Decimal where
  | finite (negative : Bool) (digits : Nat) (exponent : Int)
  | infinite (negative : Bool)
  | notANumber
  deriving DecidableEq, Repr

end SdkGlue
