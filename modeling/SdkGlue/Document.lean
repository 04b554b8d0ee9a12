import SdkGlue.Calendar
import SdkGlue.Decimal
import SdkGlue.Keyed

/-!
# Document values

The values that a configuration document can hold.  Its strings are texts of
Unicode characters, so none of them holds a surrogate without its partner.
-/

namespace SdkGlue

/-- A value of a configuration document; a table keeps the order of its keys. -/
inductive Value where
  | null
  | bool (b : Bool)
  | int (n : Int)
  | real (d : Decimal)
  | text (s : String)
  | moment (m : Moment)
  | list (items : List Value)
  | table (fields : List (String × Value))
  deriving Inhabited, Repr, BEq

namespace Value

abbrev Fields := Keyed String Value

def string? : Value → Option String
  | .text s => some s
  | _ => none

end Value

end SdkGlue
