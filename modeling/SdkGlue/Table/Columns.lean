/-!
# Column widths

Columns that are too wide together are made narrower: the widest ones first,
down to the next width, and all of them when this does not suffice.
-/

namespace SdkGlue.Table

/-- A quotient rounded to the nearest whole number, a half to the even one. -/
def roundDiv (a b : Nat) : Nat :=
  let q := a / b
  let r := 2 * (a % b)
  if r < b ∨ (r = b ∧ q % 2 = 0) then q else q + 1

/-- Takes a total off widths from left to right, in equal shares of what is
left, each within its limit; a limit of zero gives no share. -/
def takeOff (total sharers : Nat) : (limits widths : List Nat) → List Nat
  | limit :: limits, w :: ws =>
      if limit = 0 then w :: takeOff total sharers limits ws
      else
        let share := min limit (roundDiv total sharers)
        (w - share) :: takeOff (total - share) (sharers - 1) limits ws
  | _, _ => []

/-- Takes a total off widths within limits. -/
def reduce (total : Nat) (limits widths : List Nat) : List Nat :=
  takeOff total (limits.countP (· ≠ 0)) limits widths

def largest (widths : List Nat) : Nat := widths.foldl max 0

def total (widths : List Nat) : Nat := widths.foldr (· + ·) 0

/-- What the widths exceed the room by. -/
def excess (room : Nat) (widths : List Nat) : Nat := total widths - room

/-- The largest width other than the given one. -/
def nextTo (top : Nat) (widths : List Nat) : Nat := largest (widths.filter (· ≠ top))

/-- Brings the widest columns down towards the next width, so many times at
most. -/
def lowerWidest (room : Nat) : (times : Nat) → List Nat → List Nat
  | 0, widths => widths
  | times + 1, widths =>
      let top := largest widths
      let step := min (excess room widths) (top - nextTo top widths)
      if step = 0 then widths
      else
        let limits := widths.map fun w => if w = top then step else 0
        lowerWidest room times (reduce (excess room widths) limits widths)

def shrink (room : Nat) (widths : List Nat) : List Nat :=
  let lowered := lowerWidest room (excess room widths) widths
  if excess room lowered = 0 then lowered else reduce (excess room lowered) lowered lowered

end SdkGlue.Table
