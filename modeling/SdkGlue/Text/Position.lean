/-!
# Places in a text

A place is an offset in characters; for people it is a line and a column, both
counted from one.
-/

namespace SdkGlue.Text

/-- The line of the place after these characters. -/
def lineAfter (before : List Char) : Nat := before.count '\n' + 1

def columnAfter (before : List Char) : Nat := (before.reverse.takeWhile (· != '\n')).length + 1

end SdkGlue.Text
