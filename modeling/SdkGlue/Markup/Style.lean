import SdkGlue.Text.Blank
import SdkGlue.Text.Digits
import SdkGlue.Text.Lines

/-!
# Names of styles

A style name is a sequence of words: attributes, which may be denied, a
colour, a background after `on`, and a link.  Names that ask for the same
style have one canonical spelling; a name that is none of this stands for
itself.  A colour with a number left out cannot be read.
-/

namespace SdkGlue.Style

/-- The attributes in their order, each with its short form. -/
def attributes : List (String × String) :=
  [("bold", "b"), ("dim", "d"), ("italic", "i"), ("underline", "u"), ("blink", "blink"),
   ("blink2", "blink2"), ("reverse", "r"), ("conceal", "c"), ("strike", "s"),
   ("underline2", "uu"), ("frame", "frame"), ("encircle", "encircle"), ("overline", "o")]

/-- The attribute that a word names. -/
def attribute? (word : String) : Option String :=
  (attributes.find? fun a => a.1 = word ∨ a.2 = word).map (·.1)

def colourNames : List String :=
  ["black", "red", "green", "yellow", "blue", "magenta", "cyan", "white"]

/-- The colours of a palette of 256 that have a name and no bright form. -/
def shadeNames : List String :=
  ["grey0", "gray0", "navy_blue", "dark_blue", "blue3", "blue1", "dark_green", "deep_sky_blue4",
   "dodger_blue3", "dodger_blue2", "green4", "spring_green4", "turquoise4", "deep_sky_blue3",
   "dodger_blue1", "green3", "spring_green3", "dark_cyan", "light_sea_green", "deep_sky_blue2",
   "deep_sky_blue1", "spring_green2", "cyan3", "dark_turquoise", "turquoise2", "green1",
   "spring_green1", "medium_spring_green", "cyan2", "cyan1", "dark_red", "deep_pink4", "purple4",
   "purple3", "blue_violet", "orange4", "grey37", "gray37", "medium_purple4", "slate_blue3",
   "royal_blue1", "chartreuse4", "dark_sea_green4", "pale_turquoise4", "steel_blue", "steel_blue3",
   "cornflower_blue", "chartreuse3", "cadet_blue", "sky_blue3", "steel_blue1", "pale_green3",
   "sea_green3", "aquamarine3", "medium_turquoise", "chartreuse2", "sea_green2", "sea_green1",
   "aquamarine1", "dark_slate_gray2", "dark_magenta", "dark_violet", "purple", "light_pink4",
   "plum4", "medium_purple3", "slate_blue1", "yellow4", "wheat4", "grey53", "gray53",
   "light_slate_grey", "light_slate_gray", "medium_purple", "light_slate_blue",
   "dark_olive_green3", "dark_sea_green", "light_sky_blue3", "sky_blue2", "dark_sea_green3",
   "dark_slate_gray3", "sky_blue1", "chartreuse1", "light_green", "pale_green1",
   "dark_slate_gray1", "red3", "medium_violet_red", "magenta3", "dark_orange3", "indian_red",
   "hot_pink3", "medium_orchid3", "medium_orchid", "medium_purple2", "dark_goldenrod",
   "light_salmon3", "rosy_brown", "grey63", "gray63", "medium_purple1", "gold3", "dark_khaki",
   "navajo_white3", "grey69", "gray69", "light_steel_blue3", "light_steel_blue", "yellow3",
   "dark_sea_green2", "light_cyan3", "light_sky_blue1", "green_yellow", "dark_olive_green2",
   "dark_sea_green1", "pale_turquoise1", "deep_pink3", "magenta2", "hot_pink2", "orchid",
   "medium_orchid1", "orange3", "light_pink3", "pink3", "plum3", "violet", "light_goldenrod3",
   "tan", "misty_rose3", "thistle3", "plum2", "khaki3", "light_goldenrod2", "light_yellow3",
   "grey84", "gray84", "light_steel_blue1", "yellow2", "dark_olive_green1", "honeydew2",
   "light_cyan1", "red1", "deep_pink2", "deep_pink1", "magenta1", "orange_red1", "indian_red1",
   "hot_pink", "dark_orange", "salmon1", "light_coral", "pale_violet_red1", "orchid2", "orchid1",
   "orange1", "sandy_brown", "light_salmon1", "light_pink1", "pink1", "plum1", "gold1",
   "navajo_white1", "misty_rose1", "thistle1", "yellow1", "light_goldenrod1", "khaki1", "wheat1",
   "cornsilk1", "grey100", "gray100", "grey3", "gray3", "grey7", "gray7", "grey11", "gray11",
   "grey15", "gray15", "grey19", "gray19", "grey23", "gray23", "grey27", "gray27", "grey30",
   "gray30", "grey35", "gray35", "grey39", "gray39", "grey42", "gray42", "grey46", "gray46",
   "grey50", "gray50", "grey54", "gray54", "grey58", "gray58", "grey62", "gray62", "grey66",
   "gray66", "grey70", "gray70", "grey74", "gray74", "grey78", "gray78", "grey82", "gray82",
   "grey85", "gray85", "grey89", "gray89", "grey93", "gray93"]

def isByte (digits : List Char) : Bool :=
  !digits.isEmpty && digits.all Char.isDigit && Text.natOfDigits digits ≤ 255

/-- The argument of a call such as `name(argument)`. -/
def argument? (name : String) (word : List Char) : Option (List Char) :=
  let opening := name.toList ++ ['(']
  if opening.isPrefixOf word && word.getLast? = some ')' then
    some ((word.drop opening.length).dropLast)
  else none

/-- The three arguments of a call, divided by commas. -/
def threeBytes (argument : List Char) : Bool :=
  let first := argument.takeWhile (· != ',')
  let rest := argument.drop (first.length + 1)
  let second := rest.takeWhile (· != ',')
  isByte first && isByte second && isByte (rest.drop (second.length + 1))

def isColour (word : String) : Bool :=
  word = "default" || word ∈ colourNames || word ∈ colourNames.map ("bright_" ++ ·) ||
    word ∈ shadeNames ||
    match word.toList with
    | '#' :: digits => digits.length = 6 && digits.all fun c => (Text.hexValue? c).isSome
    | cs =>
        ((argument? "color" cs).any fun a => isByte a && a.length ≤ 3) ||
          (argument? "rgb" cs).any threeBytes

/-- A call of `rgb` with three arguments, one of them empty. -/
def leavesOutNumber (word : String) : Bool :=
  (argument? "rgb" word.toList).any fun a =>
    let parts := Text.splitOn ',' a
    parts.length = 3 && a.all (fun c => c.isDigit || c = ',') && parts.any List.isEmpty

/-- Why a style name has no canonical spelling: it is no style, or it cannot be read. -/
inductive Stop where
  | noStyle
  | noNumber
  deriving DecidableEq, Repr

/-- Takes a word for a colour. -/
def readColour (word : String) : Except Stop String :=
  if isColour word then .ok word
  else .error (if leavesOutNumber word then .noNumber else .noStyle)

/-- Takes a word for an attribute. -/
def readAttribute (word : String) : Except Stop String :=
  match attribute? word with
  | some a => .ok a
  | none => .error .noStyle

/-- What a style name has asked for so far. -/
structure Draft where
  settings : List (String × Bool) := []
  colour : Option String := none
  background : Option String := none
  link : Option String := none

/-- Asks for an attribute, or denies it; the last word counts. -/
def Draft.setAttribute (d : Draft) (name : String) (given : Bool) : Draft :=
  { d with settings := (name, given) :: d.settings.filter (·.1 ≠ name) }

def lower (s : String) : String := String.ofList (s.toList.map Char.toLower)

def read : Draft → List String → Except Stop Draft
  | d, [] => .ok d
  | d, word :: words =>
      match lower word, words with
      | "on", colour :: rest => do
          read { d with background := some (← readColour (lower colour)) } rest
      | "not", name :: rest => do
          read (d.setAttribute (← readAttribute name) false) rest
      | "link", target :: rest => read { d with link := some target } rest
      | name, rest =>
          match attribute? name with
          | some a => read (d.setAttribute a true) rest
          | none => do
              read { d with colour := some (← readColour name) } rest

def Draft.words (d : Draft) : List String :=
  let setting (a : String × String) : Option String :=
    (d.settings.lookup a.1).map fun given => if given then a.1 else "not " ++ a.1
  attributes.filterMap setting ++ d.colour.toList ++ (d.background.map ("on " ++ ·)).toList ++
    (d.link.map ("link " ++ ·)).toList

def splitWords (s : List Char) : List String :=
  ((s.splitBy fun a b => Text.isBlank a = Text.isBlank b).filter (!Text.allBlank ·)).map
    String.ofList

def canonical (name : List Char) : Except String String :=
  match read {} (splitWords name) with
  | .ok d => .ok (if d.words.isEmpty then "none" else " ".intercalate d.words)
  | .error .noStyle => .ok (lower (String.ofList (Text.trim name)))
  | .error .noNumber => .error "invalid literal for int() with base 10: ''"

end SdkGlue.Style
