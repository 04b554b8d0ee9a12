import SdkGlue.Text.Blank
import SdkGlue.Text.Lines
import SdkGlue.Text.Width

/-!
# Wrapping

A line is divided into words, each with the blanks after it, and the words are
placed on lines of a given width.  A word that is wider than a line is either
folded over lines or left for the caller to cut.
-/

namespace SdkGlue.Text

/-- A tab fills up to a multiple of so many cells. -/
def tabStop : Nat := 8

/-- The line with spaces in place of tabs, from a column on. -/
def expandTabs (column : Nat) : List Char → List Char
  | [] => []
  | c :: s =>
      if c = '\t' then
        let gap := tabStop - column % tabStop
        List.replicate gap ' ' ++ expandTabs (column + gap) s
      else c :: expandTabs (column + charWidth c) s

def screenLines (s : List Char) : List (List Char) := (splitOn '\n' s).map (expandTabs 0)

/-- A character at which a line ends when the width of a text is taken. -/
def endsLine (c : Char) : Bool := blankRanges.contains c.toNat && c.toNat ∉ [0x09, 0x1f, 0x20] &&
  (c.toNat < 0xa0 || c.toNat = 0x2028 || c.toNat = 0x2029)

/-- The width of the widest line of a text, tabs not counted; `used` cells of
the first line are taken. -/
def widestFrom (used : Nat) : List Char → Nat
  | [] => used
  | c :: s =>
      if endsLine c then max used (widestFrom 0 s) else widestFrom (used + charWidth c) s

def widest (s : List Char) : Nat := widestFrom 0 s

/-- A character in front of words: a blank before a word begins a piece of its
own, all else joins the first word. -/
def joinWord (c : Char) : List (List Char) → List (List Char)
  | [] => [[c]]
  | w :: ws => if isBlank c && !w.head?.any isBlank then [c] :: w :: ws else (c :: w) :: ws

/-- The words of a line that does not begin with a blank, each with the blanks
after it. -/
def wordsAfterMargin (s : List Char) : List (List Char) := s.foldr joinWord []

/-- The words of a line, each with the blanks after it, the first one with
those before it too. -/
def words (s : List Char) : List (List Char) :=
  match wordsAfterMargin (s.dropWhile isBlank) with
  | [] => []
  | w :: ws => (s.takeWhile isBlank ++ w) :: ws

/-- Lines that are full, and the one that is being filled. -/
structure Filling where
  full : List (List Char)
  line : List Char
  deriving DecidableEq, Repr

/-- Begins a line, unless nothing is on the one being filled. -/
def Filling.startLine (f : Filling) (line : List Char) : Filling :=
  if f.line = [] then { f with line } else ⟨f.full ++ [f.line], line⟩

/-- A word in pieces that fit into a width; `line` is the piece under way. -/
def chop (width : Nat) (line : List Char) : List Char → List (List Char)
  | [] => [line]
  | c :: s =>
      if width < Text.width line + charWidth c then line :: chop width [c] s
      else chop width (line ++ [c]) s

/-- Puts a word on the line, or on a line of its own. -/
def Filling.place (width : Nat) (fold : Bool) (f : Filling) (word : List Char) : Filling :=
  let size := Text.width (trimEnd word)
  if Text.width f.line + size ≤ width then { f with line := f.line ++ word }
  else if fold && width < size then (chop width [] word).foldl Filling.startLine f
  else f.startLine word

def wrap (width : Nat) (fold : Bool) (s : List Char) : List (List Char) :=
  match words s with
  | [] => [s]
  | ws =>
      let f := ws.foldl (Filling.place width fold) ⟨[], []⟩
      f.full ++ [f.line]

theorem flatten_chop (width : Nat) (line s : List Char) :
    (chop width line s).flatten = line ++ s := by
  induction s generalizing line with
  | nil => simp [chop]
  | cons c s ih =>
      simp only [chop]
      split <;> simp [ih]

theorem flatten_joinWord (c : Char) (ws : List (List Char)) :
    (joinWord c ws).flatten = c :: ws.flatten := by
  unfold joinWord
  split
  · rfl
  · split <;> simp

theorem flatten_wordsAfterMargin (s : List Char) : (wordsAfterMargin s).flatten = s := by
  unfold wordsAfterMargin
  induction s with
  | nil => rfl
  | cons c s ih => simp [flatten_joinWord, ih]

/-- The words of a line make up the line, unless it is blank. -/
theorem flatten_words {s : List Char} (h : words s ≠ []) : (words s).flatten = s := by
  have hs := flatten_wordsAfterMargin (s.dropWhile isBlank)
  unfold words at h ⊢
  split
  · next he => simp [he] at h
  · next w ws he =>
      rw [he, List.flatten_cons] at hs
      rw [List.flatten_cons, List.append_assoc, hs, List.takeWhile_append_dropWhile]

def Filling.text (f : Filling) : List Char := f.full.flatten ++ f.line

theorem Filling.text_startLine (f : Filling) (line : List Char) :
    (f.startLine line).text = f.text ++ line := by
  unfold startLine text
  split
  · next h => simp [h]
  · simp

theorem Filling.text_foldl_startLine (f : Filling) (lines : List (List Char)) :
    (lines.foldl startLine f).text = f.text ++ lines.flatten := by
  induction lines generalizing f with
  | nil => simp
  | cons line lines ih => simp [ih, text_startLine]

theorem Filling.text_place (width : Nat) (fold : Bool) (f : Filling) (word : List Char) :
    (f.place width fold word).text = f.text ++ word := by
  unfold place
  simp only
  split
  · simp [text]
  · split
    · simp [text_foldl_startLine, flatten_chop]
    · exact f.text_startLine word

/-- Wrapping only divides a line: put together, the lines are the line. -/
theorem flatten_wrap (width : Nat) (fold : Bool) (s : List Char) :
    (wrap width fold s).flatten = s := by
  have hfold : ∀ (ws : List (List Char)) (f : Filling),
      (ws.foldl (Filling.place width fold) f).text = f.text ++ ws.flatten := by
    intro ws
    induction ws with
    | nil => simp
    | cons w ws ih => intro f; simp [ih, Filling.text_place]
  unfold wrap
  split
  · simp
  · next ws h =>
      have := hfold (words s) ⟨[], []⟩
      simpa [Filling.text, flatten_words h] using this

/-- Removes blanks at the end of a line of more than so many characters. -/
def trimExcess (size : Nat) (s : List Char) : List Char :=
  s.take (max (trimEnd s).length (min s.length size))

end SdkGlue.Text
