import SdkGlue.Proofs.Scan.Lines
import SdkGlue.Proofs.Sources.Collect
import SdkGlue.Proofs.Text.Lossy

/-!
# Line ends in other styles

A scan comes to the same when every line feed of a file is replaced by a line end
of any style, each by one of its own.
-/

namespace SdkGlue

inductive LineEnd where
  | lf
  | cr
  | crlf
  deriving DecidableEq, Repr

def LineEnd.bytes : LineEnd → List UInt8
  | .lf => [0x0a]
  | .cr => [0x0d]
  | .crlf => [0x0d, 0x0a]

/-- The bytes with the line end `style n` in the place of line feed number `n`. -/
def restyle : (style : Nat → LineEnd) → List UInt8 → List UInt8
  | _, [] => []
  | style, b :: bytes =>
      if b = 0x0a then (style 0).bytes ++ restyle (fun n => style (n + 1)) bytes
      else b :: restyle style bytes

namespace Text

open Utf8

theorem stretches_decodeLossy_append_lineEnd (e : LineEnd) (a b : List UInt8) :
    stretches (decodeLossy (a ++ (e.bytes ++ b))) =
      stretches (decodeLossy a) ++ stretches (decodeLossy b) := by
  have hone : ∀ {c : UInt8} (a b : List UInt8), c < 0x80 → isLineEnd (Char.ofNat c.toNat) = true →
      stretches (decodeLossy (a ++ c :: b)) =
        stretches (decodeLossy a) ++ stretches (decodeLossy b) := by
    intro c a b hc hend
    rw [decodeLossy_append_cons hc, stretches_append_cons hend]
  cases e with
  | lf => exact hone a b (by decide) (by decide)
  | cr => exact hone a b (by decide) (by decide)
  | crlf =>
      -- nothing stands between the two characters of the pair
      have hnone : stretches (decodeLossy []) = [] := stretches_nil
      have hpair := hone [] b (c := 0x0a) (by decide) (by decide)
      rw [hnone, List.nil_append, List.nil_append] at hpair
      rw [← hpair]
      exact hone a (0x0a :: b) (by decide) (by decide)

/-- The bytes before the place that the induction has come to are kept in `a`, since
they may begin a character that goes on. -/
theorem stretches_decodeLossy_append_restyle (style : Nat → LineEnd) (a bytes : List UInt8) :
    stretches (decodeLossy (a ++ restyle style bytes)) = stretches (decodeLossy (a ++ bytes)) := by
  induction bytes generalizing style a with
  | nil => rfl
  | cons b bytes ih =>
      by_cases hb : b = 0x0a
      · subst hb
        have hrest := ih (fun n => style (n + 1)) []
        rw [List.nil_append, List.nil_append] at hrest
        have hline := stretches_decodeLossy_append_lineEnd .lf a bytes
        rw [restyle, if_pos rfl, stretches_decodeLossy_append_lineEnd, hrest, ← hline]
        rfl
      · rw [restyle, if_neg hb, List.append_cons, List.append_cons a b bytes]
        exact ih style (a ++ [b])

end Text

theorem Scan.ofBytes_restyle (style : Nat → LineEnd) (bytes : List UInt8) :
    ofBytes (restyle style bytes) = ofBytes bytes := by
  have hstretches := Text.stretches_decodeLossy_append_restyle style [] bytes
  rw [List.nil_append, List.nil_append] at hstretches
  rw [ofBytes, ofText_eq, hstretches, ← ofText_eq, ofBytes]

namespace Sources

variable {s s' : Store} {path path' : Path} {bytes : List UInt8}

/-- The style of line ends does not matter to a scan, and no character besides
line feed and carriage return ends one of the lines that are scanned: it stands
in one line with what is before it and after it. -/
theorem scan_restyled (style : Nat → LineEnd) (h : Holds s path bytes)
    (h' : Holds s' path' (restyle style bytes)) :
    (∃ found, ((membersOf path).run s).result = .ok found ∧
      ((membersOf path').run s').result = .ok found ∧
      found = (Scan.ofLines (Text.lines (Text.Utf8.decodeLossy bytes))).members) ∧
    ∀ x c y, Text.Utf8.decodeLossy bytes = x ++ c :: y → c ≠ '\n' → c ≠ '\r' →
      ∃ before left right after, Text.lines x = before ++ [left] ∧
        Text.lines y = right :: after ∧
        Text.lines (Text.Utf8.decodeLossy bytes) = before ++ (left ++ c :: right) :: after := by
  constructor
  · refine ⟨_, h.result_membersOf, ?_, rfl⟩
    rw [h'.result_membersOf, Scan.ofBytes_restyle]
  · intro x c y htext hlf hcr
    rw [htext]
    exact Text.lines_append_cons (by simp [Text.isLineEnd, hlf, hcr]) x y

/-- The vertical tab hides the second directive, and the first two line feeds
become one line end. -/
def tabbed : List UInt8 :=
  Text.Utf8.encode "#include <spi>\x0b#include <pwm>\n\n#include <adc>\n".toList

def mixed : Nat → LineEnd
  | 0 => .cr
  | 1 => .lf
  | _ => .crlf

def styledTwice : Store :=
  ((Store.empty []).set ["a.c"] (.file tabbed)).set ["b.c"] (.file (restyle mixed tabbed))

theorem scan_restyled_mixed :
    Holds styledTwice (.ofString "a.c") tabbed ∧
      Holds styledTwice (.ofString "b.c") (restyle mixed tabbed) ∧
      ((membersOf (.ofString "b.c")).run styledTwice).result =
        .ok [⟨"adc", "hardware_adc"⟩, ⟨"spi", "hardware_spi"⟩] ∧
      ∃ right after,
        Text.lines "#include <pwm>\n\n#include <adc>\n".toList = right :: after ∧
        Text.lines (Text.Utf8.decodeLossy tabbed) =
          ("#include <spi>".toList ++ '\x0b' :: right) :: after := by
  have h : Holds styledTwice (.ofString "a.c") tabbed := ⟨by decide, by rfl⟩
  have h' : Holds styledTwice (.ofString "b.c") (restyle mixed tabbed) := ⟨by decide, by rfl⟩
  obtain ⟨⟨found, -, hfound, hlines⟩, hstands⟩ := scan_restyled mixed h h'
  obtain ⟨before, left, right, after, hleft, hright, hjoined⟩ :=
    hstands "#include <spi>".toList '\x0b' "#include <pwm>\n\n#include <adc>\n".toList
      (by decide +kernel) (by decide) (by decide)
  have hone : Text.lines "#include <spi>".toList = [] ++ ["#include <spi>".toList] := by decide
  obtain ⟨rfl, hlast⟩ := List.append_inj' (hone.symm.trans hleft) rfl
  obtain rfl := List.singleton_inj.mp hlast
  refine ⟨h, h', ?_, right, after, hright, hjoined⟩
  rw [hfound, hlines]
  exact congrArg Except.ok (by decide +kernel)

end Sources

end SdkGlue
