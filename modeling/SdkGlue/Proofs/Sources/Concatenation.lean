import SdkGlue.Proofs.Scan.Lines
import SdkGlue.Proofs.Sources.Collect
import SdkGlue.Proofs.Text.Lossy

/-!
# Scanning a file in two parts

A file cut at a line feed is scanned part by part.  The parts do not touch each
other: the line feed ends a line and ends every byte sequence before it, whether
that is a character or not.
-/

namespace SdkGlue

namespace Scan

theorem ofBytes_append_newline (a b : List UInt8) :
    ofBytes (a ++ 0x0a :: b) =
      if ∃ line ∈ Text.lines (Text.Utf8.decodeLossy a), "typedef".toList <+: line then ofBytes a
      else (ofBytes a).union (ofBytes b) := by
  rw [ofBytes, Text.Utf8.decodeLossy_append_cons (by decide)]
  exact ofText_append_cons (by decide) _ _

theorem ofBytes_append_newline_nil (a : List UInt8) : ofBytes (a ++ [0x0a]) = ofBytes a := by
  rw [ofBytes, Text.Utf8.decodeLossy_append_cons (by decide), ofText_eq,
    Text.stretches_append_cons (by decide)]
  rw [ofBytes, ofText_eq]
  exact congrArg ofLines (List.append_nil _)

theorem mem_union_iff {a b : List UInt8} {m : Member} :
    m ∈ ((ofBytes a).union (ofBytes b)).members ↔
      m ∈ (ofBytes a).members ∨ m ∈ (ofBytes b).members := by
  have hsdk : ∀ {bytes}, m ∈ (ofBytes bytes).members → m ∈ Catalog.sdk := fun h =>
    (mem_members_iff.mp h).mem_sdk
  simp only [union, Catalog.mem_arrange, List.mem_append, and_iff_right_iff_imp]
  rintro (h | h)
  · exact hsdk h
  · exact hsdk h

end Scan

namespace Sources

variable {s s₁ s₂ : Store} {path path₁ path₂ : Path} {a b : List UInt8}

/-- Three files are scanned, and the first one holds the bytes of the others with
a line feed between them. -/
theorem scan_concatenation (h : Holds s path (a ++ 0x0a :: b)) (h₁ : Holds s₁ path₁ a)
    (h₂ : Holds s₂ path₂ b) :
    ∃ found first second,
      ((membersOf path).run s).result = .ok found ∧
      ((membersOf path₁).run s₁).result = .ok first ∧
      ((membersOf path₂).run s₂).result = .ok second ∧
      ((∃ line ∈ Text.lines (Text.Utf8.decodeLossy a), "typedef".toList <+: line) →
        found = first) ∧
      ((¬ ∃ line ∈ Text.lines (Text.Utf8.decodeLossy a), "typedef".toList <+: line) →
        ∀ m, m ∈ found ↔ m ∈ first ∨ m ∈ second) ∧
      (b = [] → found = first) ∧
      found = (Scan.ofLines (Text.linesWithEnds
        (Text.Utf8.decodeLossy (a ++ 0x0a :: b)))).members := by
  refine ⟨_, _, _, h.result_membersOf, h₁.result_membersOf, h₂.result_membersOf,
    fun hend => ?_, fun hopen => ?_, ?_, ?_⟩
  · rw [Scan.ofBytes_append_newline, if_pos hend]
  · intro m
    rw [Scan.ofBytes_append_newline, if_neg hopen, Scan.mem_union_iff]
  · rintro rfl
    rw [Scan.ofBytes_append_newline_nil]
  · rw [Scan.ofLines_linesWithEnds]
    rfl

/-- The bytes end within a character. -/
def frontPart : List UInt8 := Text.Utf8.encode "#include <spi>\n// ".toList ++ [0xe2, 0x82]

def backPart : List UInt8 := Text.Utf8.encode "#include <adc>\ntypedef x\n#include <pwm>".toList

def cutFile : Store :=
  (((Store.empty []).set ["whole.c"] (.file (frontPart ++ 0x0a :: backPart))).set ["a.c"]
    (.file frontPart)).set ["b.c"] (.file backPart)

theorem scan_concatenation_truncated :
    Holds cutFile (.ofString "whole.c") (frontPart ++ 0x0a :: backPart) ∧
      Holds cutFile (.ofString "a.c") frontPart ∧ Holds cutFile (.ofString "b.c") backPart ∧
      ∃ found, ((membersOf (.ofString "whole.c")).run cutFile).result = .ok found ∧
        ∀ m, m ∈ found ↔ m = ⟨"spi", "hardware_spi"⟩ ∨ m = ⟨"adc", "hardware_adc"⟩ := by
  have h : Holds cutFile (.ofString "whole.c") (frontPart ++ 0x0a :: backPart) := ⟨by decide, by rfl⟩
  have h₁ : Holds cutFile (.ofString "a.c") frontPart := ⟨by decide, by rfl⟩
  have h₂ : Holds cutFile (.ofString "b.c") backPart := ⟨by decide, by rfl⟩
  obtain ⟨found, first, second, hfound, hfirst, hsecond, -, hunion, -⟩ :=
    scan_concatenation h h₁ h₂
  obtain rfl := Except.ok.inj (h₁.result_membersOf.symm.trans hfirst)
  obtain rfl := Except.ok.inj (h₂.result_membersOf.symm.trans hsecond)
  have hspi : (Scan.ofBytes frontPart).members = [⟨"spi", "hardware_spi"⟩] := by decide +kernel
  have hadc : (Scan.ofBytes backPart).members = [⟨"adc", "hardware_adc"⟩] := by decide +kernel
  refine ⟨h, h₁, h₂, found, hfound, fun m => ?_⟩
  rw [hunion (by decide +kernel), hspi, hadc, List.mem_singleton, List.mem_singleton]

end Sources

end SdkGlue
