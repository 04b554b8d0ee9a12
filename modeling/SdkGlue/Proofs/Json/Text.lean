import SdkGlue.Json.Text
import SdkGlue.Json.Writer
import SdkGlue.Proofs.Except

/-!
# Reading back JSON strings

A string that was written is read as its characters, whichever of them were
escaped.  A character beyond the first 65536 is escaped as a surrogate pair, and no
character is half of one, so joining the pairs of the code units gives the
characters back.
-/

namespace SdkGlue

namespace Json

variable {opening : Nat} {units : List Nat} {rest left : List Char}

/-- The code units as which a written character is read. -/
def unitsOf (ascii : Bool) (c : Char) : List Nat :=
  if ascii ∧ 0x10000 ≤ c.toNat then
    [0xd800 + (c.toNat - 0x10000) / 0x400, 0xdc00 + (c.toNat - 0x10000) % 0x400]
  else [c.toNat]

/-! ## Escapes -/

theorem hexValue?_hexDigit {n : Nat} (h : n < 16) : Text.hexValue? (Text.hexDigit n) = some n := by
  have hall : ∀ k < 16, Text.hexValue? (Text.hexDigit k) = some k := by decide
  exact hall n h

theorem hex_four (n : Nat) :
    Text.hex 4 n = [Text.hexDigit (n / 4096 % 16), Text.hexDigit (n / 256 % 16),
      Text.hexDigit (n / 16 % 16), Text.hexDigit (n % 16)] := by
  simp [Text.hex, Nat.div_div_eq_div_mul]

theorem hex4?_hexDigits {n : Nat} (h : n < 0x10000) :
    hex4? (Text.hexDigit (n / 4096 % 16)) (Text.hexDigit (n / 256 % 16))
      (Text.hexDigit (n / 16 % 16)) (Text.hexDigit (n % 16)) = some n := by
  have hvalue : ((n / 4096 % 16 * 16 + n / 256 % 16) * 16 + n / 16 % 16) * 16 + n % 16 = n := by
    omega
  have hdigit : ∀ k, Text.hexValue? (Text.hexDigit (k % 16)) = some (k % 16) := fun k =>
    hexValue?_hexDigit (Nat.mod_lt k (by decide))
  rw [hex4?, hdigit, hdigit, hdigit, hdigit]
  exact congrArg some hvalue

/-- A unit is read from its escape when the string goes on behind it. -/
theorem readUnits_unitEscape {n : Nat} (h : n < 0x10000) (hne : rest ≠ [])
    (hrest : readUnits opening rest = .ok (units, left)) :
    readUnits opening (unitEscape n ++ rest) = .ok (n :: units, left) := by
  obtain ⟨e, rest, rfl⟩ := List.exists_cons_of_ne_nil hne
  rw [unitEscape, hex_four]
  simp only [List.cons_append, List.nil_append]
  rw [readUnits, hex4?_hexDigits h, hrest]
  rfl

theorem readUnits_simpleEscape {c : Char} {n : Nat} (h : simpleEscape? c = some n)
    (hrest : readUnits opening rest = .ok (units, left)) :
    readUnits opening ('\\' :: c :: rest) = .ok (n :: units, left) := by
  have hc : c ≠ 'u' := by
    rintro rfl
    cases h
  rw [readUnits, h, hrest]
  · rfl
  · intro h'
    exact hc h'

theorem readUnits_cons {c : Char} (hquote : c ≠ '"') (hslash : c ≠ '\\') (hlow : 0x20 ≤ c.toNat)
    (hrest : readUnits opening rest = .ok (units, left)) :
    readUnits opening (c :: rest) = .ok (c.toNat :: units, left) := by
  rw [readUnits, if_neg (Nat.not_lt.mpr hlow), hrest]
  · rfl
  all_goals simp_all

/-- A character is written as an escape of one letter, as one escaped unit, as the
two units of a surrogate pair, or as it is. -/
theorem writeChar_cases (ascii : Bool) (c : Char) :
    (∃ letter, simpleEscape? letter = some c.toNat ∧ c.toNat < 0x10000 ∧
        writeChar ascii c = ['\\', letter]) ∨
      (c.toNat < 0x10000 ∧ writeChar ascii c = unitEscape c.toNat) ∨
      (ascii = true ∧ 0x10000 ≤ c.toNat ∧
        writeChar ascii c = unitEscape (0xd800 + (c.toNat - 0x10000) / 0x400) ++
          unitEscape (0xdc00 + (c.toNat - 0x10000) % 0x400)) ∨
      (c ≠ '"' ∧ c ≠ '\\' ∧ 0x20 ≤ c.toNat ∧ (ascii = true → c.toNat < 0x10000) ∧
        writeChar ascii c = [c]) := by
  by_cases hletter : c ∈ ['"', '\\', '\n', '\r', '\t', '\x08', '\x0c']
  · simp only [List.mem_cons, List.not_mem_nil, or_false] at hletter
    refine .inl ?_
    rcases hletter with rfl | rfl | rfl | rfl | rfl | rfl | rfl
    · exact ⟨'"', rfl, by decide, rfl⟩
    · exact ⟨'\\', rfl, by decide, rfl⟩
    · exact ⟨'n', rfl, by decide, rfl⟩
    · exact ⟨'r', rfl, by decide, rfl⟩
    · exact ⟨'t', rfl, by decide, rfl⟩
    · exact ⟨'b', rfl, by decide, rfl⟩
    · exact ⟨'f', rfl, by decide, rfl⟩
  simp only [List.mem_cons, List.not_mem_nil, or_false, not_or] at hletter
  obtain ⟨hquote, hslash, hn, hr, ht, hb, hf⟩ := hletter
  simp only [writeChar, if_neg hquote, if_neg hslash, if_neg hn, if_neg hr, if_neg ht, if_neg hb,
    if_neg hf]
  by_cases hlow : c.toNat < 0x20
  · exact .inr (.inl ⟨by omega, if_pos hlow⟩)
  rw [if_neg hlow]
  by_cases hascii : (ascii && decide (0x7e < c.toNat)) = true
  · rw [if_pos hascii]
    by_cases hpair : c.toNat < 0x10000
    · exact .inr (.inl ⟨hpair, if_pos hpair⟩)
    · rw [Bool.and_eq_true] at hascii
      exact .inr (.inr (.inl ⟨hascii.1, Nat.not_lt.mp hpair, if_neg hpair⟩))
  · rw [if_neg hascii]
    refine .inr (.inr (.inr ⟨hquote, hslash, Nat.not_lt.mp hlow, fun h => ?_, rfl⟩))
    simp only [h, Bool.true_and, decide_eq_true_eq] at hascii
    omega

theorem readUnits_writeChar (ascii : Bool) (c : Char) (hne : rest ≠ [])
    (hrest : readUnits opening rest = .ok (units, left)) :
    readUnits opening (writeChar ascii c ++ rest) = .ok (unitsOf ascii c ++ units, left) := by
  have hone : c.toNat < 0x10000 → unitsOf ascii c = [c.toNat] := fun h =>
    if_neg fun h' => absurd h'.2 (Nat.not_le.mpr h)
  have hvalid : c.toNat < 0xd800 ∨ (0xdfff < c.toNat ∧ c.toNat < 0x110000) := c.valid
  rcases writeChar_cases ascii c with ⟨letter, hletter, hsmall, hc⟩ | ⟨hsmall, hc⟩ |
    ⟨hascii, hlarge, hc⟩ | ⟨hquote, hslash, hlow, hsmall, hc⟩
  · rw [hc, hone hsmall]
    exact readUnits_simpleEscape hletter hrest
  · rw [hc, hone hsmall]
    exact readUnits_unitEscape hsmall hne hrest
  · rw [hc, unitsOf, if_pos ⟨hascii, hlarge⟩, List.append_assoc]
    exact readUnits_unitEscape (by omega) (by simp [unitEscape])
      (readUnits_unitEscape (by omega) hne hrest)
  · have hunits : unitsOf ascii c = [c.toNat] :=
      if_neg fun h => absurd h.2 (Nat.not_le.mpr (hsmall h.1))
    rw [hc, hunits]
    exact readUnits_cons hquote hslash hlow hrest

theorem readUnits_chars (ascii : Bool) (opening : Nat) (cs rest : List Char) :
    readUnits opening (cs.flatMap (writeChar ascii) ++ '"' :: rest) =
      .ok (cs.flatMap (unitsOf ascii), rest) := by
  induction cs with
  | nil => rw [List.flatMap_nil, List.nil_append, readUnits]; rfl
  | cons c cs ih =>
      rw [List.flatMap_cons, List.flatMap_cons, List.append_assoc]
      exact readUnits_writeChar ascii c (by simp) ih

/-! ## Joining pairs -/

theorem joinSurrogates_cons {n : Nat} (h : isHighSurrogate n = false) (units : List Nat) :
    joinSurrogates (n :: units) = n :: joinSurrogates units := by
  cases units with
  | nil => rfl
  | cons m units => rw [joinSurrogates, h, Bool.false_and, if_neg (by decide)]

theorem joinSurrogates_unitsOf (ascii : Bool) (c : Char) (units : List Nat) :
    joinSurrogates (unitsOf ascii c ++ units) = c.toNat :: joinSurrogates units := by
  have hvalid : c.toNat < 0xd800 ∨ (0xdfff < c.toNat ∧ c.toNat < 0x110000) := c.valid
  unfold unitsOf
  split
  · next h =>
      have hhigh : isHighSurrogate (0xd800 + (c.toNat - 0x10000) / 0x400) = true := by
        simp only [isHighSurrogate, Bool.and_eq_true, decide_eq_true_eq]
        omega
      have hlow : isLowSurrogate (0xdc00 + (c.toNat - 0x10000) % 0x400) = true := by
        simp only [isLowSurrogate, Bool.and_eq_true, decide_eq_true_eq]
        omega
      have hjoin : joinPair (0xd800 + (c.toNat - 0x10000) / 0x400)
          (0xdc00 + (c.toNat - 0x10000) % 0x400) = c.toNat := by
        unfold joinPair
        omega
      simp only [List.cons_append, List.nil_append]
      rw [joinSurrogates, hhigh, hlow, Bool.true_and, if_pos rfl, hjoin]
  · have hhigh : isHighSurrogate c.toNat = false := by
      simp only [isHighSurrogate, Bool.and_eq_false_iff, decide_eq_false_iff_not]
      omega
    exact joinSurrogates_cons hhigh units

theorem joinSurrogates_chars (ascii : Bool) (cs : List Char) :
    joinSurrogates (cs.flatMap (unitsOf ascii)) = cs.map Char.toNat := by
  induction cs with
  | nil => rfl
  | cons c cs ih => rw [List.flatMap_cons, joinSurrogates_unitsOf, ih, List.map_cons]

theorem not_isSurrogate_toNat (c : Char) :
    (isHighSurrogate c.toNat || isLowSurrogate c.toNat) = false := by
  have hvalid : c.toNat < 0xd800 ∨ (0xdfff < c.toNat ∧ c.toNat < 0x110000) := c.valid
  simp only [isHighSurrogate, isLowSurrogate, Bool.or_eq_false_iff, Bool.and_eq_false_iff,
    decide_eq_false_iff_not]
  omega

theorem textOf?_toNat (s : String) : textOf? (s.toList.map Char.toNat) = some s := by
  have hnone : (s.toList.map Char.toNat).any
      (fun n => isHighSurrogate n || isLowSurrogate n) = false := by
    simp [not_isSurrogate_toNat]
  rw [textOf?, hnone, if_neg (by decide), List.map_map, List.map_congr_left (g := id), List.map_id,
    String.ofList_toList]
  intro c _
  exact Char.ofNat_toNat c

/-- A string that was written is read behind its opening mark. -/
theorem readString_chars (ascii : Bool) (s : String) (rest : List Char) :
    readString (s.toList.flatMap (writeChar ascii) ++ '"' :: rest) = .ok (s, rest) := by
  rw [readString, readUnits_chars, ok_bind]
  simp only [joinSurrogates_chars, textOf?_toNat]
  rfl

end Json

end SdkGlue
