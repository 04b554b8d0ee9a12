import Mathlib.Data.List.TakeDrop
import SdkGlue.Json.Reader

/-!
# Reading back integers

The digits of an integer are read as that integer when no digit, fraction or
exponent follows them.  In a document an integer is followed by the end of an item
or entry.
-/

namespace SdkGlue.Json

/-- What may follow a value: nothing, or the end of an item or entry. -/
def Follows (rest : List Char) : Prop := ∀ c ∈ rest.head?, c ∈ [',', ']', '\x7d']

variable {m : Nat} {s rest : List Char}

theorem follows_cons {c : Char} (h : c ∈ [',', ']', '\x7d']) (s : List Char) : Follows (c :: s) := by
  rintro d hd
  cases hd
  exact h

theorem skip_cons {c : Char} (h : isSpace c = false) (s : List Char) : skip (c :: s) = c :: s := by
  simp [skip, h]

theorem skip_space (s : List Char) : skip (' ' :: s) = skip s := rfl

theorem Follows.skip (h : Follows s) : skip s = s := by
  cases s with
  | nil => rfl
  | cons c s =>
      have hc := h c rfl
      simp only [List.mem_cons, List.not_mem_nil, or_false] at hc
      apply skip_cons
      rcases hc with rfl | rfl | rfl <;> rfl

/-! ## Integers -/

theorem natOfDigits_toDigits (m : Nat) : Text.natOfDigits (Nat.toDigits 10 m) = m := by
  have h := Nat.ofDigitChars_toDigits (b := 10) (n := m) (by decide) (by decide)
  simp only [Nat.ofDigitChars, Nat.mul_comm 10] at h
  exact h

theorem isDigit_toDigits (m : Nat) : ∀ c ∈ Nat.toDigits 10 m, c.isDigit = true :=
  fun _ hc => Nat.isDigit_of_mem_toDigits (by decide) (by decide) hc

theorem exists_toDigits (m : Nat) : ∃ c cs, Nat.toDigits 10 m = c :: cs ∧ c.isDigit = true := by
  obtain ⟨c, cs, hcs⟩ := List.exists_cons_of_ne_nil (Nat.toDigits_ne_nil (n := m) (b := 10))
  exact ⟨c, cs, hcs, isDigit_toDigits m c (hcs ▸ List.mem_cons_self)⟩

/-- A number other than zero is written without a zero in front. -/
theorem head?_toDigits_ne (hm : m ≠ 0) : (Nat.toDigits 10 m).head? ≠ some '0' := by
  induction m using Nat.strongRecOn with
  | ind m ih =>
      by_cases hlt : m < 10
      · rw [Nat.toDigits_of_lt_base hlt]
        have hall : ∀ k < 10, k ≠ 0 → [Nat.digitChar k].head? ≠ some '0' := by decide
        exact hall m hlt hm
      · have hge := Nat.not_lt.mp hlt
        obtain ⟨c, cs, hcs, -⟩ := exists_toDigits (m / 10)
        have hrest := ih (m / 10) (Nat.div_lt_self (by omega) (by decide)) (by omega)
        rw [Nat.toDigits_of_base_le (by decide) hge, hcs]
        rwa [hcs] at hrest

theorem spanDigits_append (hs : ∀ c ∈ s, c.isDigit = true)
    (hrest : ∀ c ∈ rest.head?, c.isDigit = false) : spanDigits (s ++ rest) = (s, rest) := by
  have htake : rest.takeWhile Char.isDigit = [] := by
    cases rest with
    | nil => rfl
    | cons c rest => simp [hrest c rfl]
  have hdrop : rest.dropWhile Char.isDigit = rest := by
    cases rest with
    | nil => rfl
    | cons c rest => simp [hrest c rfl]
  rw [spanDigits, List.span_eq_takeWhile_dropWhile, List.takeWhile_append_of_pos hs, htake,
    List.dropWhile_append_of_pos hs, hdrop, List.append_nil]

theorem integerPart?_toDigits (m : Nat) (hrest : ∀ c ∈ rest.head?, c.isDigit = false) :
    integerPart? (Nat.toDigits 10 m ++ rest) = some (Nat.toDigits 10 m, rest) := by
  by_cases hm : m = 0
  · subst hm
    rfl
  obtain ⟨c, cs, hcs, -⟩ := exists_toDigits m
  have hzero : c ≠ '0' := by
    rintro rfl
    exact head?_toDigits_ne hm (by rw [hcs]; rfl)
  have hspan := spanDigits_append (isDigit_toDigits m) hrest
  rw [hcs] at hspan ⊢
  rw [List.cons_append] at hspan ⊢
  rw [integerPart?, hspan]
  intro s hs
  exact hzero (List.cons.inj hs).1

theorem Follows.not_digit (h : Follows rest) : ∀ c ∈ rest.head?, c.isDigit = false := by
  intro c hc
  have hmem := h c hc
  simp only [List.mem_cons, List.not_mem_nil, or_false] at hmem
  rcases hmem with rfl | rfl | rfl <;> rfl

/-- Neither a fraction nor an exponent follows an integer. -/
theorem Follows.integer_ends (h : Follows rest) : fraction rest = ([], rest) ∧ exponent? rest = none := by
  cases rest with
  | nil => exact ⟨rfl, rfl⟩
  | cons c rest =>
      have hc := h c rfl
      simp only [List.mem_cons, List.not_mem_nil, or_false] at hc
      rcases hc with rfl | rfl | rfl <;> exact ⟨rfl, rfl⟩

theorem readUnsigned_toDigits (negative : Bool) (left : Nat)
    (hm : (Nat.toDigits 10 m).length ≤ maxDigits) (hrest : Follows rest) :
    readUnsigned negative left (Nat.toDigits 10 m ++ rest) =
      .ok (.int (if negative then -m else m), rest) := by
  obtain ⟨hfraction, hexponent⟩ := hrest.integer_ends
  rw [readUnsigned, integerPart?_toDigits m hrest.not_digit]
  simp only [hfraction, hexponent, if_neg (Nat.not_lt.mpr hm), natOfDigits_toDigits]

/-- The sign and the digits of an integer. -/
theorem toList_toString (n : Int) :
    (toString n).toList = (if n < 0 then ['-'] else []) ++ Nat.toDigits 10 n.natAbs := by
  cases n with
  | ofNat m => exact Nat.toList_repr
  | negSucc m =>
      change ("-" ++ Nat.repr (m + 1)).toList = _
      rw [String.toList_append, Nat.toList_repr, if_pos (Int.negSucc_lt_zero m)]
      rfl

theorem readNumber_int {n : Int} (hn : (Nat.toDigits 10 n.natAbs).length ≤ maxDigits)
    (hrest : Follows rest) :
    readNumber ((toString n).toList ++ rest) = .ok (.int n, rest) := by
  rw [toList_toString]
  by_cases hneg : n < 0
  · rw [if_pos hneg, List.append_assoc, List.singleton_append, readNumber,
      readUnsigned_toDigits true _ hn hrest, if_pos rfl]
    congr 3
    omega
  · rw [if_neg hneg, List.nil_append]
    have hvalue : ((n.natAbs : Nat) : Int) = n := by omega
    obtain ⟨c, cs, hcs, hdigit⟩ := exists_toDigits n.natAbs
    have hread := readUnsigned_toDigits false (Nat.toDigits 10 n.natAbs ++ rest).length hn hrest
    rw [hvalue, if_neg (by decide)] at hread
    rw [← hread, hcs, List.cons_append, readNumber]
    rintro s hs
    cases hs
    cases hdigit

end SdkGlue.Json
