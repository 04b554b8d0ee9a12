import SdkGlue.Text.Utf8

/-!
# Reading back UTF-8

The bytes of a text are read back as that text.  Each character is read from its
own bytes, whatever follows them.  The bytes are those that the standard library
writes.
-/

namespace SdkGlue.Text.Utf8

theorem toNat_ofNat_of_lt {n : Nat} (h : n < 256) : (UInt8.ofNat n).toNat = n := by
  simp [Nat.mod_eq_of_lt h]

/-- The byte that carries the last six bits of a number. -/
def tailByte (n : Nat) : UInt8 := UInt8.ofNat (0x80 + n % 64)

theorem toNat_tailByte (n : Nat) : (tailByte n).toNat = 0x80 + n % 64 :=
  toNat_ofNat_of_lt (by omega)

theorem piecesFrom_some_cons {p : Pending} {b : UInt8} (hlow : p.low.toNat ≤ b.toNat)
    (hhigh : b.toNat ≤ p.high.toNat) (bs : List UInt8) :
    piecesFrom (some p) (b :: bs) =
      match p.extend b with
      | .inl piece => piece :: piecesFrom none bs
      | .inr q => piecesFrom (some q) bs := by
  have haccepts : p.accepts b = true := by
    simp [Pending.accepts, UInt8.le_iff_toNat_le, hlow, hhigh]
  cases hnext : p.extend b <;> rw [piecesFrom, if_pos haccepts, hnext]

theorem piecesFrom_tail_last {p : Pending} {n : Nat} (hdue : p.due = 1)
    (hlow : p.low.toNat ≤ 0x80 + n % 64) (hhigh : 0x80 + n % 64 ≤ p.high.toNat)
    (bs : List UInt8) :
    piecesFrom (some p) (tailByte n :: bs) =
      .char (Char.ofNat (p.code * 64 + n % 64)) :: piecesFrom none bs := by
  rw [piecesFrom_some_cons (by rwa [toNat_tailByte]) (by rwa [toNat_tailByte])]
  simp [Pending.extend, hdue, toNat_tailByte]

theorem piecesFrom_tail_next {p : Pending} {n : Nat} (hdue : 1 < p.due)
    (hlow : p.low.toNat ≤ 0x80 + n % 64) (hhigh : 0x80 + n % 64 ≤ p.high.toNat)
    (bs : List UInt8) :
    piecesFrom (some p) (tailByte n :: bs) =
      piecesFrom
        (some ⟨p.seen ++ [tailByte n], p.code * 64 + n % 64, p.due - 1, 0x80, 0xbf⟩) bs := by
  rw [piecesFrom_some_cons (by rwa [toNat_tailByte]) (by rwa [toNat_tailByte])]
  simp [Pending.extend, Nat.not_le.mpr hdue, toNat_tailByte]

/-! ## One character -/

theorem start_one {b : UInt8} (h : b.toNat < 0x80) :
    start b = .inl (.char (Char.ofNat b.toNat)) := by
  unfold start
  rw [if_pos (UInt8.lt_iff_toNat_lt.mpr h)]

theorem start_two {b : UInt8} (hlow : 0xc2 ≤ b.toNat) (hhigh : b.toNat < 0xe0) :
    start b = .inr ⟨[b], b.toNat - 0xc0, 1, 0x80, 0xbf⟩ := by
  have hcode : (b - 0xc0).toNat = b.toNat - 0xc0 :=
    UInt8.toNat_sub_of_le _ _ (UInt8.le_iff_toNat_le.mpr (Nat.le_trans (by decide) hlow))
  unfold start
  simp only [UInt8.lt_iff_toNat_lt, hcode]
  rw [if_neg, if_neg, if_pos]
  all_goals simp; omega

theorem start_three {b : UInt8} (hlow : 0xe0 ≤ b.toNat) (hhigh : b.toNat < 0xf0) :
    start b = .inr ⟨[b], b.toNat - 0xe0, 2, if b.toNat = 0xe0 then 0xa0 else 0x80,
      if b.toNat = 0xed then 0x9f else 0xbf⟩ := by
  have hcode : (b - 0xe0).toNat = b.toNat - 0xe0 :=
    UInt8.toNat_sub_of_le _ _ (UInt8.le_iff_toNat_le.mpr hlow)
  unfold start
  simp only [UInt8.lt_iff_toNat_lt, hcode, ← UInt8.toNat_inj]
  rw [if_neg, if_neg, if_neg, if_pos]
  · rfl
  all_goals simp; omega

theorem start_four {b : UInt8} (hlow : 0xf0 ≤ b.toNat) (hhigh : b.toNat < 0xf5) :
    start b = .inr ⟨[b], b.toNat - 0xf0, 3, if b.toNat = 0xf0 then 0x90 else 0x80,
      if b.toNat = 0xf4 then 0x8f else 0xbf⟩ := by
  have hcode : (b - 0xf0).toNat = b.toNat - 0xf0 :=
    UInt8.toNat_sub_of_le _ _ (UInt8.le_iff_toNat_le.mpr hlow)
  unfold start
  simp only [UInt8.lt_iff_toNat_lt, hcode, ← UInt8.toNat_inj]
  rw [if_neg, if_neg, if_neg, if_neg, if_pos]
  · rfl
  all_goals simp; omega

theorem piecesFrom_of_start {b : UInt8} {q : Pending} (h : start b = .inr q) (bs : List UInt8) :
    piecesFrom none (b :: bs) = piecesFrom (some q) bs := by
  rw [piecesFrom, h]

theorem piecesFrom_two {n : Nat} (hlow : 0x80 ≤ n) (hhigh : n < 0x800) (bs : List UInt8) :
    piecesFrom none (UInt8.ofNat (0xc0 + n / 64) :: tailByte n :: bs) =
      .char (Char.ofNat n) :: piecesFrom none bs := by
  have hb : (UInt8.ofNat (0xc0 + n / 64)).toNat = 0xc0 + n / 64 := toNat_ofNat_of_lt (by omega)
  have hcode : (0xc0 + n / 64 - 0xc0) * 64 + n % 64 = n := by omega
  rw [piecesFrom_of_start (start_two (by omega) (by omega)),
    piecesFrom_tail_last rfl (Nat.le_add_right _ _) (by dsimp only; simp; omega), hb, hcode]

/-- The range of the second byte keeps out shorter encodings and surrogates. -/
theorem piecesFrom_three {n : Nat} (hlow : 0x800 ≤ n) (hhigh : n < 0x10000)
    (hscalar : n < 0xd800 ∨ 0xdfff < n) (bs : List UInt8) :
    piecesFrom none (UInt8.ofNat (0xe0 + n / 4096) :: tailByte (n / 64) :: tailByte n :: bs) =
      .char (Char.ofNat n) :: piecesFrom none bs := by
  have hb : (UInt8.ofNat (0xe0 + n / 4096)).toNat = 0xe0 + n / 4096 :=
    toNat_ofNat_of_lt (by omega)
  have hcode : ((0xe0 + n / 4096 - 0xe0) * 64 + n / 64 % 64) * 64 + n % 64 = n := by omega
  have hfirst : (if 0xe0 + n / 4096 = 0xe0 then (0xa0 : UInt8) else 0x80).toNat ≤
      0x80 + n / 64 % 64 := by
    split
    · simp
      omega
    · simp
  have hlast : 0x80 + n / 64 % 64 ≤
      (if 0xe0 + n / 4096 = 0xed then (0x9f : UInt8) else 0xbf).toNat := by
    split
    · simp
      omega
    · simp
      omega
  rw [piecesFrom_of_start (start_three (by omega) (by omega)),
    piecesFrom_tail_next (by simp) (by dsimp only; rwa [hb]) (by dsimp only; rwa [hb]),
    piecesFrom_tail_last rfl (Nat.le_add_right _ _) (by dsimp only; simp; omega), hb, hcode]

/-- The range of the second byte keeps out shorter encodings and what lies beyond
the last code point. -/
theorem piecesFrom_four {n : Nat} (hlow : 0x10000 ≤ n) (hhigh : n < 0x110000)
    (bs : List UInt8) :
    piecesFrom none (UInt8.ofNat (0xf0 + n / 262144) :: tailByte (n / 4096) ::
        tailByte (n / 64) :: tailByte n :: bs) =
      .char (Char.ofNat n) :: piecesFrom none bs := by
  have hb : (UInt8.ofNat (0xf0 + n / 262144)).toNat = 0xf0 + n / 262144 :=
    toNat_ofNat_of_lt (by omega)
  have hcode : (((0xf0 + n / 262144 - 0xf0) * 64 + n / 4096 % 64) * 64 + n / 64 % 64) * 64 +
      n % 64 = n := by omega
  have hfirst : (if 0xf0 + n / 262144 = 0xf0 then (0x90 : UInt8) else 0x80).toNat ≤
      0x80 + n / 4096 % 64 := by
    split
    · simp
      omega
    · simp
  have hlast : 0x80 + n / 4096 % 64 ≤
      (if 0xf0 + n / 262144 = 0xf4 then (0x8f : UInt8) else 0xbf).toNat := by
    split
    · simp
      omega
    · simp
      omega
  rw [piecesFrom_of_start (start_four (by omega) (by omega)),
    piecesFrom_tail_next (by simp) (by dsimp only; rwa [hb]) (by dsimp only; rwa [hb]),
    piecesFrom_tail_next (by simp) (Nat.le_add_right _ _) (by dsimp only; simp; omega),
    piecesFrom_tail_last rfl (Nat.le_add_right _ _) (by dsimp only; simp; omega), hb, hcode]

/-- A character is read from its bytes, whatever follows them. -/
theorem piecesFrom_encodeChar (c : Char) (bs : List UInt8) :
    piecesFrom none (encodeChar c ++ bs) = .char c :: piecesFrom none bs := by
  have hvalid : c.toNat < 0xd800 ∨ (0xdfff < c.toNat ∧ c.toNat < 0x110000) := c.valid
  have hchar : Char.ofNat c.toNat = c := Char.ofNat_toNat c
  unfold encodeChar
  dsimp only
  split
  · have hb : (UInt8.ofNat c.toNat).toNat = c.toNat := toNat_ofNat_of_lt (by omega)
    rw [List.singleton_append, piecesFrom, start_one (by rwa [hb]), hb, hchar]
  split
  · have h := piecesFrom_two (n := c.toNat) (by omega) (by omega) bs
    rwa [hchar] at h
  split
  · have h := piecesFrom_three (n := c.toNat) (by omega) (by omega) (by omega) bs
    rwa [hchar] at h
  · have h := piecesFrom_four (n := c.toNat) (by omega) (by omega) bs
    rwa [hchar] at h

theorem pieces_encode (s : List Char) : pieces (encode s) = s.map .char := by
  induction s with
  | nil => rfl
  | cons c s ih =>
      rw [encode, List.flatMap_cons, pieces, piecesFrom_encodeChar]
      exact congrArg (Piece.char c :: ·) ih

theorem collect_map_char (offset : Nat) (s : List Char) :
    collect offset (s.map .char) = .ok s := by
  induction s generalizing offset with
  | nil => rfl
  | cons c s ih =>
      rw [List.map_cons, collect, ih]
      rfl

theorem decode_encode (s : List Char) : decode (encode s) = .ok s := by
  rw [decode, pieces_encode, collect_map_char]

/-! ## The standard encoding -/

theorem encodeChar_eq (c : Char) : encodeChar c = String.utf8EncodeChar c := by
  have hvalid : c.toNat < 0x110000 := by
    rcases c.valid with h | h <;> simp only [Char.toNat] <;> omega
  have htail : ∀ n : Nat, 0x80 + n % 64 = n % 0x40 + 0x80 := by omega
  unfold encodeChar String.utf8EncodeChar
  simp only [show c.val.toNat = c.toNat from rfl, htail]
  by_cases h₁ : c.toNat ≤ 0x7f
  · rw [if_pos (Nat.lt_succ_of_le h₁), if_pos h₁]
  rw [if_neg (by omega), if_neg h₁]
  by_cases h₂ : c.toNat ≤ 0x7ff
  · have hhead : 0xc0 + c.toNat / 64 = c.toNat / 64 % 0x20 + 0xc0 := by omega
    rw [if_pos (Nat.lt_succ_of_le h₂), if_pos h₂, hhead]
  rw [if_neg (by omega), if_neg h₂]
  by_cases h₃ : c.toNat ≤ 0xffff
  · have hhead : 0xe0 + c.toNat / 4096 = c.toNat / 4096 % 0x10 + 0xe0 := by omega
    rw [if_pos (Nat.lt_succ_of_le h₃), if_pos h₃, hhead]
  · have hhead : 0xf0 + c.toNat / 262144 = c.toNat / 262144 % 0x08 + 0xf0 := by omega
    rw [if_neg (by omega), if_neg h₃, hhead]

/-- The bytes of a text are those of the standard encoding. -/
theorem encode_toList (s : String) : encode s.toList = s.toUTF8.data.toList := by
  have hencode : encodeChar = String.utf8EncodeChar := funext encodeChar_eq
  rw [String.toUTF8_eq_toByteArray, ← String.utf8Encode_toList, List.utf8Encode, encode, hencode,
    List.data_toByteArray]

end SdkGlue.Text.Utf8
