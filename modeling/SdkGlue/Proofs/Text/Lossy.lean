import SdkGlue.Proofs.Text.Utf8

/-!
# The lenient reading at an ASCII byte

A byte below 0x80 is a character of its own and belongs to no other one.  What
stands before it is read as if the bytes ended there, and what follows as if
they began there.
-/

namespace SdkGlue.Text.Utf8

variable {b c : UInt8} {p q : Pending}

theorem low_of_start (h : start b = .inr q) : 0x80 ≤ q.low := by
  unfold start at h
  dsimp only at h
  split at h
  · cases h
  split at h
  · cases h
  split at h
  · cases h
    exact UInt8.le_refl _
  split at h
  · cases h
    dsimp only
    split <;> decide
  split at h
  · cases h
    dsimp only
    split <;> decide
  · cases h

theorem low_of_extend (h : p.extend b = .inr q) : 0x80 ≤ q.low := by
  unfold Pending.extend at h
  dsimp only at h
  split at h <;> cases h
  exact UInt8.le_refl _

theorem piecesFrom_of_start_inl {piece : Piece} (h : start b = .inl piece) (bs : List UInt8) :
    piecesFrom none (b :: bs) = piece :: piecesFrom none bs := by
  rw [piecesFrom, h]

/-- A byte that does not belong to the character under way begins anew. -/
theorem piecesFrom_of_refused (h : p.accepts b = false) (bs : List UInt8) :
    piecesFrom (some p) (b :: bs) =
      .flaw .badContinuation p.seen :: piecesFrom none (b :: bs) := by
  simp only [piecesFrom, h, Bool.false_eq_true, if_false]

theorem refuses_ascii (hp : 0x80 ≤ p.low) (hc : c < 0x80) : p.accepts c = false := by
  have hlt : c < p.low := UInt8.lt_of_lt_of_le hc hp
  simp [Pending.accepts, UInt8.not_le.mpr hlt]

/-- An ASCII byte is a character whatever stands before it, and what follows it
is read on its own. -/
theorem map_piecesFrom_append_cons (hc : c < 0x80) (q : Option Pending)
    (hq : ∀ p ∈ q, 0x80 ≤ p.low) (a bs : List UInt8) :
    (piecesFrom q (a ++ c :: bs)).map Piece.toChar =
      (piecesFrom q a).map Piece.toChar ++ Char.ofNat c.toNat ::
        (piecesFrom none bs).map Piece.toChar := by
  induction a generalizing q with
  | nil =>
      have hchar := piecesFrom_of_start_inl (start_one (UInt8.lt_iff_toNat_lt.mp hc)) bs
      cases q with
      | none =>
          rw [List.nil_append, hchar]
          rfl
      | some p =>
          rw [List.nil_append, piecesFrom_of_refused (refuses_ascii (hq p rfl) hc), hchar]
          rfl
  | cons x a ih =>
      have hfresh : (piecesFrom none (x :: a ++ c :: bs)).map Piece.toChar =
          (piecesFrom none (x :: a)).map Piece.toChar ++ Char.ofNat c.toNat ::
            (piecesFrom none bs).map Piece.toChar := by
        cases hx : start x with
        | inl piece =>
            rw [List.cons_append, piecesFrom_of_start_inl hx, piecesFrom_of_start_inl hx,
              List.map_cons, ih none (by simp)]
            rfl
        | inr p =>
            rw [List.cons_append, piecesFrom_of_start hx, piecesFrom_of_start hx]
            apply ih
            rintro _ ⟨⟩
            exact low_of_start hx
      cases q with
      | none => exact hfresh
      | some p =>
          cases hx : p.accepts x with
          | false =>
              rw [List.cons_append, piecesFrom_of_refused hx, piecesFrom_of_refused hx,
                List.map_cons, List.map_cons, ← List.cons_append, hfresh, List.cons_append]
          | true =>
              rw [List.cons_append, piecesFrom, piecesFrom, if_pos hx, if_pos hx]
              cases hnext : p.extend x with
              | inl piece =>
                  dsimp only
                  rw [List.map_cons, ih none (by simp), List.map_cons, List.cons_append]
              | inr r =>
                  dsimp only
                  apply ih
                  rintro _ ⟨⟩
                  exact low_of_extend hnext

theorem decodeLossy_append_cons (hc : c < 0x80) (a bs : List UInt8) :
    decodeLossy (a ++ c :: bs) = decodeLossy a ++ Char.ofNat c.toNat :: decodeLossy bs :=
  map_piecesFrom_append_cons hc none (by simp) a bs

end SdkGlue.Text.Utf8
