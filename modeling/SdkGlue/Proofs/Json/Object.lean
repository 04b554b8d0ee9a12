import SdkGlue.Json.Reader
import SdkGlue.Proofs.Except
import SdkGlue.Proofs.Text.Blank

/-!
# JSON objects

The first character of a JSON value tells its kind: only a brace begins an
object.
-/

namespace SdkGlue.Json

variable {s rest : List Char} {fields : Value.Fields}

theorem word?_ne_table {found : Value × List Char} (h : word? s = some found) :
    found.1 ≠ .table fields := by
  obtain ⟨w, hw, rfl⟩ := Option.map_eq_some_iff.mp h
  have hwords : ∀ w ∈ words, w.2 ≠ .table fields := by
    intro w hw
    simp only [words, List.mem_cons, List.not_mem_nil, or_false] at hw
    rcases hw with rfl | rfl | rfl | rfl | rfl | rfl <;> exact nofun
  exact hwords w (List.mem_of_find?_eq_some hw)

theorem readUnsigned_ne_table {negative : Bool} {left : Nat} :
    readUnsigned negative left s ≠ .ok (.table fields, rest) := by
  unfold readUnsigned
  split
  · exact nofun
  · dsimp only
    split
    · split <;> exact nofun
    · exact nofun
    · exact nofun

theorem readNumber_ne_table : readNumber s ≠ .ok (.table fields, rest) := by
  unfold readNumber
  split <;> exact readUnsigned_ne_table

theorem head?_of_readValue_table {n : Nat} (h : readValue n s = .ok (.table fields, rest)) :
    s.head? = some '\x7b' := by
  cases n with
  | zero => cases h
  | succ n =>
      unfold readValue at h
      split at h
      · cases h
      · obtain ⟨⟨text, r⟩, -, h⟩ := bind_eq_ok_iff.mp h
        cases h
      · rfl
      · split at h
        · cases h
        · obtain ⟨⟨items, r⟩, -, h⟩ := bind_eq_ok_iff.mp h
          cases h
      · split at h
        · next found hword =>
            have hfound : found.1 ≠ .table fields := word?_ne_table hword
            exact absurd (congrArg Prod.fst (Except.ok.inj h)) hfound
        · exact absurd h readNumber_ne_table

theorem isBlank_of_isSpace {c : Char} (h : isSpace c = true) : Text.isBlank c = true := by
  simp only [isSpace, Bool.or_eq_true, decide_eq_true_eq] at h
  rcases h with ((rfl | rfl) | rfl) | rfl <;> decide

/-- The first character of an object is a brace, blanks apart. -/
theorem head?_of_decode_table (h : decode s = .ok (.table fields)) :
    (Text.trimStart s).head? = some '\x7b' := by
  have h := mapError_eq_ok_iff.mp h
  unfold readDocument at h
  split at h
  · cases h
  · obtain ⟨⟨v, r⟩, hv, h⟩ := bind_eq_ok_iff.mp h
    dsimp only at h
    split at h
    · cases h
      have hhead := head?_of_readValue_table hv
      have hskip : Text.trimStart (skip s) = Text.trimStart s :=
        Text.trimStart_dropWhile (fun _ => isBlank_of_isSpace) s
      rw [← hskip]
      obtain ⟨r', hr'⟩ := List.head?_eq_some_iff.mp hhead
      rw [hr', Text.trimStart_cons_of_not_blank (by decide)]
      rfl
    · cases h

end SdkGlue.Json
