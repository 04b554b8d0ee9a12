import Mathlib.Data.List.TakeWhile
import SdkGlue.Markup
import SdkGlue.Proofs.Except

/-!
# Texts with one tag or none

A text without brackets loses nothing but control characters.  So does a text with
one tag that opens a style, apart from the tag; one tag that closes a style is at
fault, since no style is open.
-/

namespace SdkGlue

namespace Markup

variable {s front back body : List Char}

/-! ## Finding tags -/

/-- A bracket is found behind backslashes only. -/
theorem tag?_eq_none (h : (s.dropWhile (· = '\\')).head? ≠ some '[') : tag? s = none := by
  have hdrop : s.drop (s.takeWhile (· = '\\')).length = s.dropWhile (· = '\\') := by
    conv_lhs => arg 2; rw [← List.takeWhile_append_dropWhile (p := (· = '\\')) (l := s)]
    exact List.drop_left
  unfold tag?
  dsimp only
  rw [hdrop]
  split
  · next t ht =>
      rw [ht] at h
      exact absurd rfl h
  · rfl

theorem pieces_cons_of_plain {c : Char} (offset : Nat) (run : List Char)
    (htag : tag? (c :: s) = none) (hescape : ¬ (c = '\\' ∧ s.head? = some '[')) :
    pieces 0 offset run (c :: s) = pieces 0 (offset + 1) (run ++ [c]) s := by
  rw [pieces]
  simp only [htag, if_neg hescape]

/-- A text without brackets is one run of plain text. -/
theorem pieces_of_not_mem (h : '[' ∉ s) (offset : Nat) (run : List Char) :
    pieces 0 offset run s = [.plain (run ++ s)] := by
  induction s generalizing offset run with
  | nil => rw [pieces, List.append_nil]
  | cons c s ih =>
      have htag : tag? (c :: s) = none := by
        apply tag?_eq_none
        intro hhead
        exact h ((List.dropWhile_sublist _).subset (List.mem_of_mem_head? hhead))
      simp only [List.mem_cons, not_or] at h
      have hescape : ¬ (c = '\\' ∧ s.head? = some '[') := fun hs => h.2 (List.mem_of_mem_head? hs.2)
      rw [pieces_cons_of_plain offset run htag hescape, ih h.2, List.append_assoc]
      rfl

theorem pieces_skip (s t run : List Char) (offset : Nat) :
    pieces s.length offset run (s ++ t) = pieces 0 (offset + s.length) run t := by
  induction s generalizing offset with
  | nil => rfl
  | cons c s ih =>
      rw [List.length_cons, List.cons_append, pieces, ih, Nat.add_right_comm, Nat.add_assoc]

/-- The inside of a tag. -/
structure IsTagBody (body : List Char) : Prop where
  starts : body.head?.any startsTag
  no_open : '[' ∉ body
  no_close : ']' ∉ body

theorem tagBody?_of_isTagBody (h : IsTagBody body) (back : List Char) :
    tagBody? (body ++ ']' :: back) = some body := by
  obtain ⟨hstarts, hopen, hclose⟩ := h
  cases body with
  | nil => cases hstarts
  | cons c rest =>
      simp only [List.mem_cons, not_or] at hopen hclose
      have hinside : ∀ d ∈ rest, (d != ']' && d != '[') = true := by
        intro d hd
        simp only [Bool.and_eq_true, bne_iff_ne]
        exact ⟨fun heq => hclose.2 (heq ▸ hd), fun heq => hopen.2 (heq ▸ hd)⟩
      have htake : (rest ++ ']' :: back).takeWhile (fun d => d != ']' && d != '[') = rest := by
        rw [List.takeWhile_append_of_pos hinside, List.takeWhile_cons_of_neg (by simp),
          List.append_nil]
      rw [List.cons_append, tagBody?]
      simp only [htake, List.drop_left, List.head?_cons]
      rw [if_pos (by simpa using hstarts)]

/-- A text with one tag is a run of plain text, the tag, and another run. -/
theorem pieces_of_tag (hfront : '[' ∉ front) (hlast : front.getLast? ≠ some '\\')
    (hbody : IsTagBody body) (hback : '[' ∉ back) (offset : Nat) (run : List Char) :
    pieces 0 offset run (front ++ '[' :: body ++ ']' :: back) =
      [.plain (run ++ front), .plain [], .tag (offset + front.length) body, .plain back] := by
  induction front generalizing offset run with
  | nil =>
      have htag : tag? ('[' :: (body ++ ']' :: back)) = some (0, body) := by
        change (tagBody? (body ++ ']' :: back)).map _ = _
        rw [tagBody?_of_isTagBody hbody]
        rfl
      have hskip := pieces_skip (body ++ [']']) back [] (offset + 1)
      rw [List.append_assoc, List.singleton_append, List.length_append, List.length_singleton,
        pieces_of_not_mem hback] at hskip
      rw [List.nil_append, List.cons_append, pieces]
      simp only [htag]
      rw [Nat.zero_add, hskip, List.append_nil]
      rfl
  | cons c front ih =>
      have hword : ∀ d ∈ c :: front, d ≠ '[' := fun d hd heq => hfront (heq ▸ hd)
      have hrest : front.getLast? ≠ some '\\' := by
        intro heq
        rw [List.getLast?_cons, heq] at hlast
        exact hlast rfl
      -- the backslashes in front end before the bracket
      obtain ⟨d, rest, hdrop⟩ : ∃ d rest, (c :: front).dropWhile (· = '\\') = d :: rest := by
        apply List.exists_cons_of_ne_nil
        intro hnil
        have hall := List.dropWhile_eq_nil_iff.mp hnil
        apply hlast
        rw [List.getLast?_eq_some_getLast (List.cons_ne_nil c front), Option.some_inj]
        simpa using hall _ (List.getLast_mem (List.cons_ne_nil c front))
      have htag : tag? (c :: (front ++ '[' :: body ++ ']' :: back)) = none := by
        apply tag?_eq_none
        have hd : d ∈ c :: front :=
          (List.dropWhile_sublist _).subset (hdrop ▸ List.mem_cons_self)
        rw [List.append_assoc, ← List.cons_append, List.dropWhile_append, hdrop]
        simpa using hword d hd
      have hescape : ¬ (c = '\\' ∧ (front ++ '[' :: body ++ ']' :: back).head? = some '[') := by
        rintro ⟨rfl, hhead⟩
        cases front with
        | nil => exact hlast rfl
        | cons d front =>
            exact hword d (List.mem_cons_of_mem _ List.mem_cons_self) (by simpa using hhead)
      simp only [List.mem_cons, not_or] at hfront
      rw [List.cons_append, List.cons_append, pieces_cons_of_plain offset run htag hescape,
        ih hfront.2 hrest, List.length_cons, List.append_assoc, Nat.add_assoc, Nat.add_comm 1]
      rfl

/-! ## What is left of texts -/

variable (d : Dialect)

theorem resolve_plain (opened : List Open) (s : List Char) (ps : List Piece) :
    d.resolve opened (.plain s :: ps) = (d.resolve opened ps).map (d.pictures s ++ ·) := by
  rw [Dialect.resolve]
  cases d.resolve opened ps <;> rfl

theorem plain_eq (s : String) : plain d s =
    (d.resolve [] (pieces 0 0 [] s.toList)).map (·.filter (!isDropped ·)) := by
  rw [plain]
  cases d.resolve [] (pieces 0 0 [] s.toList) <;> rfl

theorem plain_of_not_mem {s : String} (h : '[' ∉ s.toList) :
    plain d s = .ok ((d.pictures s.toList).filter (!isDropped ·)) := by
  rw [plain_eq, pieces_of_not_mem h, List.nil_append, resolve_plain, Dialect.resolve]
  simp [Except.map]

/-- A tag that opens a style is left out. -/
theorem plain_of_opening {s : String} {o : Open} (hfront : '[' ∉ front)
    (hlast : front.getLast? ≠ some '\\') (hbody : IsTagBody body) (hopens : body.head? ≠ some '/')
    (hopen : d.openTag body = .ok o) (hback : '[' ∉ back)
    (hs : s.toList = front ++ '[' :: body ++ ']' :: back) :
    plain d s = .ok ((d.pictures front ++ (d.pictures [] ++ d.pictures back)).filter
      (!isDropped ·)) := by
  have hname : ∀ name, body.takeWhile (· != '=') ≠ '/' :: name := by
    intro name hname
    have hprefix := List.takeWhile_prefix (l := body) (· != '=')
    rw [hname] at hprefix
    obtain ⟨rest, hrest⟩ := hprefix
    exact hopens (by rw [← hrest]; rfl)
  have htag : d.resolve [] [.tag (0 + front.length) body, .plain back] =
      .ok (d.pictures back) := by
    unfold Dialect.resolve
    split
    · next name heq => exact absurd heq (hname name)
    · rw [hopen, ok_bind, resolve_plain, Dialect.resolve]
      simp [Except.map]
  rw [plain_eq, hs, pieces_of_tag hfront hlast hbody hback, resolve_plain, resolve_plain, htag]
  rfl

/-- A tag that closes a style is at fault, as long as it is the first one. -/
theorem error_of_closing {s : String} {name : List Char} (hfront : '[' ∉ front)
    (hlast : front.getLast? ≠ some '\\') (hopen : '[' ∉ name) (hclose : ']' ∉ name)
    (hback : '[' ∉ back) (hs : s.toList = front ++ '[' :: '/' :: name ++ ']' :: back) :
    ∃ e, plain d s = .error e := by
  have hbody : IsTagBody ('/' :: name) := ⟨rfl, by simp [hopen], by simp [hclose]⟩
  have hclosed : ∀ offset, ∃ e, d.closedBy [] offset ('/' :: name)
      (name.takeWhile (· != '=')) = .error e := by
    intro offset
    unfold Dialect.closedBy
    split
    · exact ⟨_, rfl⟩
    · cases d.readStyle (Text.trim (name.takeWhile (· != '='))) [] <;> exact ⟨_, rfl⟩
  obtain ⟨e, hclosed⟩ := hclosed (0 + front.length)
  have htag : d.resolve [] [.tag (0 + front.length) ('/' :: name), .plain back] = .error e := by
    rw [Dialect.resolve, List.takeWhile_cons_of_pos (by decide)]
    simp only [hclosed, error_bind]
  exact ⟨e, by rw [plain_eq, hs, pieces_of_tag hfront hlast hbody hback, resolve_plain,
    resolve_plain, htag]; rfl⟩

end Markup

end SdkGlue
