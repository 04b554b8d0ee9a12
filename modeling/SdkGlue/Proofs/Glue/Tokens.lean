import SdkGlue.Glue
import SdkGlue.Proofs.Catalog.Libraries
import SdkGlue.Proofs.Text.Split
import SdkGlue.Proofs.Text.Upto

/-!
# Reading the glue text

The libraries of a glue text are its words between the name of the target and
the closing parenthesis.  Reading a glue text gives the libraries it was made
of, in their order.
-/

namespace SdkGlue.Glue

/-- The text behind the first place where a mark stands. -/
def afterMark (mark : List Char) : List Char → List Char
  | [] => []
  | c :: s => if mark.isPrefixOf (c :: s) then (c :: s).drop mark.length else afterMark mark s

/-- The text between the name of the target and the closing parenthesis. -/
def linkedText (content : String) : List Char :=
  (afterMark "$\x7bname\x7d ".toList content.toList).takeWhile (· != ')')

/-- The words that stand where the libraries are linked. -/
def tokens (content : String) : List String :=
  ((Text.splitOn ' ' (linkedText content)).filter (· != [])).map String.ofList

/-- A text that a glue text shows as one word. -/
def IsToken (library : String) : Prop :=
  library ≠ "" ∧ ' ' ∉ library.toList ∧ ')' ∉ library.toList

instance (library : String) : Decidable (IsToken library) :=
  inferInstanceAs (Decidable (_ ∧ _ ∧ _))

theorem afterMark_append {c : Char} (mark front rest : List Char) (h : c ∉ front) :
    afterMark (c :: mark) (front ++ c :: mark ++ rest) = rest := by
  induction front with
  | nil => simp [afterMark]
  | cons d front ih =>
      simp only [List.mem_cons, not_or] at h
      have hd : (c == d) = false := by simpa using h.1
      simp only [List.cons_append, afterMark, List.isPrefixOf, hd]
      simpa using ih h.2

theorem linkedText_ofLibraries {libraries : List String} (h : ∀ l ∈ libraries, IsToken l) :
    linkedText (ofLibraries libraries) = libraries.flatMap fun l => l.toList ++ [' '] := by
  have ⟨hopen, hfree⟩ : opening.toList =
        opening.toList.dropLast.takeWhile (· != '$') ++ "$\x7bname\x7d ".toList ∧
      '$' ∉ opening.toList.dropLast.takeWhile (· != '$') := by
    decide +kernel
  have hjoin : (String.join (libraries.map (· ++ " "))).toList =
      libraries.flatMap fun l => l.toList ++ [' '] := by
    clear h
    induction libraries with
    | nil => rfl
    | cons l libraries ih => simp [ih]
  have hpar : ')' ∉ libraries.flatMap (fun l => l.toList ++ [' ']) := by
    simp only [List.mem_flatMap, List.mem_append, List.mem_singleton]
    rintro ⟨l, hl, hc | hc⟩
    · exact (h l hl).2.2 hc
    · cases hc
  have hclose : closing.toList = ')' :: closing.toList.tail := by decide
  have hafter := afterMark_append "\x7bname\x7d ".toList _
    (libraries.flatMap (fun l => l.toList ++ [' ']) ++ closing.toList) hfree
  have hmark : "$\x7bname\x7d ".toList = '$' :: "\x7bname\x7d ".toList := by decide
  rw [linkedText, ofLibraries, String.toList_append, String.toList_append, hjoin, hopen, hmark,
    List.append_assoc, hafter, hclose, Text.takeWhile_ne_append_cons hpar]

theorem splitOn_flatMap {words : List (List Char)} (h : ∀ w ∈ words, ' ' ∉ w) :
    Text.splitOn ' ' (words.flatMap fun w => w ++ [' ']) = words ++ [[]] := by
  induction words with
  | nil => rfl
  | cons w words ih =>
      have hw := Text.splitOn_of_not_mem (h w List.mem_cons_self)
      have hrest := ih fun v hv => h v (List.mem_cons_of_mem w hv)
      simp [Text.splitOn_append_cons, hw, hrest]

/-- The libraries are read back from the text in their order. -/
theorem tokens_ofLibraries {libraries : List String} (h : ∀ l ∈ libraries, IsToken l) :
    tokens (ofLibraries libraries) = libraries := by
  have hwords : ∀ w ∈ libraries.map String.toList, ' ' ∉ w := by
    intro w hw
    obtain ⟨l, hl, rfl⟩ := List.mem_map.mp hw
    exact (h l hl).2.1
  have hsplit := splitOn_flatMap hwords
  rw [List.flatMap_map] at hsplit
  have hkept : (libraries.map String.toList).filter (· != []) = libraries.map String.toList := by
    apply List.filter_eq_self.mpr
    intro w hw
    obtain ⟨l, hl, rfl⟩ := List.mem_map.mp hw
    simpa using (h l hl).1
  rw [tokens, linkedText_ofLibraries h, hsplit, List.filter_append, hkept]
  simp [Function.comp_def]

/-- The libraries of the SDK are words. -/
theorem isToken_of_mem_sdk {m : Member} (h : m ∈ Catalog.sdk) : IsToken m.library := by
  have hall : ∀ m ∈ Catalog.sdk, IsToken m.library := by decide
  exact hall m h

/-- The glue for members shows the libraries behind them. -/
theorem tokens_ofMembers (members : List Member) :
    tokens (ofMembers members) = Catalog.sdk.linked members := by
  apply tokens_ofLibraries
  intro library hl
  obtain ⟨m, hm, -, rfl⟩ := Catalog.mem_linked_iff.mp hl
  exact isToken_of_mem_sdk hm

end SdkGlue.Glue
