import SdkGlue.Command.Host
import SdkGlue.Proofs.Table.Rows

/-!
# What hosts are known for

Texts without tags and documents without deep nesting are safe on every host, and
texts of plain characters are printed as they are.  Of tags only two things are
known: one that closes nothing is an error, and one that opens a style is not shown.
What else a host makes of tags, of styles and of the names of pictures between
colons is its own affair.
-/

namespace SdkGlue

namespace Command

/-! ## Texts -/

def Tagless (s : String) : Prop := '[' ∉ s.toList

/-- The one bracket of the text begins a tag that closes a style, though none is open.
With a backslash before it, it would be no tag. -/
def ClosesNothing (s : String) : Prop :=
  ∃ front name back : List Char, s.toList = front ++ '[' :: '/' :: name ++ ']' :: back ∧
    '[' ∉ front ∧ front.getLast? ≠ some '\\' ∧ '[' ∉ name ∧ ']' ∉ name ∧ '[' ∉ back

/-- The first text is the second one with a tag in it that opens a style. -/
def OpensIn (s t : String) : Prop :=
  ∃ front name back : List Char, s.toList = front ++ '[' :: name ++ ']' :: back ∧
    t.toList = front ++ back ∧ front.getLast? ≠ some '\\' ∧ name ≠ [] ∧ ∀ c ∈ name, c.isLower

/-- A character that stands for itself: no bracket, control or line separator. -/
def IsPlainChar (c : Char) : Prop :=
  c ≠ '[' ∧ 0x20 ≤ c.toNat ∧ c.toNat ∉ [0x85, 0x2028, 0x2029]

instance (c : Char) : Decidable (IsPlainChar c) := inferInstanceAs (Decidable (_ ∧ _ ∧ _))

/-- Only the characters of the list are tried, and not all that there are. -/
instance decidableForallMemChars (l : List Char) (p : Char → Prop) [DecidablePred p] :
    Decidable (∀ c ∈ l, p c) :=
  List.decidableBAll p l

/-- A text of plain characters.  Two colons could enclose the name of a picture, and a
blank at the end of a long line may be left out. -/
structure IsPlain (s : String) : Prop where
  chars : ∀ c ∈ s.toList, IsPlainChar c
  colons : s.toList.count ':' ≤ 1
  trimmed : ∀ c ∈ s.toList.getLast?, Text.isBlank c = false

instance (s : String) : Decidable (IsPlain s) :=
  have : Decidable (∀ c ∈ s.toList.getLast?, Text.isBlank c = false) :=
    Option.decidableForallMem _
  decidable_of_iff ((∀ c ∈ s.toList, IsPlainChar c) ∧ s.toList.count ':' ≤ 1 ∧
    ∀ c ∈ s.toList.getLast?, Text.isBlank c = false)
    ⟨fun h => ⟨h.1, h.2.1, h.2.2⟩, fun h => ⟨h.1, h.2, h.3⟩⟩

theorem IsPlain.tagless {s : String} (h : IsPlain s) : Tagless s :=
  fun hmem => (h.chars _ hmem).1 rfl

/-- The second text is plain, and what is shown of the first: the whole of it, or the
rest of it without a tag that opens a style. -/
def IsShownAs (s t : String) : Prop := IsPlain t ∧ (s = t ∨ OpensIn s t)

/-! ## Documents -/

/-- A document with too few opening brackets to be nested deeply. -/
def IsShallow (s : List Char) : Prop := s.countP (fun c => c = '[' ∨ c = '\x7b') ≤ 100

end Command

/-! ## Tables -/

namespace Table

/-- The texts of a table, its title first. -/
def texts (t : Table) : List String := t.title :: t.columns.flatMap fun c => c.header :: c.cells

/-- What is shown of a column.  A letter in its header keeps it from being without any
width. -/
structure Column.IsShownAs (c d : Column) : Prop where
  header : c.header = d.header
  plain : Command.IsPlain d.header
  wide : d.header.toList.any Char.isAlpha
  cells : List.Forall₂ Command.IsShownAs c.cells d.cells

/-- The second table has what is shown of the cells of the first one. -/
structure IsShownAs (t u : Table) : Prop where
  title : t.title = u.title
  columns : List.Forall₂ Column.IsShownAs t.columns u.columns

end Table

/-! ## Hosts -/

namespace Command

variable {ε : Type}

/-- On which documents and texts a host has no error of its own, and on which it has
one. -/
structure Host.IsSafe (host : Host ε) : Prop where
  reads : ∀ format s, IsShallow s → host.giveUp format s = none
  line_of_tagless : ∀ s, Tagless s → ∃ shown, host.line s = .ok shown
  table_of_tagless : ∀ t : Table, (∀ s ∈ t.texts, Tagless s) → ∃ shown, host.table t = .ok shown
  line_of_closing : ∀ s, ClosesNothing s → ∃ e, host.line s = .error e
  table_of_closing : ∀ t : Table, t.columns ≠ [] → ClosesNothing t.title →
    ∃ e, host.table t = .error e

/-- What a host without colours shows of plain texts, alone on a line or in a table that
fits its screen. -/
structure Host.ShowsPlain (host : Host ε) (fits : Table → Prop) : Prop where
  line_of_shown : ∀ s t, IsShownAs s t → host.line s = .ok (t ++ "\n")
  rows_of_shown : ∀ (t u : Table) shown, t.IsShownAs u → fits u → host.table t = .ok shown →
    Table.ShowsRows u.rows shown

end Command

end SdkGlue
