import SdkGlue.Keyed

/-!
# Catalogs of libraries

A catalog is a table of members in definition order: each has a canonical name
and the library that it links.  Several members may link one library.  The
index says which member an include name means: every canonical name means its
own member, and the name of a library means the first member that links it,
unless a canonical name took the key.
-/

namespace SdkGlue

/-- A name that sources can pull in, and the library behind it. -/
structure Member where
  name : String
  library : String
  deriving DecidableEq, Repr, Inhabited

/-- Members in definition order. -/
abbrev Catalog := List Member

namespace Catalog

/-- Keys and the members they mean, in the order in which the keys came up. -/
abbrev Index := Keyed String Member

/-- Gives a key its meaning only when it has none. -/
def Index.putNew (key : String) (m : Member) (index : Index) : Index :=
  if (Keyed.get? index key).isSome then index else Keyed.put key m index

/-- Enters the members one after another; `seen` holds the libraries of those
before. -/
def enter : Catalog → (seen : List String) → Index → Index
  | [], _, index => index
  | m :: rest, seen, index =>
      let named : Index := Keyed.put m.name m index
      if m.library ∈ seen then enter rest seen named
      else enter rest (m.library :: seen) (Index.putNew m.library m named)

def index (t : Catalog) : Index := enter t [] []

/-- The member that a name means. -/
def find? (t : Catalog) (name : String) : Option Member := Keyed.get? t.index name

def keysOf (t : Catalog) (m : Member) : List String :=
  (t.index.filter (·.2 = m)).map (·.1)

def rank (t : Catalog) (m : Member) : Nat := t.idxOf m

def member? (t : Catalog) (name : String) : Option Member :=
  List.find? (·.name = name) t

/-- The distinct members among `ms`, in definition order. -/
def arrange (t : Catalog) (ms : List Member) : List Member := t.filter (· ∈ ms)

/-- The distinct libraries behind the members `ms`, each where the first
member in definition order puts it. -/
def linked (t : Catalog) (ms : List Member) : List String :=
  ((t.arrange ms).map Member.library).eraseDups

@[simp] theorem mem_arrange {t : Catalog} {ms : List Member} {m : Member} :
    m ∈ t.arrange ms ↔ m ∈ t ∧ m ∈ ms := by
  simp [arrange]

@[simp] theorem get?_putNew (index : Index) (key : String) (m : Member) (k : String) :
    Keyed.get? (index.putNew key m) k =
      ((Keyed.get? index k).or (if key = k then some m else none)) := by
  unfold Index.putNew
  split
  · next h =>
      by_cases hk : key = k
      · subst hk
        obtain ⟨x, hx⟩ := Option.isSome_iff_exists.mp h
        simp [hx]
      · simp [hk]
  · next h =>
      by_cases hk : key = k
      · subst hk
        simp [Option.not_isSome_iff_eq_none.mp h]
      · simp [hk]

end Catalog

end SdkGlue
