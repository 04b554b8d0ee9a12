import SdkGlue.Proofs.Keyed
import SdkGlue.Proofs.Store.Change

/-!
# The entries of a directory

A file system gives its entries names that a path can spell: a name is never
empty, `.` or `..`, it holds no slash and no NUL, and it is not too long.
Listing a directory gives each entry once, with its kind.
-/

namespace SdkGlue.Store

/-- A name that an entry can have. -/
structure IsName (name : String) : Prop where
  plain : IsPlain name
  no_slash : '/' ∉ name.toList
  no_nul : '\x00' ∉ name.toList
  short : name.utf8ByteSize ≤ maxName

/-- What a link leads to. -/
def targetOf : Entry → Option String
  | .link target => some target
  | _ => none

instance (name : String) : Decidable (IsPlain name) := inferInstanceAs (Decidable (_ ∧ _ ∧ _))

instance (name : String) : Decidable (IsName name) :=
  decidable_of_iff
    (IsPlain name ∧ '/' ∉ name.toList ∧ '\x00' ∉ name.toList ∧ name.utf8ByteSize ≤ maxName)
    ⟨fun ⟨h₁, h₂, h₃, h₄⟩ => ⟨h₁, h₂, h₃, h₄⟩, fun ⟨h₁, h₂, h₃, h₄⟩ => ⟨h₁, h₂, h₃, h₄⟩⟩

/-- The state of a file system: its entries have names, and its links have
targets, that can occur in a path. -/
structure Lawful (s : Store) : Prop where
  isName : ∀ {name dir e}, s.find? (name :: dir) = some e → IsName name
  no_nul : ∀ {loc target}, s.find? loc = some (.link target) → '\x00' ∉ target.toList

/-- No entry is a link. -/
def Linkless (s : Store) : Prop := ∀ loc target, s.find? loc ≠ some (.link target)

variable {s t : Store} {name : String} {dir : Location}

theorem IsName.isStep (h : IsName name) : isStep name = true := by
  simp [Store.isStep, h.plain.1, h.plain.2.1]

theorem Within.lawful (h : Within t s) (hs : s.Lawful) : t.Lawful :=
  ⟨fun he => hs.isName (h.find? he), fun he => hs.no_nul (h.find? he)⟩

theorem Within.linkless (h : Within t s) (hs : s.Linkless) : t.Linkless :=
  fun loc target he => hs loc target (h.find? he)

theorem find?_of_mem_entries {loc : Location} {e : Entry} (h : (loc, e) ∈ s.entries)
    (hloc : loc ≠ []) : s.find? loc = some e := by
  rw [find?, if_neg hloc]
  exact (Keyed.get?_eq_some_iff_of_nodup s.nodup).mpr h

theorem mem_entries_of_find? {loc : Location} {e : Entry} (h : s.find? loc = some e)
    (hloc : loc ≠ []) : (loc, e) ∈ s.entries := by
  rw [find?, if_neg hloc] at h
  exact Keyed.mem_of_get?_eq_some h

theorem mem_children_iff {kind : Entry.Kind} :
    (name, kind) ∈ s.children dir ↔ ∃ e, s.find? (name :: dir) = some e ∧ e.kind = kind := by
  rw [children, List.mem_filterMap]
  constructor
  · rintro ⟨⟨loc, e⟩, hmem, hpick⟩
    match loc with
    | [] => cases hpick
    | n :: parent =>
        simp only [Option.ite_none_right_eq_some, Option.some.injEq, Prod.mk.injEq] at hpick
        obtain ⟨rfl, rfl, rfl⟩ := hpick
        exact ⟨e, find?_of_mem_entries hmem (by simp), rfl⟩
  · rintro ⟨e, hfind, rfl⟩
    exact ⟨(name :: dir, e), mem_entries_of_find? hfind (by simp), by simp⟩

theorem nodup_children (s : Store) (dir : Location) : ((s.children dir).map (·.1)).Nodup := by
  have hsub : (((s.children dir).map (·.1)).map (· :: dir)).Sublist s.entries.keys := by
    unfold children
    induction s.entries with
    | nil => exact List.Sublist.slnil
    | cons a t ih =>
        obtain ⟨loc, e⟩ := a
        match loc with
        | [] => simpa [Keyed.keys] using ih.cons []
        | n :: parent =>
            by_cases hp : parent = dir
            · subst hp
              simpa [Keyed.keys] using ih.cons_cons (n :: parent)
            · simpa [Keyed.keys, hp] using ih.cons (n :: parent)
  have hnodup := s.nodup.sublist hsub
  exact List.Pairwise.of_map (· :: dir) (fun a b hab he => hab (by rw [he])) hnodup

/-! ## Deciding what holds of all entries -/

theorem lawful_iff :
    s.Lawful ↔ ∀ e ∈ s.entries, ∀ name ∈ e.1.head?, IsName name ∧
      ∀ target ∈ targetOf e.2, '\x00' ∉ target.toList := by
  constructor
  · rintro hs ⟨loc, e⟩ hmem name hname
    match loc with
    | [] => cases hname
    | n :: dir =>
        have hfind := find?_of_mem_entries hmem (by simp)
        obtain rfl : n = name := Option.some.inj hname
        refine ⟨hs.isName hfind, fun target ht => ?_⟩
        cases e with
        | file bytes => cases ht
        | directory => cases ht
        | link t =>
            obtain rfl : t = target := Option.some.inj ht
            exact hs.no_nul hfind
  · intro h
    refine ⟨fun hfind => ?_, fun {loc target} hfind => ?_⟩
    · exact (h _ (mem_entries_of_find? hfind (by simp)) _ rfl).1
    · match loc with
      | [] => cases hfind
      | n :: dir => exact (h _ (mem_entries_of_find? hfind (by simp)) _ rfl).2 _ rfl

theorem linkless_iff : s.Linkless ↔ ∀ e ∈ s.entries, e.1 = [] ∨ targetOf e.2 = none := by
  constructor
  · rintro hs ⟨loc, e⟩ hmem
    by_cases hloc : loc = []
    · exact .inl hloc
    · cases e with
      | file bytes => exact .inr rfl
      | directory => exact .inr rfl
      | link target => exact absurd (find?_of_mem_entries hmem hloc) (hs loc target)
  · intro h loc target hfind
    by_cases hloc : loc = []
    · subst hloc
      cases hfind
    · rcases h _ (mem_entries_of_find? hfind hloc) with hroot | hnone
      · exact hloc hroot
      · cases hnone

instance (s : Store) : Decidable s.Lawful := decidable_of_iff _ lawful_iff.symm

instance (s : Store) : Decidable s.Linkless := decidable_of_iff _ linkless_iff.symm

end SdkGlue.Store
