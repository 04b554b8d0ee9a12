import Mathlib.Data.List.Nodup
import SdkGlue.Proofs.Catalog.Keys

/-!
# What the keys of a catalog mean

A canonical name means its own member, wherever the members stand that link a
library of that name.  Any other key is a library, and means the first member
that links it.  So every key belongs to exactly one member.
-/

namespace SdkGlue.Catalog

variable {t : Catalog} {m m' : Member} {key : String}

/-- The first member in definition order that links a library. -/
def primary? (t : Catalog) (library : String) : Option Member :=
  List.find? (·.library = library) t

theorem member?_cons (m : Member) (t : Catalog) (name : String) :
    member? (m :: t) name = if m.name = name then some m else t.member? name := by
  by_cases h : m.name = name <;> simp [member?, h]

theorem primary?_cons (m : Member) (t : Catalog) (library : String) :
    primary? (m :: t) library = if m.library = library then some m else t.primary? library := by
  by_cases h : m.library = library <;> simp [primary?, h]

theorem member?_eq_none (h : key ∉ t.map Member.name) : t.member? key = none := by
  simpa [member?] using h

theorem member?_of_mem (hnames : (t.map Member.name).Nodup) (hm : m ∈ t) :
    t.member? m.name = some m := by
  induction t with
  | nil => cases hm
  | cons a t ih =>
      obtain ⟨ha, ht⟩ := List.nodup_cons.mp hnames
      rw [member?_cons]
      rcases List.mem_cons.mp hm with rfl | hm
      · exact if_pos rfl
      · have hne : a.name ≠ m.name := fun h => ha (h ▸ List.mem_map_of_mem hm)
        rw [if_neg hne, ih ht hm]

/-- What the entering of the members that remain makes of a key: their names come
first, then what the key means already, and last a library that was not seen. -/
theorem get?_enter (hnames : (t.map Member.name).Nodup) (seen : List String) (index : Index)
    (key : String) :
    Keyed.get? (enter t seen index) key =
      (t.member? key).or ((Keyed.get? index key).or
        (if key ∈ seen then none else t.primary? key)) := by
  induction t generalizing seen index with
  | nil => simp [enter, member?, primary?]
  | cons m t ih =>
      obtain ⟨hm, ht⟩ := List.nodup_cons.mp hnames
      rw [enter, member?_cons, primary?_cons]
      by_cases hname : m.name = key
      · -- no member that remains has this name
        subst hname
        have hnone := member?_eq_none hm
        split <;> simp [ih ht, hnone]
      · have hnamed : Keyed.get? (Keyed.put m.name m index) key = Keyed.get? index key := by
          rw [Keyed.get?_put, if_neg hname]
        rw [if_neg hname]
        split
        · next hseen =>
            rw [ih ht, hnamed]
            by_cases hlibrary : m.library = key
            · subst hlibrary
              rw [if_pos hseen, if_pos hseen]
            · rw [if_neg hlibrary]
        · next hseen =>
            rw [ih ht, get?_putNew, hnamed, Option.or_assoc]
            by_cases hlibrary : m.library = key
            · subst hlibrary
              simp [hseen]
            · simp [hlibrary, Ne.symm hlibrary]

theorem find?_eq (hnames : (t.map Member.name).Nodup) (key : String) :
    t.find? key = (t.member? key).or (t.primary? key) := by
  rw [find?, index, get?_enter hnames]
  simp

theorem find?_name (hnames : (t.map Member.name).Nodup) (hm : m ∈ t) :
    t.find? m.name = some m := by
  rw [find?_eq hnames, member?_of_mem hnames hm, Option.some_or]

theorem nodup_keysOf (t : Catalog) (m : Member) : (t.keysOf m).Nodup :=
  (nodup_keys_index t).sublist (List.filter_sublist.map _)

theorem disjoint_keysOf (h : m ≠ m') : List.Disjoint (t.keysOf m) (t.keysOf m') := by
  intro key hkey hkey'
  have hfound := mem_keysOf_iff.mp hkey
  exact h (Option.some.inj (hfound.symm.trans (mem_keysOf_iff.mp hkey')))

theorem mem_keys_iff_mem_keysOf : key ∈ Keyed.keys t.index ↔ ∃ m ∈ t, key ∈ t.keysOf m := by
  constructor
  · intro h
    obtain ⟨m, hm⟩ := Option.isSome_iff_exists.mp (Keyed.get?_isSome_iff.mpr h)
    exact ⟨m, mem_of_find? hm, mem_keysOf_iff.mpr hm⟩
  · rintro ⟨m, -, hkey⟩
    exact mem_keys_of_mem_keysOf hkey

/-- The keys of the members together are all keys, each once. -/
theorem perm_flatMap_keysOf (ht : t.Nodup) :
    (t.flatMap t.keysOf).Perm (Keyed.keys t.index) := by
  have hnodup : (t.flatMap t.keysOf).Nodup :=
    List.nodup_flatMap.mpr ⟨fun m _ => nodup_keysOf t m, ht.imp disjoint_keysOf⟩
  refine (List.perm_ext_iff_of_nodup hnodup (nodup_keys_index t)).mpr fun key => ?_
  rw [List.mem_flatMap, mem_keys_iff_mem_keysOf]

/-- A key means the member of that name, else the first member that links a library
of that name, else nothing.  Every name means its own member, and each key is among
the keys of exactly one member. -/
theorem index_exact (hnames : (t.map Member.name).Nodup) :
    (∀ key, t.find? key = (t.member? key).or (t.primary? key)) ∧
      (∀ m ∈ t, t.find? m.name = some m) ∧
      (Keyed.keys t.index).Nodup ∧
      (t.flatMap t.keysOf).Perm (Keyed.keys t.index) ∧
      ∀ m ∈ t, m.name ∈ t.keysOf m := by
  have hname : ∀ m ∈ t, t.find? m.name = some m := fun m hm => find?_name hnames hm
  exact ⟨find?_eq hnames, hname, nodup_keys_index t, perm_flatMap_keysOf hnames.of_map,
    fun m hm => mem_keysOf_iff.mpr (hname m hm)⟩

/-- Members whose libraries have the names of members in front of them and behind. -/
def crossed : Catalog := [⟨"a", "b"⟩, ⟨"b", "c"⟩, ⟨"d", "a"⟩, ⟨"e", "c"⟩, ⟨"f", "f"⟩]

theorem index_exact_crossed :
    (crossed.map Member.name).Nodup ∧ crossed.find? "b" = some ⟨"b", "c"⟩ ∧
      crossed.find? "a" = some ⟨"a", "b"⟩ ∧ crossed.find? "c" = some ⟨"b", "c"⟩ ∧
      crossed.find? "g" = none ∧
      (crossed.flatMap crossed.keysOf).Perm (Keyed.keys crossed.index) := by
  have hnames : (crossed.map Member.name).Nodup := by decide
  obtain ⟨hfind, hname, -, hkeys, -⟩ := index_exact hnames
  exact ⟨hnames, hname ⟨"b", "c"⟩ (by decide), hname ⟨"a", "b"⟩ (by decide), hfind "c",
    hfind "g", hkeys⟩

end SdkGlue.Catalog
