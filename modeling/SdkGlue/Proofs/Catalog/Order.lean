import Mathlib.Data.List.Pairwise
import SdkGlue.Proofs.Catalog.Libraries

/-!
# The order of linked libraries

A library stands in the linked list where the first member present that needs
it stands in the catalog.  Two sets of members that need the same libraries
can only differ in these places.
-/

namespace SdkGlue.Catalog

variable {t : Catalog} {as bs ms : List Member} {m : Member} {library : String}

/-- Where the first of the members `ms` that needs a library stands. -/
def place (t : Catalog) (ms : List Member) (library : String) : Nat :=
  t.findIdx fun m => m ∈ ms ∧ m.library = library

theorem linked_cons_of_mem (h : m ∈ ms) :
    Catalog.linked (m :: t) ms =
      m.library :: (t.linked ms).filter fun library => !library == m.library := by
  rw [linked, arrange, List.filter_cons_of_pos (by simpa using h), List.map_cons,
    List.eraseDups_cons, filter_eraseDups]
  rfl

theorem linked_cons_of_not_mem (h : m ∉ ms) : Catalog.linked (m :: t) ms = t.linked ms := by
  rw [linked, arrange, List.filter_cons_of_neg (by simpa using h)]
  rfl

theorem place_cons_of_pos (h : m ∈ ms) : place (m :: t) ms m.library = 0 := by
  simp [place, List.findIdx_cons, h]

theorem place_cons_of_neg (h : m ∈ ms → m.library ≠ library) :
    place (m :: t) ms library = place t ms library + 1 := by
  have hfalse : decide (m ∈ ms ∧ m.library = library) = false := by simpa using h
  rw [place, List.findIdx_cons, hfalse]
  rfl

/-- The linked libraries stand in the order of their places. -/
theorem pairwise_linked (t : Catalog) (ms : List Member) :
    (t.linked ms).Pairwise fun a b => t.place ms a < t.place ms b := by
  induction t with
  | nil => exact List.Pairwise.nil
  | cons m t ih =>
      by_cases hm : m ∈ ms
      · have hlater : ∀ a ∈ (linked t ms).filter (fun library => !library == m.library),
            place (m :: t) ms a = place t ms a + 1 := by
          intro a ha
          apply place_cons_of_neg
          rintro - rfl
          simp at ha
        rw [linked_cons_of_mem hm, List.pairwise_cons]
        constructor
        · intro a ha
          rw [place_cons_of_pos hm, hlater a ha]
          omega
        · refine (ih.filter _).imp_of_mem fun ha hb hlt => ?_
          rw [hlater _ ha, hlater _ hb]
          omega
      · rw [linked_cons_of_not_mem hm]
        refine ih.imp fun hlt => ?_
        rw [place_cons_of_neg fun h => absurd h hm, place_cons_of_neg fun h => absurd h hm]
        omega

/-- A list in the order of a key is known by its members. -/
theorem eq_of_pairwise_lt {α : Type} {key : α → Nat} {xs ys : List α}
    (hxs : xs.Pairwise fun x y => key x < key y) (hys : ys.Pairwise fun x y => key x < key y)
    (hmem : ∀ x, x ∈ xs ↔ x ∈ ys) : xs = ys := by
  have hnodup : ∀ {zs : List α}, (zs.Pairwise fun x y => key x < key y) → zs.Nodup := by
    refine fun hzs => hzs.imp fun hlt => ?_
    rintro rfl
    exact Nat.lt_irrefl _ hlt
  have hperm := (List.perm_ext_iff_of_nodup (hnodup hxs) (hnodup hys)).mpr hmem
  exact hperm.eq_of_pairwise (fun x y _ _ hxy hyx => by omega) hxs hys

/-- Libraries that are linked for both sets and stand in the same order are one
list. -/
theorem filter_linked_eq (p : String → Bool) (hmem : ∀ a, a ∈ t.linked as ↔ a ∈ t.linked bs)
    (horder : ∀ a ∈ t.linked as, ∀ b ∈ t.linked as, p a → p b →
      t.place bs a < t.place bs b → t.place as a < t.place as b) :
    (t.linked as).filter p = (t.linked bs).filter p := by
  have hbs : ((t.linked bs).filter p).Pairwise fun a b => t.place as a < t.place as b := by
    refine ((pairwise_linked t bs).filter p).imp_of_mem fun ha hb hlt => ?_
    obtain ⟨ha, hpa⟩ := List.mem_filter.mp ha
    obtain ⟨hb, hpb⟩ := List.mem_filter.mp hb
    exact horder _ ((hmem _).mpr ha) _ ((hmem _).mpr hb) hpa hpb hlt
  refine eq_of_pairwise_lt ((pairwise_linked t as).filter p) hbs fun a => ?_
  rw [List.mem_filter, List.mem_filter, hmem]

theorem linked_eq (hmem : ∀ a, a ∈ t.linked as ↔ a ∈ t.linked bs)
    (horder : ∀ a ∈ t.linked as, ∀ b ∈ t.linked as,
      t.place bs a < t.place bs b → t.place as a < t.place as b) :
    t.linked as = t.linked bs := by
  have hall := filter_linked_eq (fun _ => true) hmem fun a ha b hb _ _ => horder a ha b hb
  rwa [List.filter_eq_self.mpr fun _ _ => rfl, List.filter_eq_self.mpr fun _ _ => rfl] at hall

/-- In one list both sets of places rise. -/
theorem place_lt_iff_of_linked_eq (h : t.linked as = t.linked bs) {a b : String}
    (ha : a ∈ t.linked as) (hb : b ∈ t.linked as) :
    t.place as a < t.place as b ↔ t.place bs a < t.place bs b := by
  have hboth := (pairwise_linked t as).and (h ▸ pairwise_linked t bs)
  have hsame : (t.linked as).Pairwise fun a b =>
      (t.place as a < t.place as b ↔ t.place bs a < t.place bs b) ∧
      (t.place as b < t.place as a ↔ t.place bs b < t.place bs a) := by
    refine hboth.imp fun ⟨hlt, hlt'⟩ => ?_
    omega
  have : Std.Symm fun a b : String =>
      (t.place as a < t.place as b ↔ t.place bs a < t.place bs b) ∧
      (t.place as b < t.place as a ↔ t.place bs b < t.place bs a) := ⟨fun _ _ h => h.symm⟩
  exact (hsame.forall_of_forall (fun a _ => by simp) ha hb).1

/-- The place of a library is the rank of the first member present that needs it. -/
theorem place_eq_rank (hm : m ∈ t) (hms : m ∈ ms)
    (hfirst : ∀ m' ∈ t, m' ∈ ms → m'.library = m.library → t.rank m ≤ t.rank m') :
    t.place ms m.library = t.rank m := by
  have hlt : t.rank m < t.length := List.idxOf_lt_length_of_mem hm
  refine (List.findIdx_eq hlt).mpr ⟨?_, fun j hj => ?_⟩
  · simp [rank, hms]
  · have hle : t.rank t[j] ≤ j := by
      by_contra hlt
      simpa using List.not_of_lt_findIdx (p := (· == t[j])) (Nat.lt_of_not_le hlt)
    simp only [decide_eq_false_iff_not, not_and]
    intro hin hlibrary
    have := hfirst _ (List.getElem_mem _) hin hlibrary
    omega

/-! ## The SDK

Only `stdio` and `gpio` need one library, and of the members that need another
one only `multicore` stands between them. -/

abbrev stdio : Member := ⟨"stdio", "pico_stdlib"⟩

abbrev multicore : Member := ⟨"multicore", "pico_multicore"⟩

theorem sdk_unshared : ∀ m ∈ sdk, m.library ≠ stdio.library →
    (∀ m' ∈ sdk, m'.library = m.library → m' = m) ∧
      (m = multicore ∧ sdk.rank m = 1 ∨ 2 < sdk.rank m) := by
  decide

/-- A member that shares its library with no other decides its place. -/
theorem place_sdk_of_ne (h : library ∈ sdk.linked ms) (hne : library ≠ stdio.library) :
    ∃ m ∈ sdk, m ∈ ms ∧ m.library = library ∧ sdk.place ms library = sdk.rank m := by
  obtain ⟨m, hm, hms, rfl⟩ := mem_linked_iff.mp h
  refine ⟨m, hm, hms, rfl, place_eq_rank hm hms fun m' hm' _ hlibrary => ?_⟩
  exact Nat.le_of_eq (congrArg _ ((sdk_unshared m hm hne).1 m' hm' hlibrary).symm)

theorem place_sdk_stdlib (h : stdio.library ∈ sdk.linked ms) :
    sdk.place ms stdio.library = if stdio ∈ ms then 0 else 2 := by
  have hshared : ∀ m ∈ sdk, m.library = stdio.library → m ≠ stdio → sdk.rank m = 2 := by decide
  split
  · next hstdio =>
      exact place_eq_rank (by decide) hstdio fun m _ _ _ => Nat.zero_le _
  · next hstdio =>
      have hother : ∀ m ∈ ms, m ≠ stdio := fun m hm h => hstdio (h ▸ hm)
      obtain ⟨m, hm, hms, hlibrary⟩ := mem_linked_iff.mp h
      have hrank := hshared m hm hlibrary (hother m hms)
      rw [← hlibrary, ← hrank]
      refine place_eq_rank hm hms fun m' hm' hms' hlibrary' => ?_
      have hrank' := hshared m' hm' (hlibrary'.trans hlibrary) (hother m' hms')
      exact Nat.le_of_eq (hrank.trans hrank'.symm)

theorem place_sdk_multicore (h : multicore ∈ ms) : sdk.place ms multicore.library = 1 := by
  have honly := (sdk_unshared multicore (by decide) (by decide)).1
  refine place_eq_rank (by decide) h fun m hm _ hlibrary => ?_
  exact Nat.le_of_eq (congrArg _ (honly m hm hlibrary).symm)

/-- A library other than that of `stdio` has one place for all sets of members
that need it. -/
theorem place_sdk_congr (has : library ∈ sdk.linked as) (hbs : library ∈ sdk.linked bs)
    (hne : library ≠ stdio.library) :
    sdk.place as library = sdk.place bs library ∧
      (multicore ∈ as ∧ sdk.place as library = 1 ∨ 2 < sdk.place as library) := by
  obtain ⟨m, hm, hmas, rfl, hplace⟩ := place_sdk_of_ne has hne
  obtain ⟨m', hm', -, hlibrary, hplace'⟩ := place_sdk_of_ne hbs hne
  obtain ⟨honly, hrank⟩ := sdk_unshared m hm hne
  obtain rfl := honly m' hm' hlibrary
  rw [hplace, hplace']
  refine ⟨rfl, hrank.imp_left fun ⟨heq, h⟩ => ⟨heq ▸ hmas, h⟩⟩

/-- The order of all libraries but that of `stdio` is fixed. -/
theorem filter_linked_sdk (hmem : ∀ a, a ∈ sdk.linked as ↔ a ∈ sdk.linked bs) :
    (sdk.linked as).filter (· != stdio.library) = (sdk.linked bs).filter (· != stdio.library) := by
  refine filter_linked_eq _ hmem fun a ha b hb hpa hpb hlt => ?_
  rw [(place_sdk_congr ha ((hmem a).mp ha) (by simpa using hpa)).1,
    (place_sdk_congr hb ((hmem b).mp hb) (by simpa using hpb)).1]
  exact hlt

/-- The library of `stdio` keeps its side of another one that is linked unless
`multicore` is there and one of the sets only has `stdio`. -/
theorem place_sdk_stdlib_congr (hmem : ∀ a, a ∈ sdk.linked as ↔ a ∈ sdk.linked bs)
    (hstdio : multicore ∈ as → (stdio ∈ as ↔ stdio ∈ bs)) (h : stdio.library ∈ sdk.linked as)
    (hlibrary : library ∈ sdk.linked as) (hne : library ≠ stdio.library) :
    (sdk.place bs stdio.library < sdk.place bs library →
        sdk.place as stdio.library < sdk.place as library) ∧
      (sdk.place bs library < sdk.place bs stdio.library →
        sdk.place as library < sdk.place as stdio.library) := by
  obtain ⟨hplace, hrank⟩ := place_sdk_congr hlibrary ((hmem _).mp hlibrary) hne
  rw [place_sdk_stdlib h, place_sdk_stdlib ((hmem _).mp h), ← hplace]
  rcases hrank with ⟨hcore, -⟩ | hrank
  · simp only [hstdio hcore, imp_self, and_self]
  · split <;> split <;> omega

/-- Two sets of members that need the same libraries are linked alike exactly
when, where `multicore` is there, both have `stdio` or neither has it. -/
theorem linked_sdk_eq_iff (hmem : ∀ a, a ∈ sdk.linked as ↔ a ∈ sdk.linked bs) :
    sdk.linked as = sdk.linked bs ↔ (multicore ∈ as → (stdio ∈ as ↔ stdio ∈ bs)) := by
  constructor
  · intro heq hcore
    have hlinked : multicore.library ∈ sdk.linked as :=
      mem_linked_iff.mpr ⟨multicore, by decide, hcore, rfl⟩
    by_cases hstd : stdio.library ∈ sdk.linked as
    · -- the two libraries stand in one order for both sets
      have hlt := place_lt_iff_of_linked_eq heq hstd hlinked
      have hplace := (place_sdk_congr hlinked ((hmem _).mp hlinked) (by decide)).1
      rw [place_sdk_stdlib hstd, place_sdk_stdlib ((hmem _).mp hstd), ← hplace,
        place_sdk_multicore hcore] at hlt
      by_cases ha : stdio ∈ as <;> by_cases hb : stdio ∈ bs <;> simp [ha, hb] at hlt ⊢
    · have hnone : ∀ {ms}, stdio ∈ ms → stdio.library ∈ sdk.linked ms := fun h =>
        mem_linked_iff.mpr ⟨stdio, by decide, h, rfl⟩
      exact iff_of_false (fun h => hstd (hnone h)) fun h => hstd ((hmem _).mpr (hnone h))
  · intro hstdio
    refine linked_eq hmem fun a ha b hb hlt => ?_
    rcases eq_or_ne a stdio.library with rfl | hane <;>
      rcases eq_or_ne b stdio.library with rfl | hbne
    · exact absurd hlt (Nat.lt_irrefl _)
    · exact (place_sdk_stdlib_congr hmem hstdio ha hb hbne).1 hlt
    · exact (place_sdk_stdlib_congr hmem hstdio hb ha hane).2 hlt
    · rwa [(place_sdk_congr ha ((hmem a).mp ha) hane).1,
        (place_sdk_congr hb ((hmem b).mp hb) hbne).1]

end SdkGlue.Catalog
