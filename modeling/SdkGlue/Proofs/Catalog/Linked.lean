import Mathlib.Data.List.Nodup
import Mathlib.Order.Lattice.Nat
import SdkGlue.Proofs.Catalog.Order

/-!
# What is linked for members

The members that are asked for are arranged as the catalog has them, each once.
Their libraries are linked once each, where the first of these members that
needs them stands.  In which order and how often members are asked for makes no
difference.
-/

namespace SdkGlue.Catalog

variable {t : Catalog} {ms ms' : List Member} {library : String}

theorem arrange_congr (h : ∀ m, m ∈ ms' ↔ m ∈ ms) : t.arrange ms' = t.arrange ms := by
  apply List.filter_congr
  intro m _
  rw [decide_eq_decide]
  exact h m

theorem linked_congr (h : ∀ m, m ∈ ms' ↔ m ∈ ms) : t.linked ms' = t.linked ms := by
  rw [linked, arrange_congr h, linked]

theorem pairwise_arrange (ht : t.Nodup) (ms : List Member) :
    (t.arrange ms).Pairwise fun a b => t.rank a < t.rank b := by
  have hrank : t.Pairwise fun a b => t.rank a < t.rank b := by
    rw [List.pairwise_iff_getElem]
    intro i j hi hj hij
    rwa [rank, rank, ht.idxOf_getElem i hi, ht.idxOf_getElem j hj]
  exact hrank.filter _

/-- The ranks of the members among `ms` that need a library. -/
def ranks (t : Catalog) (ms : List Member) (library : String) : Set Nat :=
  {i | ∃ m ∈ ms, m.library = library ∧ t.rank m = i}

/-- The place of a library is the least rank of the members that need it. -/
theorem isLeast_place (hms : ∀ m ∈ ms, m ∈ t) (h : ∃ m ∈ ms, m.library = library) :
    IsLeast (t.ranks ms library) (t.place ms library) := by
  obtain ⟨m', hm', hlibrary'⟩ := h
  have hleast : IsLeast (t.ranks ms library) (sInf (t.ranks ms library)) :=
    isLeast_csInf ⟨t.rank m', m', hm', hlibrary', rfl⟩
  obtain ⟨m, hm, rfl, hrank⟩ := hleast.1
  have hplace : t.place ms m.library = t.rank m := by
    refine place_eq_rank (hms m hm) hm fun a _ ha hlibrary => ?_
    rw [hrank]
    exact hleast.2 ⟨a, ha, hlibrary, rfl⟩
  rwa [hplace, hrank]

/-- The members that are asked for are arranged in the order of their ranks, and the
libraries that they need are linked in the order of their places, the least ranks of
members that need them.  There is one list of each kind, and it does not depend on
the order in which members are asked for or on how often they are. -/
theorem linked_exact (ht : t.Nodup) (hms : ∀ m ∈ ms, m ∈ t) :
    (t.linked ms).Nodup ∧
      (∀ library ∈ t.linked ms, IsLeast (t.ranks ms library) (t.place ms library)) ∧
      (∀ libraries, libraries = t.linked ms ↔
        (libraries.Pairwise fun a b => t.place ms a < t.place ms b) ∧
          ∀ library, library ∈ libraries ↔ ∃ m ∈ ms, m.library = library) ∧
      (∀ ms', (∀ m, m ∈ ms' ↔ m ∈ ms) →
        t.linked ms' = t.linked ms ∧ t.arrange ms' = t.arrange ms) ∧
      ∀ as, as = t.arrange ms ↔
        (as.Pairwise fun a b => t.rank a < t.rank b) ∧ ∀ m, m ∈ as ↔ m ∈ ms := by
  have hlinked : ∀ library, library ∈ t.linked ms ↔ ∃ m ∈ ms, m.library = library :=
    fun library => mem_linked_iff_of_subset hms
  have harrange : ∀ m, m ∈ t.arrange ms ↔ m ∈ ms := fun m => by
    rw [mem_arrange, and_iff_right_of_imp (hms m)]
  refine ⟨nodup_linked t ms, fun library h => isLeast_place hms ((hlinked library).mp h),
    fun libraries => ⟨?_, ?_⟩, fun ms' h => ⟨linked_congr h, arrange_congr h⟩,
    fun as => ⟨?_, ?_⟩⟩
  · rintro rfl
    exact ⟨pairwise_linked t ms, hlinked⟩
  · rintro ⟨hsorted, hmem⟩
    refine eq_of_pairwise_lt hsorted (pairwise_linked t ms) fun library => ?_
    rw [hmem, hlinked]
  · rintro rfl
    exact ⟨pairwise_arrange ht ms, harrange⟩
  · rintro ⟨hsorted, hmem⟩
    refine eq_of_pairwise_lt hsorted (pairwise_arrange ht ms) fun m => ?_
    rw [hmem, harrange]

/-- Members that are asked for backwards, one of them twice. -/
def repeated : List Member :=
  [⟨"adc", "hardware_adc"⟩, ⟨"gpio", "pico_stdlib"⟩, multicore, ⟨"gpio", "pico_stdlib"⟩]

theorem linked_exact_repeated :
    sdk.Nodup ∧ (∀ m ∈ repeated, m ∈ sdk) ∧
      sdk.linked repeated = ["pico_multicore", "pico_stdlib", "hardware_adc"] ∧
      sdk.linked repeated.reverse.dedup = sdk.linked repeated ∧
      sdk.arrange repeated = [multicore, ⟨"gpio", "pico_stdlib"⟩, ⟨"adc", "hardware_adc"⟩] := by
  have ht : sdk.Nodup := sdk_names_nodup.of_map
  have hms : ∀ m ∈ repeated, m ∈ sdk := by decide
  obtain ⟨-, -, hlinked, hsame, harrange⟩ := linked_exact ht hms
  refine ⟨ht, hms, ((hlinked _).mpr ⟨by decide, fun library => ?_⟩).symm,
    (hsame _ fun m => by simp).1, ((harrange _).mpr ⟨by decide, fun m => ?_⟩).symm⟩
  · simp only [repeated, List.mem_cons, List.not_mem_nil, or_false, exists_eq_or_imp,
      exists_eq_left]
    grind
  · simp only [repeated, List.mem_cons, List.not_mem_nil, or_false]
    grind

end SdkGlue.Catalog
