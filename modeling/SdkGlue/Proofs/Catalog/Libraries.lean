import SdkGlue.Catalog.Sdk

/-!
# Libraries behind members

Every name that means something means a member of the catalog.  The libraries
behind members are listed once each, and none but these.
-/

namespace SdkGlue.Catalog

variable {t : Catalog} {ms : List Member} {m : Member} {name library : String}

theorem enter_induction {motive : Index → Prop} {seen : List String} {index : Index}
    (hindex : motive index)
    (hput : ∀ m ∈ t, ∀ key, key = m.name ∨ key = m.library → ∀ index, motive index →
      motive (Keyed.put key m index)) : motive (enter t seen index) := by
  induction t generalizing seen index with
  | nil => exact hindex
  | cons m t ih =>
      have hnamed := hput m List.mem_cons_self m.name (.inl rfl) index hindex
      have hlater : ∀ m' ∈ t, ∀ key, key = m'.name ∨ key = m'.library → ∀ index, motive index →
          motive (Keyed.put key m' index) := fun m' hm' => hput m' (List.mem_cons_of_mem m hm')
      rw [enter]
      split
      · exact ih hnamed hlater
      · refine ih ?_ hlater
        unfold Index.putNew
        split
        · exact hnamed
        · exact hput m List.mem_cons_self m.library (.inr rfl) _ hnamed

/-- An index is made of entries of members under their names and libraries. -/
@[elab_as_elim]
theorem index_induction {motive : Index → Prop} (hnil : motive [])
    (hput : ∀ m ∈ t, ∀ key, key = m.name ∨ key = m.library → ∀ index, motive index →
      motive (Keyed.put key m index)) : motive t.index :=
  enter_induction hnil hput

theorem mem_of_find? (h : t.find? name = some m) : m ∈ t := by
  have hall : ∀ name m, Keyed.get? t.index name = some m → m ∈ t := by
    refine index_induction (fun name m hget => ?_) fun d hd key _ index ih name m hget => ?_
    · cases hget
    · rw [Keyed.get?_put] at hget
      split at hget
      · cases hget
        exact hd
      · exact ih name m hget
  exact hall name m h

theorem filter_eraseDups (p : String → Bool) (names : List String) :
    (names.filter p).eraseDups = names.eraseDups.filter p := by
  induction hn : names.length using Nat.strongRecOn generalizing names with
  | ind n ih =>
      cases names with
      | nil => rfl
      | cons a names =>
          have hlen := List.length_filter_le (fun b => !b == a) names
          have hrest := ih _ (by rw [← hn, List.length_cons]; omega)
            (names.filter fun b => !b == a) rfl
          rw [List.eraseDups_cons, List.filter_cons, List.filter_cons, ← hrest, List.filter_filter]
          split
          · rw [List.eraseDups_cons, List.filter_filter]
            simp only [Bool.and_comm]
          · next ha =>
              -- whatever passes the test differs from `a`
              congr 1
              apply List.filter_congr
              intro b _
              cases hb : p b with
              | false => rfl
              | true =>
                  have hne : (b == a) = false := by
                    apply beq_eq_false_iff_ne.mpr
                    rintro rfl
                    exact ha hb
                  rw [hne]
                  rfl

theorem nodup_eraseDups (names : List String) : names.eraseDups.Nodup := by
  induction names with
  | nil => exact List.nodup_nil
  | cons a names ih =>
      rw [List.eraseDups_cons, filter_eraseDups, List.nodup_cons]
      exact ⟨by simp, ih.filter _⟩

theorem nodup_linked (t : Catalog) (ms : List Member) : (t.linked ms).Nodup :=
  nodup_eraseDups _

theorem mem_linked_iff : library ∈ t.linked ms ↔ ∃ m ∈ t, m ∈ ms ∧ m.library = library := by
  simp [linked, and_assoc]

theorem mem_linked_iff_of_subset (hms : ∀ m ∈ ms, m ∈ t) :
    library ∈ t.linked ms ↔ ∃ m ∈ ms, m.library = library := by
  rw [mem_linked_iff]
  constructor
  · rintro ⟨m, -, hm, rfl⟩
    exact ⟨m, hm, rfl⟩
  · rintro ⟨m, hm, rfl⟩
    exact ⟨m, hms m hm, hm, rfl⟩

end SdkGlue.Catalog
