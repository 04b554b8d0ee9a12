import SdkGlue.Proofs.Catalog.Libraries
import SdkGlue.Proofs.Keyed

/-!
# The keys of members

A key stands once in the index of a catalog, so the keys of a member are the
names that mean it.  Every key is the name or the library of a member.
-/

namespace SdkGlue

namespace Catalog

variable {t : Catalog} {m : Member} {key : String}

theorem nodup_keys_index (t : Catalog) : (Keyed.keys t.index).Nodup :=
  index_induction List.nodup_nil fun m _ key _ _ h => Keyed.nodup_keys_put h key m

theorem mem_keysOf_iff : key ∈ t.keysOf m ↔ t.find? key = some m := by
  rw [find?, Keyed.get?_eq_some_iff_of_nodup (nodup_keys_index t)]
  simp [keysOf]

theorem mem_keys_of_mem_keysOf (h : key ∈ t.keysOf m) : key ∈ Keyed.keys t.index := by
  obtain ⟨e, he, rfl⟩ := List.mem_map.mp h
  exact List.mem_map_of_mem (List.mem_filter.mp he).1

theorem mem_keys_index (h : key ∈ Keyed.keys t.index) :
    ∃ m ∈ t, key = m.name ∨ key = m.library := by
  have hall : ∀ key ∈ Keyed.keys t.index, ∃ m ∈ t, key = m.name ∨ key = m.library := by
    refine index_induction (fun key hkey => ?_) fun m hm key hkey index ih k hk => ?_
    · cases hkey
    · rcases Keyed.eq_or_mem_of_mem_keys_put hk with rfl | hk
      · exact ⟨m, hm, hkey⟩
      · exact ih k hk
  exact hall key h

end Catalog

end SdkGlue
