import SdkGlue.Proofs.Store.Entries

/-!
# Putting and taking away at one location

What was put at a location and taken away again leaves the store as it was, in
the same order.  A listing of names that are none of those changed does not
notice the change.
-/

namespace SdkGlue

namespace Keyed

variable {κ υ : Type} [DecidableEq κ]

theorem erase_of_not_mem {t : Keyed κ υ} {key : κ} (h : key ∉ t.keys) : t.erase key = t := by
  apply List.filter_eq_self.mpr
  intro e he
  have hne : e.1 ≠ key := by
    rintro rfl
    exact h (List.mem_map.mpr ⟨e, he, rfl⟩)
  simpa using hne

@[simp] theorem erase_put (t : Keyed κ υ) (key : κ) (value : υ) :
    (t.put key value).erase key = t.erase key := by
  induction t with
  | nil => simp [put, erase]
  | cons e t ih =>
      obtain ⟨k, v⟩ := e
      by_cases hk : k = key
      · simp [put, erase, hk]
      · simpa [put, erase, hk] using ih

end Keyed

namespace Store

variable {s t : Store} {loc dir : Location} {name : String} {e : Entry}

theorem eq_of_entries (h : s.entries = t.entries) (hcwd : s.cwd = t.cwd) : s = t := by
  cases s
  cases t
  cases h
  cases hcwd
  rfl

@[simp] theorem remove_set (s : Store) (loc : Location) (e : Entry) :
    (s.set loc e).remove loc = s.remove loc :=
  eq_of_entries (Keyed.erase_put s.entries loc e) rfl

theorem remove_of_find?_eq_none (h : s.find? loc = none) : s.remove loc = s := by
  refine eq_of_entries (Keyed.erase_of_not_mem fun hmem => ?_) rfl
  by_cases hloc : loc = []
  · subst hloc
    cases h
  · rw [find?, if_neg hloc] at h
    have hsome := Keyed.get?_isSome_iff.mpr hmem
    rw [h] at hsome
    cases hsome

/-- A listing of names that `q` picks does not notice that others are taken away. -/
theorem filter_children_remove (s : Store) (q : String → Bool)
    (h : ∀ name, loc = name :: dir → q name = false) :
    ((s.remove loc).children dir).filter (fun e => q e.1) =
      (s.children dir).filter fun e => q e.1 := by
  dsimp only [children, remove, Keyed.erase]
  induction s.entries with
  | nil => rfl
  | cons a t ih =>
      obtain ⟨l, e⟩ := a
      match l with
      | [] => by_cases hl : [] = loc <;> simp_all
      | n :: parent =>
          by_cases hl : n :: parent = loc
          · subst hl
            by_cases hp : parent = dir
            · simp_all
            · simp_all
          · by_cases hp : parent = dir
            · by_cases hq : q n <;> simp_all
            · simp_all

theorem filter_children_set (s : Store) (q : String → Bool)
    (h : ∀ name, loc = name :: dir → q name = false) (e : Entry) :
    ((s.set loc e).children dir).filter (fun e => q e.1) =
      (s.children dir).filter fun e => q e.1 := by
  rw [← filter_children_remove (s.set loc e) q h, remove_set, filter_children_remove s q h]

end Store

end SdkGlue
