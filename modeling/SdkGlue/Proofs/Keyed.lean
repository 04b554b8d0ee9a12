import Mathlib.Data.List.Nodup
import SdkGlue.Keyed

/-!
# Look-ups and insertions in keyed lists

Where no key stands twice, a look-up finds exactly what is there, and entries put
in one after another stand in that order.
-/

namespace SdkGlue.Keyed

variable {κ υ : Type} {t : Keyed κ υ} {key : κ} {value : υ}

/-- Where no key stands twice, an entry has another key than those in front of it. -/
theorem not_mem_keys_of_nodup {front rest : List (κ × υ)} {e : κ × υ}
    (h : (keys (front ++ e :: rest)).Nodup) : e.1 ∉ keys front := by
  intro hmem
  rw [keys, List.map_append, List.map_cons, List.nodup_append] at h
  exact h.2.2 _ hmem _ List.mem_cons_self rfl

variable [DecidableEq κ]

theorem mem_of_get?_eq_some (h : t.get? key = some value) : (key, value) ∈ t := by
  obtain ⟨⟨k, v⟩, hfound, rfl⟩ := Option.map_eq_some_iff.mp h
  have hk : k = key := by simpa using List.find?_some hfound
  exact hk ▸ List.mem_of_find?_eq_some hfound

theorem get?_eq_some_iff_of_nodup (h : t.keys.Nodup) :
    t.get? key = some value ↔ (key, value) ∈ t := by
  refine ⟨mem_of_get?_eq_some, fun hmem => ?_⟩
  induction t with
  | nil => cases hmem
  | cons e t ih =>
      obtain ⟨k, v⟩ := e
      obtain ⟨hk, ht⟩ := List.nodup_cons.mp h
      rw [get?_cons]
      rcases List.mem_cons.mp hmem with heq | hmem
      · cases heq
        exact if_pos rfl
      · have hne : k ≠ key := by
          rintro rfl
          exact hk (List.mem_map.mpr ⟨_, hmem, rfl⟩)
        rw [if_neg hne]
        exact ih ht hmem

theorem get?_append (t u : Keyed κ υ) (key : κ) :
    get? (t ++ u) key = (t.get? key).or (u.get? key) := by
  rw [get?, List.find?_append, Option.map_or]
  rfl

theorem get?_eq_none_iff : t.get? key = none ↔ key ∉ t.keys := by
  rw [← get?_isSome_iff, Option.not_isSome_iff_eq_none]

theorem get?_eq_of_perm {u : Keyed κ υ} (h : t.keys.Nodup) (hperm : List.Perm u t) (key : κ) :
    u.get? key = t.get? key := by
  have hu : u.keys.Nodup := (hperm.map Prod.fst).nodup_iff.mpr h
  apply Option.ext
  intro value
  rw [get?_eq_some_iff_of_nodup hu, get?_eq_some_iff_of_nodup h, hperm.mem_iff]

theorem eq_or_mem_of_mem_keys_put {k : κ} (h : k ∈ (t.put key value).keys) :
    k = key ∨ k ∈ t.keys := by
  rw [keys_put] at h
  split at h
  · exact .inr h
  · rcases List.mem_append.mp h with h | h
    · exact .inr h
    · exact .inl (List.mem_singleton.mp h)

theorem put_of_not_mem (h : key ∉ t.keys) (value : υ) :
    t.put key value = t ++ [(key, value)] := by
  induction t with
  | nil => rfl
  | cons e t ih =>
      obtain ⟨hne, hrest⟩ : key ≠ e.1 ∧ key ∉ keys t := by simpa [keys] using h
      rw [put, if_neg (Ne.symm hne), ih hrest]
      rfl

/-- Values entered one after another under their keys. -/
def ofPairs (es : List (κ × υ)) : Keyed κ υ := es.foldl (fun t e => t.put e.1 e.2) []

theorem ofPairs_of_nodup {es : List (κ × υ)} (h : (es.map Prod.fst).Nodup) : ofPairs es = es := by
  -- the entries that stand already are those in front of the ones that follow
  suffices hfold : ∀ (rest front : List (κ × υ)), ((front ++ rest).map Prod.fst).Nodup →
      rest.foldl (fun t e => put e.1 e.2 t) front = front ++ rest from hfold es [] h
  intro rest
  induction rest with
  | nil => simp
  | cons e rest ih =>
      intro front hnodup
      have hnew : e.1 ∉ keys front := not_mem_keys_of_nodup hnodup
      rw [List.append_cons] at hnodup
      rw [List.foldl_cons, put_of_not_mem hnew, ih _ hnodup, ← List.append_cons]

end SdkGlue.Keyed
