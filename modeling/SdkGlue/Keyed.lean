/-!
# Keyed lists

A list of keys and values in the order in which the keys first came up.  A
look-up takes the first entry; `put` keeps one entry a key.
-/

namespace SdkGlue

/-- Keys and values in insertion order. -/
abbrev Keyed (κ υ : Type) := List (κ × υ)

namespace Keyed

variable {κ υ : Type} [DecidableEq κ]

def get? (t : Keyed κ υ) (key : κ) : Option υ := (t.find? (·.1 = key)).map (·.2)

/-- Puts a value under a key: in place when the key is there, else at the end. -/
def put (key : κ) (value : υ) : Keyed κ υ → Keyed κ υ
  | [] => [(key, value)]
  | (k, v) :: rest => if k = key then (k, value) :: rest else (k, v) :: put key value rest

def erase (key : κ) (t : Keyed κ υ) : Keyed κ υ := t.filter (·.1 ≠ key)

def keys (t : Keyed κ υ) : List κ := t.map (·.1)

@[simp] theorem get?_nil (k : κ) : get? ([] : Keyed κ υ) k = none := rfl

@[simp] theorem get?_cons (k : κ) (v : υ) (t : Keyed κ υ) (key : κ) :
    get? ((k, v) :: t) key = if k = key then some v else get? t key := by
  by_cases h : k = key <;> simp [get?, h]

@[simp] theorem get?_put (t : Keyed κ υ) (key : κ) (value : υ) (k : κ) :
    (t.put key value).get? k = if key = k then some value else t.get? k := by
  induction t with
  | nil => simp [put]
  | cons e t ih =>
      obtain ⟨k', v⟩ := e
      by_cases hk : k' = key
      · subst hk; by_cases h : k' = k <;> simp [put, h]
      · by_cases h : k' = k
        · subst h; simp [put, hk, Ne.symm hk]
        · simp [put, hk, h, ih]

@[simp] theorem get?_erase (t : Keyed κ υ) (key k : κ) :
    (t.erase key).get? k = if key = k then none else t.get? k := by
  induction t with
  | nil => simp [erase]
  | cons e t ih =>
      obtain ⟨k', v⟩ := e
      by_cases hk : k' = key
      · subst hk
        by_cases h : k' = k
        · subst h; simpa [erase] using ih
        · simpa [erase, h] using ih
      · by_cases h : k' = k
        · subst h; simp [erase, hk, Ne.symm hk]
        · simpa [erase, hk, h] using ih

theorem get?_isSome_iff {t : Keyed κ υ} {key : κ} : (t.get? key).isSome ↔ key ∈ t.keys := by
  simp [get?, keys]

theorem keys_put (t : Keyed κ υ) (key : κ) (value : υ) :
    (t.put key value).keys = if key ∈ t.keys then t.keys else t.keys ++ [key] := by
  induction t with
  | nil => simp [put, keys]
  | cons e t ih =>
      obtain ⟨k, v⟩ := e
      by_cases hk : k = key
      · subst hk; simp [put, keys]
      · have : (put key value t).map (·.1) =
            if key ∈ t.map (·.1) then t.map (·.1) else t.map (·.1) ++ [key] := ih
        simp only [put, keys, hk, if_false, List.map_cons, this, List.mem_cons, Ne.symm hk,
          false_or]
        split <;> simp

theorem nodup_keys_put {t : Keyed κ υ} (h : t.keys.Nodup) (key : κ) (value : υ) :
    (t.put key value).keys.Nodup := by
  rw [keys_put]
  split
  · exact h
  · next hk =>
      rw [List.nodup_append]
      exact ⟨h, by simp, fun a ha b hb => by rintro rfl; simp_all⟩

theorem nodup_keys_erase {t : Keyed κ υ} (h : t.keys.Nodup) (key : κ) :
    (t.erase key).keys.Nodup :=
  List.Nodup.sublist (List.filter_sublist.map _) h

end Keyed

end SdkGlue
