import SdkGlue.Proofs.Store.Enter

/-!
# Walks in a changed store

A walk through directories survives every change that keeps the links and
directories.  In a store that lost entries a walk finds what it found before or
nothing, and a file, also one behind a link, is on nobody's way.
-/

namespace SdkGlue.Store

/-- The store `t` is what removals left of `s`. -/
def Within (t s : Store) : Prop :=
  t.cwd = s.cwd ∧ ∀ loc, t.find? loc = none ∨ t.find? loc = s.find? loc

/-- Every link and every directory of `s` stands in `t` as well. -/
def KeepsWays (s t : Store) : Prop :=
  ∀ loc e, s.find? loc = some e → e.kind ≠ .file → t.find? loc = some e

/-- The store without the entries at some locations. -/
def without (s : Store) (gone : List Location) : Store := gone.foldl remove s

/-- The content of the regular file that a name in a directory leads to. -/
def contentIn? (s : Store) (dir : Location) (name : String) : Option (List UInt8) :=
  match s.walk .target maxLinks dir [name] with
  | .ok (.entry _ (.file bytes)) => some bytes
  | _ => none

variable {s t u : Store} {aim : Aim} {n : Nat} {loc dir : Location} {name : String}
  {rest : List String}

theorem find?_remove (s : Store) (gone : Location) (h : loc ≠ []) :
    (s.remove gone).find? loc = if gone = loc then none else s.find? loc := by
  cases gone with
  | nil => simp [find?, remove, h]
  | cons name dir => exact find?_remove_cons s name dir loc

theorem find?_remove_ne (s : Store) {gone : Location} (h : gone ≠ loc) :
    (s.remove gone).find? loc = s.find? loc := by
  by_cases hroot : loc = []
  · subst hroot
    rfl
  · rw [find?_remove s gone hroot, if_neg h]

namespace Within

theorem refl (s : Store) : Within s s := ⟨rfl, fun _ => .inr rfl⟩

theorem trans (h : Within t s) (h' : Within u t) : Within u s := by
  refine ⟨h'.1.trans h.1, fun loc => ?_⟩
  rcases h'.2 loc with hu | hu
  · exact .inl hu
  · exact hu ▸ h.2 loc

theorem remove (s : Store) (gone : Location) : Within (s.remove gone) s := by
  refine ⟨rfl, fun loc => ?_⟩
  by_cases h : gone = loc
  · subst h
    by_cases hroot : gone = []
    · exact .inr (by subst hroot; rfl)
    · exact .inl (by rw [find?_remove s gone hroot, if_pos rfl])
  · exact .inr (find?_remove_ne s h)

theorem find? (h : Within t s) {e : Entry} (he : t.find? loc = some e) :
    s.find? loc = some e := by
  rcases h.2 loc with hn | hs
  · rw [hn] at he
    cases he
  · rwa [hs] at he

theorem keepsWays (h : Within t s) : KeepsWays t s := fun _ _ he _ => h.find? he

end Within

@[simp] theorem without_cons (s : Store) (gone : Location) (more : List Location) :
    s.without (gone :: more) = (s.remove gone).without more := rfl

theorem without_append (s : Store) (gone more : List Location) :
    s.without (gone ++ more) = (s.without gone).without more :=
  List.foldl_append

theorem find?_without (s : Store) (gone : List Location) (h : loc ≠ []) :
    (s.without gone).find? loc = if loc ∈ gone then none else s.find? loc := by
  induction gone generalizing s with
  | nil => rfl
  | cons l gone ih =>
      rw [without_cons, ih, find?_remove s l h]
      by_cases hl : l = loc
      · simp [hl]
      · simp [hl, Ne.symm hl]

theorem find?_without_of_not_mem (s : Store) {gone : List Location} (h : loc ∉ gone) :
    (s.without gone).find? loc = s.find? loc := by
  by_cases hroot : loc = []
  · rw [hroot, find?_root, find?_root]
  · rw [find?_without s gone hroot, if_neg h]

/-- Locations that held entries are those whose entries disappeared. -/
theorem mem_iff_of_without {gone : List Location}
    (h : ∀ loc ∈ gone, loc ≠ [] ∧ s.find? loc ≠ none) (loc : Location) :
    loc ∈ gone ↔ s.find? loc ≠ none ∧ (s.without gone).find? loc = none := by
  constructor
  · intro hloc
    obtain ⟨hroot, hstood⟩ := h loc hloc
    exact ⟨hstood, by rw [find?_without s gone hroot, if_pos hloc]⟩
  · rintro ⟨hstood, hgone⟩
    apply Decidable.of_not_not
    intro hloc
    rw [find?_without_of_not_mem s hloc] at hgone
    exact hstood hgone

theorem within_without (s : Store) (gone : List Location) : Within (s.without gone) s := by
  induction gone generalizing s with
  | nil => exact Within.refl s
  | cons l gone ih => exact (Within.remove s l).trans (ih (s.remove l))

/-! ## What stands at the end of a walk -/

theorem find?_of_walk {e : Entry} (h : s.walk aim n loc rest = .ok (.entry dir e))
    (he : e ≠ .directory) : s.find? dir = some e := by
  induction n, loc, rest using walk_induction s with
  | nil n loc => simp_all
  | stay n loc name rest hs ih => exact ih (by simpa only [walk_stay hs] using h)
  | up n loc rest ih => exact ih (by simpa only [walk_up] using h)
  | long n loc name rest hp hl => simp [walk_long hp hl (refuses_of_walk hp h)] at h
  | missing n loc name rest hp hl hf =>
      simp only [walk_plain hp hl (refuses_of_walk hp h), hf] at h
      split at h <;> cases h
  | file n loc name rest bytes hp hl hf =>
      simp only [walk_plain hp hl (refuses_of_walk hp h), hf] at h
      split at h <;> cases h
      exact hf
  | down n loc name rest hp hl hf ih => exact ih (by simpa only [walk_plain hp hl (refuses_of_walk hp h), hf] using h)
  | loop loc name rest target hp hl hf =>
      simp only [walk_plain hp hl (refuses_of_walk hp h), hf] at h
      split at h <;> cases h
      exact hf
  | follow n loc name rest target hp hl hf ih =>
      simp only [walk_plain hp hl (refuses_of_walk hp h), hf] at h
      split at h
      · cases h
        exact hf
      · exact ih h

theorem find?_of_walk_vacant (h : s.walk aim n loc rest = .ok (.vacant dir name)) :
    s.find? (name :: dir) = none := by
  induction n, loc, rest using walk_induction s with
  | nil n loc => simp_all
  | stay n loc name rest hs ih => exact ih (by simpa only [walk_stay hs] using h)
  | up n loc rest ih => exact ih (by simpa only [walk_up] using h)
  | long n loc name rest hp hl => simp [walk_long hp hl (refuses_of_walk hp h)] at h
  | missing n loc name rest hp hl hf =>
      simp only [walk_plain hp hl (refuses_of_walk hp h), hf] at h
      split at h <;> cases h
      exact hf
  | file n loc name rest bytes hp hl hf =>
      simp only [walk_plain hp hl (refuses_of_walk hp h), hf] at h
      split at h <;> cases h
  | down n loc name rest hp hl hf ih => exact ih (by simpa only [walk_plain hp hl (refuses_of_walk hp h), hf] using h)
  | loop loc name rest target hp hl hf =>
      simp only [walk_plain hp hl (refuses_of_walk hp h), hf] at h
      split at h <;> cases h
  | follow n loc name rest target hp hl hf ih =>
      simp only [walk_plain hp hl (refuses_of_walk hp h), hf] at h
      split at h
      · cases h
      · exact ih h

/-! ## Walks in the other store -/

theorem KeepsWays.enter (hk : KeepsWays s t) {r : Nat × Location}
    (h : s.enter n loc rest = .ok r) : t.enter n loc rest = .ok r := by
  induction n, loc, rest using walk_induction s with
  | nil n loc => simpa using h
  | stay n loc name rest hs ih =>
      rw [enter_stay hs] at h ⊢
      exact ih h
  | up n loc rest ih =>
      rw [enter_up] at h ⊢
      exact ih h
  | long n loc name rest hp hl => simp [enter_long hp hl] at h
  | missing n loc name rest hp hl hf => simp [enter_plain hp hl, hf] at h
  | file n loc name rest bytes hp hl hf => simp [enter_plain hp hl, hf] at h
  | down n loc name rest hp hl hf ih =>
      have ht := hk _ _ hf (by simp [Entry.kind])
      simp only [enter_plain hp hl, hf, ht] at h ⊢
      exact ih h
  | loop loc name rest target hp hl hf => simp [enter_plain hp hl, hf] at h
  | follow n loc name rest target hp hl hf ih =>
      have ht := hk _ _ hf (by simp [Entry.kind])
      simp only [enter_plain hp hl, hf, ht, leap_succ] at h ⊢
      exact ih h

/-- A walk that led nowhere. -/
def Lost (r : Except Cause Place) : Prop :=
  r = .error .missing ∨ ∃ dir name, r = .ok (.vacant dir name)

/-- Where entries are gone, a walk comes to the same as before or to nothing. -/
theorem Within.walk (hw : Within t s) (haim : aim ≠ .writing) :
    t.walk aim n loc rest = s.walk aim n loc rest ∨ Lost (t.walk aim n loc rest) := by
  have hr : ∀ rest, aim.refuses rest = false := by simp [Aim.refuses, haim]
  have hgone : ∀ {n loc name rest}, IsPlain name → name.utf8ByteSize ≤ maxName →
      t.find? (name :: loc) = none → Lost (t.walk aim n loc (name :: rest)) := by
    intro n loc name rest hp hl hn
    simp only [walk_plain hp hl (hr rest), hn]
    split
    · exact .inr ⟨_, _, rfl⟩
    · exact .inl rfl
  induction n, loc, rest using walk_induction s with
  | nil n loc => simp
  | stay n loc name rest hs ih => simpa only [walk_stay hs] using ih
  | up n loc rest ih => simpa only [walk_up] using ih
  | long n loc name rest hp hl => simp [walk_long hp hl (hr rest)]
  | missing n loc name rest hp hl hf =>
      rcases hw.2 (name :: loc) with hn | hn
      · exact .inr (hgone hp hl hn)
      · exact .inr (hgone hp hl (hn.trans hf))
  | file n loc name rest bytes hp hl hf =>
      rcases hw.2 (name :: loc) with hn | hn
      · exact .inr (hgone hp hl hn)
      · exact .inl (by simp only [walk_plain hp hl (hr rest), hn, hf])
  | down n loc name rest hp hl hf ih =>
      rcases hw.2 (name :: loc) with hn | hn
      · exact .inr (hgone hp hl hn)
      · simpa only [walk_plain hp hl (hr rest), hn, hf] using ih
  | loop loc name rest target hp hl hf =>
      rcases hw.2 (name :: loc) with hn | hn
      · exact .inr (hgone hp hl hn)
      · exact .inl (by simp only [walk_plain hp hl (hr rest), hn, hf, leap_zero])
  | follow n loc name rest target hp hl hf ih =>
      rcases hw.2 (name :: loc) with hn | hn
      · exact .inr (hgone hp hl hn)
      · simp only [walk_plain hp hl (hr rest), hn, hf, leap_succ]
        split
        · exact .inl rfl
        · exact ih

theorem Within.resolve (hw : Within t s) (haim : aim ≠ .writing) (path : String) :
    t.resolve aim path = s.resolve aim path ∨ Lost (t.resolve aim path) := by
  unfold Store.resolve
  split
  · exact .inl rfl
  · split
    · exact .inl rfl
    · rw [hw.1]
      exact hw.walk haim

theorem Within.kindAt (hw : Within t s) (path : String) :
    t.kindAt path = s.kindAt path ∨ t.kindAt path = .error .missing := by
  rcases hw.resolve (by simp : Aim.target ≠ .writing) path with h | h | ⟨dir, name, h⟩
  · exact .inl (by simp only [Store.kindAt, h])
  · exact .inr (by simp only [Store.kindAt, h]; rfl)
  · exact .inr (by simp only [Store.kindAt, h]; rfl)

/-- A name in a directory leads to a file, within the links left. -/
def IsFileIn (s : Store) (k : Nat) (dir : Location) (name : String) : Prop :=
  ∃ loc bytes, s.walk .target k dir [name] = .ok (.entry loc (.file bytes))

/-- Removals make no file. -/
theorem Within.isFileIn {k : Nat} (hw : Within t s) (h : t.IsFileIn k dir name) :
    s.IsFileIn k dir name := by
  obtain ⟨loc, bytes, hwalk⟩ := h
  rcases hw.walk (by simp : Aim.target ≠ .writing) with hsame | hlost | ⟨d, n, hlost⟩
  · exact ⟨loc, bytes, hsame.symm.trans hwalk⟩
  · cases hwalk.symm.trans hlost
  · cases hwalk.symm.trans hlost

theorem IsFileIn.of_le {k m : Nat} (h : s.IsFileIn k dir name) (hkm : k ≤ m) :
    s.IsFileIn m dir name := by
  obtain ⟨loc, bytes, hwalk⟩ := h
  exact ⟨loc, bytes, (walk_more_links (by simp [hwalk]) hkm).trans hwalk⟩

theorem contentIn?_of_walk {k : Nat} {bytes : List UInt8} (hk : k ≤ maxLinks)
    (h : s.walk .target k dir [name] = .ok (.entry loc (.file bytes))) :
    s.contentIn? dir name = some bytes := by
  have hloop : s.walk .target k dir [name] ≠ .error .linkLoop := by simp [h]
  simp [contentIn?, walk_more_links hloop hk, h]

theorem IsFileIn.contentIn? {k : Nat} (h : s.IsFileIn k dir name) (hk : k ≤ maxLinks) :
    (s.contentIn? dir name).isSome := by
  obtain ⟨loc, bytes, hw⟩ := h
  rw [contentIn?_of_walk hk hw]
  rfl

/-- A link that a walk passed does not lead to a file. -/
theorem contentIn?_of_enter_link {target : String} (hp : IsPlain name)
    (hl : name.utf8ByteSize ≤ maxName) (hf : s.find? (name :: dir) = some (.link target))
    (hn : n < maxLinks) {r : Nat × Location}
    (h : s.enter n (startOf target dir) (components target ++ rest) = .ok r) :
    s.contentIn? dir name = none := by
  rw [enter_append] at h
  match hd : s.enter n (startOf target dir) (components target) with
  | .error c =>
      rw [hd] at h
      cases h
  | .ok (k, d) =>
      have hdir := walk_target_directory_iff.mpr ⟨k, hd⟩
      have hmore : s.walk .target 39 (startOf target dir) (components target) =
          .ok (.entry d .directory) := by
        rw [walk_more_links (by simp [hdir]) (Nat.le_of_lt_succ hn), hdir]
      simp [contentIn?, walk_plain hp hl, hf, Aim.follows, maxLinks, hmore]

/-- A name that leads to a file is passed by no walk to a directory, so such a
walk does not notice that it is removed. -/
theorem enter_remove_of_content (hc : (s.contentIn? dir name).isSome) (hn : n ≤ maxLinks)
    {r : Nat × Location} (h : s.enter n loc rest = .ok r) :
    (s.remove (name :: dir)).enter n loc rest = .ok r := by
  induction n, loc, rest using walk_induction s with
  | nil n loc => simpa using h
  | stay n loc name' rest hs ih =>
      rw [enter_stay hs] at h ⊢
      exact ih hn h
  | up n loc rest ih =>
      rw [enter_up] at h ⊢
      exact ih hn h
  | long n loc name' rest hp hl => simp [enter_long hp hl] at h
  | missing n loc name' rest hp hl hf => simp [enter_plain hp hl, hf] at h
  | file n loc name' rest bytes hp hl hf => simp [enter_plain hp hl, hf] at h
  | down n loc name' rest hp hl hf ih =>
      have hne : name :: dir ≠ name' :: loc := by
        rintro ⟨⟩
        simp [contentIn?, walk_plain hp hl, hf] at hc
      have ht := (find?_remove_ne s hne).trans hf
      simp only [enter_plain hp hl, hf, ht] at h ⊢
      exact ih hn h
  | loop loc name' rest target hp hl hf => simp [enter_plain hp hl, hf] at h
  | follow n loc name' rest target hp hl hf ih =>
      simp only [enter_plain hp hl, hf, leap_succ] at h
      have hne : name :: dir ≠ name' :: loc := by
        rintro ⟨⟩
        simp [contentIn?_of_enter_link hp hl hf hn h] at hc
      have ht := (find?_remove_ne s hne).trans hf
      simp only [enter_plain hp hl, ht, leap_succ]
      exact ih (Nat.le_of_succ_le hn) h

end SdkGlue.Store
