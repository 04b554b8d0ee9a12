import SdkGlue.Proofs.Store.Access
import SdkGlue.Proofs.Store.Entries

/-!
# Directories stay

No operation makes a directory or takes one away, and where there is no link
none comes up.  Without links it is the directories that say which location a
path names, so a path names the same location all the time.
-/

namespace SdkGlue

def Place.location : Place → Location
  | .entry loc _ => loc
  | .vacant dir name => name :: dir

namespace Store

/-- The store `t` has the directories of `s`. -/
structure SameDirectories (t s : Store) : Prop where
  cwd : t.cwd = s.cwd
  directory_iff : ∀ loc, t.find? loc = some .directory ↔ s.find? loc = some .directory

/-- The location that a path names, taken or free; a link at the end of the path
is not followed. -/
def locate? (s : Store) (path : String) : Option Location :=
  (s.resolve .entry path).toOption.map Place.location

variable {s t u : Store} {path source target name : String} {loc : Location} {e : Entry} {n : Nat}
  {rest : List String}

theorem ne_nil_of_find?_ne (h : s.find? loc ≠ some .directory) : loc ≠ [] := by
  rintro rfl
  exact h rfl

namespace SameDirectories

theorem refl (s : Store) : SameDirectories s s := ⟨rfl, fun _ => Iff.rfl⟩

theorem trans (h : SameDirectories t s) (h' : SameDirectories u t) : SameDirectories u s :=
  ⟨h'.cwd.trans h.cwd, fun loc => (h'.directory_iff loc).trans (h.directory_iff loc)⟩

theorem remove (h : s.find? loc ≠ some .directory) : SameDirectories (s.remove loc) s := by
  refine ⟨rfl, fun l => ?_⟩
  by_cases hl : loc = l
  · subst hl
    rw [find?_remove s loc (ne_nil_of_find?_ne h), if_pos rfl]
    exact ⟨nofun, fun hdir => absurd hdir h⟩
  · rw [find?_remove_ne s hl]

theorem set (h : s.find? loc ≠ some .directory) (he : e ≠ .directory) :
    SameDirectories (s.set loc e) s := by
  refine ⟨rfl, fun l => ?_⟩
  rw [find?_set s (ne_nil_of_find?_ne h)]
  split
  · next hl =>
      subst hl
      exact ⟨fun hdir => absurd (Option.some.inj hdir) he, fun hdir => absurd hdir h⟩
  · exact Iff.rfl

end SameDirectories

theorem Linkless.set (hs : s.Linkless) (hloc : loc ≠ []) (he : ∀ target, e ≠ .link target) :
    (s.set loc e).Linkless := by
  intro l target hfind
  rw [find?_set s hloc] at hfind
  split at hfind
  · exact he target (Option.some.inj hfind)
  · exact hs l target hfind

/-! ## Operations that change a store -/

theorem find?_of_unlink (h : s.unlink path = .ok t) :
    ∃ loc e, s.find? loc = some e ∧ e ≠ .directory ∧ t = s.remove loc := by
  obtain ⟨loc, e, hr, he, rfl⟩ := unlink_eq_ok_iff.mp h
  exact ⟨loc, e, find?_of_walk (walk_of_resolve hr) he, he, rfl⟩

theorem TakesFile.ne_directory (h : s.TakesFile loc) : s.find? loc ≠ some .directory := by
  intro hdir
  cases h.kind_eq hdir

/-- What is moved is no directory, and takes no directory's place. -/
theorem find?_of_rename (h : s.rename source target = .ok t) :
    t = s ∨ ∃ loc loc' e, s.find? loc = some e ∧ e ≠ .directory ∧
      s.find? loc' ≠ some .directory ∧ t = (s.remove loc).set loc' e := by
  obtain ⟨loc, e, place, hsource, he, htarget, hmove⟩ := rename_eq_ok_iff.mp h
  have hfind := find?_of_walk (walk_of_resolve hsource) he
  have hover : ∀ {loc' e'}, place = .entry loc' e' → e' ≠ .directory →
      t = (if loc = loc' then s else (s.remove loc).set loc' e) →
      t = s ∨ ∃ loc loc' e, s.find? loc = some e ∧ e ≠ .directory ∧
        s.find? loc' ≠ some .directory ∧ t = (s.remove loc).set loc' e := by
    rintro loc' e' rfl he' rfl
    have hfind' := find?_of_walk (walk_of_resolve htarget) he'
    split
    · exact .inl rfl
    · exact .inr ⟨loc, loc', e, hfind, he, by simpa [hfind'] using he', rfl⟩
  match place with
  | .vacant dir name =>
      have hfree := find?_of_walk_vacant (walk_of_resolve htarget)
      cases hmove
      exact .inr ⟨loc, name :: dir, e, hfind, he, by simp [hfree], rfl⟩
  | .entry loc' .directory => cases hmove
  | .entry loc' (.file old) => exact hover rfl (by simp) (Except.ok.inj hmove).symm
  | .entry loc' (.link target') => exact hover rfl (by simp) (Except.ok.inj hmove).symm

/-! ## Paths in stores without links -/

/-- Where neither a directory nor a link stands a walk has to end. -/
theorem walk_location_of_end (hp : IsPlain name) (hl : name.utf8ByteSize ≤ maxName)
    (hs : s.Linkless) (hdir : s.find? (name :: loc) ≠ some .directory) :
    (s.walk .entry n loc (name :: rest)).toOption.map Place.location =
      if rest = [] then some (name :: loc) else none := by
  have hlocation : ∀ place c, place.location = name :: loc →
      (if rest = [] then .ok place else .error c : Except Cause Place).toOption.map
          Place.location = if rest = [] then some (name :: loc) else none := by
    rintro place c hplace
    by_cases hrest : rest = []
    · simp [hrest, Except.toOption, hplace]
    · simp [hrest, Except.toOption]
  match hf : s.find? (name :: loc) with
  | none =>
      simp only [walk_plain hp hl (Aim.refuses_entry rest), hf]
      exact hlocation _ _ rfl
  | some (.file bytes) =>
      simp only [walk_plain hp hl (Aim.refuses_entry rest), hf]
      exact hlocation _ _ rfl
  | some (.link target) => exact absurd hf (hs _ target)
  | some .directory => exact absurd hf hdir

namespace SameDirectories

/-- Without links the directories say which location a walk comes to. -/
theorem walk_location (h : SameDirectories t s) (hs : s.Linkless) (ht : t.Linkless)
    (n : Nat) (loc : Location) (rest : List String) :
    (t.walk .entry n loc rest).toOption.map Place.location =
      (s.walk .entry n loc rest).toOption.map Place.location := by
  have hend : ∀ {n loc name rest}, IsPlain name → name.utf8ByteSize ≤ maxName →
      s.find? (name :: loc) ≠ some .directory →
      (t.walk .entry n loc (name :: rest)).toOption.map Place.location =
        (s.walk .entry n loc (name :: rest)).toOption.map Place.location := by
    intro n loc name rest hp hl hdir
    rw [walk_location_of_end hp hl hs hdir, walk_location_of_end hp hl ht]
    exact fun hdir' => hdir ((h.directory_iff _).mp hdir')
  induction n, loc, rest using walk_induction s with
  | nil n loc => simp
  | stay n loc name rest hstay ih => simpa only [walk_stay hstay] using ih
  | up n loc rest ih => simpa only [walk_up] using ih
  | long n loc name rest hp hl => simp only [walk_long hp hl (Aim.refuses_entry rest)]
  | missing n loc name rest hp hl hf => exact hend hp hl (by simp [hf])
  | file n loc name rest bytes hp hl hf => exact hend hp hl (by simp [hf])
  | down n loc name rest hp hl hf ih =>
      have hdir := (h.directory_iff (name :: loc)).mpr hf
      simpa only [walk_plain hp hl (Aim.refuses_entry rest), hf, hdir] using ih
  | loop loc name rest target hp hl hf => exact absurd hf (hs _ target)
  | follow n loc name rest target hp hl hf ih => exact absurd hf (hs _ target)

/-- Without links a path names the same location where the directories are the same. -/
theorem locate?_eq (h : SameDirectories t s) (hs : s.Linkless) (ht : t.Linkless)
    (path : String) : t.locate? path = s.locate? path := by
  unfold locate? resolve
  split
  · rfl
  · split
    · rfl
    · rw [h.cwd]
      exact h.walk_location hs ht _ _ _

end SameDirectories

theorem locate?_of_entryAt? (h : s.entryAt? path = some (loc, e)) : s.locate? path = some loc := by
  rw [locate?, entryAt?_eq_some_iff.mp h]
  rfl

end Store

end SdkGlue
