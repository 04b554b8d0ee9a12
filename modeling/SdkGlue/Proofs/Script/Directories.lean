import SdkGlue.Proofs.Script
import SdkGlue.Proofs.Store.Directories

/-!
# Every script keeps the directories

What each request keeps is kept by every script, since a script changes a store
by its requests alone.  So no script makes or removes a directory, and none
makes a link where there is none.
-/

namespace SdkGlue

open Store (Linkless SameDirectories)

variable {α : Type} {s : Store}

/-- A request leaves a store alone, puts a file where no directory stands, takes
away what is no directory, or moves it where no directory stands. -/
theorem Request.store_cases (s : Store) (q : Request) :
    (q.run s).2 = s ∨
      (∃ loc bytes, s.find? loc ≠ some .directory ∧ (q.run s).2 = s.set loc (.file bytes)) ∨
      (∃ loc, s.find? loc ≠ some .directory ∧ (q.run s).2 = s.remove loc) ∨
      ∃ loc loc' e, s.find? loc = some e ∧ e ≠ .directory ∧ s.find? loc' ≠ some .directory ∧
        (q.run s).2 = (s.remove loc).set loc' e := by
  cases q with
  | kindAt path => exact .inl rfl
  | list path => exact .inl rfl
  | read path => exact .inl rfl
  | write path bytes =>
      rw [Request.run]
      split
      · next t ht =>
          obtain ⟨loc, hloc, rfl⟩ := Store.write_eq_ok_iff.mp ht
          exact .inr (.inl ⟨loc, bytes, hloc.takesFile.ne_directory, rfl⟩)
      · exact .inl rfl
  | unlink path =>
      rw [Request.run]
      split
      · next t ht =>
          obtain ⟨loc, e, hfind, he, rfl⟩ := Store.find?_of_unlink ht
          exact .inr (.inr (.inl ⟨loc, by simpa [hfind] using he, rfl⟩))
      · exact .inl rfl
  | rename source target =>
      rw [Request.run]
      split
      · next t ht =>
          rcases Store.find?_of_rename ht with rfl | hmoved
          · exact .inl rfl
          · exact .inr (.inr (.inr hmoved))
      · exact .inl rfl

theorem Request.sameDirectories_run (s : Store) (q : Request) :
    SameDirectories (q.run s).2 s := by
  rcases q.store_cases s with hstore | ⟨loc, bytes, hloc, hstore⟩ | ⟨loc, hloc, hstore⟩ |
      ⟨loc, loc', e, hfind, he, hloc', hstore⟩ <;> rw [hstore]
  · exact SameDirectories.refl s
  · exact SameDirectories.set hloc (by simp)
  · exact SameDirectories.remove hloc
  · have hremove : SameDirectories (s.remove loc) s :=
      SameDirectories.remove (by simpa [hfind] using he)
    apply hremove.trans
    apply SameDirectories.set _ he
    exact fun hdir => hloc' ((hremove.directory_iff loc').mp hdir)

theorem Request.linkless_run (hs : s.Linkless) (q : Request) : (q.run s).2.Linkless := by
  rcases q.store_cases s with hstore | ⟨loc, bytes, hloc, hstore⟩ | ⟨loc, -, hstore⟩ |
      ⟨loc, loc', e, hfind, -, hloc', hstore⟩ <;> rw [hstore]
  · exact hs
  · exact hs.set (Store.ne_nil_of_find?_ne hloc) (by simp)
  · exact (Store.Within.remove s loc).linkless hs
  · apply ((Store.Within.remove s loc).linkless hs).set (Store.ne_nil_of_find?_ne hloc')
    rintro target rfl
    exact hs loc target hfind

namespace Script

/-- A relation that every request keeps is kept by every script. -/
theorem leaves_of_request {R : Store → Store → Prop} (hrefl : ∀ s, R s s)
    (htrans : ∀ s t u, R t s → R u t → R u s) (hrequest : ∀ s (q : Request), R (q.run s).2 s)
    (x : Script α) : x.Leaves R := by
  intro s
  induction x generalizing s with
  | done r => exact hrefl s
  | note n x ih => exact ih s
  | ask q k ih => exact htrans _ _ _ (hrequest s q) (ih _ _)

theorem sameDirectories_run (x : Script α) (s : Store) : SameDirectories (x.run s).store s :=
  leaves_of_request SameDirectories.refl (fun _ _ _ h h' => h.trans h')
    Request.sameDirectories_run x s

theorem linkless_run (hs : s.Linkless) (x : Script α) : (x.run s).store.Linkless := by
  have hkeeps : x.Leaves fun t s => s.Linkless → t.Linkless := by
    apply leaves_of_request
    · exact fun _ h => h
    · exact fun _ _ _ h h' hs => h' (h hs)
    · exact fun _ q hs => Request.linkless_run hs q
  exact hkeeps s hs

end Script

end SdkGlue
