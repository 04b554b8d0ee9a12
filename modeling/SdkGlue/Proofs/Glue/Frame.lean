import SdkGlue.Proofs.Glue.Ready
import SdkGlue.Proofs.Store.Directories

/-!
# What an installation does not touch

In a store without links an installation changes the entries at two locations
at most, that of the glue and that of its sibling.  When it succeeds the text
stands at the first one and nothing at the second one; when it fails nothing new
stands anywhere.
-/

namespace SdkGlue.Glue

open Store (Within)

variable {s : Store} {p : Path} {text : String} {loc : Location}

theorem locate?_of_names {k : Nat} {dir : Location} (h : s.Names p k dir) :
    s.locate? p.text = some (p.name :: dir) := by
  rw [Store.locate?, h.resolve_entry]
  cases s.find? (p.name :: dir) <;> rfl

/-- An installation fails and takes at most the glue and its sibling away, or it
succeeds and puts the text in the place of the glue. -/
theorem install_cases (hp : p.Normal) (hlinks : s.Linkless) (text : String) :
    (∃ e, ((install text p).run s).result = .error e) ∧
        (∃ gone, ((install text p).run s).store = s.without gone ∧
          ∀ loc ∈ gone, s.locate? p.text = some loc ∨
            s.locate? (siblingOf p).text = some loc) ∨
      ((install text p).run s).result = .ok p ∧
        ∃ dir, s.locate? p.text = some (p.name :: dir) ∧
          s.locate? (siblingOf p).text = some ((siblingOf p).name :: dir) ∧
          ((install text p).run s).store =
            installed s p dir (Text.Utf8.encode text.toList) := by
  cases hr : ((install text p).run s).result with
  | error e =>
      refine .inl ⟨⟨e, rfl⟩, ?_⟩
      rcases install_error_cases hp hr with ⟨-, hsame⟩ | ⟨-, -, gone, hstore, hgone⟩
      · exact ⟨[], hsame, by simp⟩
      · refine ⟨gone, hstore, fun loc hloc => ?_⟩
        obtain ⟨entry, hat | hat⟩ := hgone loc hloc
        · exact .inl (Store.locate?_of_entryAt? hat)
        · exact .inr (Store.locate?_of_entryAt? hat)
  | ok q =>
      obtain ⟨k, dir, hready⟩ := ready_of_install hp hlinks hr
      obtain ⟨hok, hstore⟩ := hready.run_install text
      rw [hr] at hok
      refine .inr ⟨hok, dir, ?_, ?_, hstore⟩
      · exact locate?_of_names hready.names
      · exact locate?_of_names hready.names_sibling

/-- What stands elsewhere stays, whether the installation succeeds or fails. -/
theorem find?_install (hp : p.Normal) (hlinks : s.Linkless) (hloc : loc ≠ [])
    (hout : s.locate? p.text ≠ some loc) (hsib : s.locate? (siblingOf p).text ≠ some loc) :
    ((install text p).run s).store.find? loc = s.find? loc := by
  rcases install_cases hp hlinks text with
    ⟨-, gone, hstore, hgone⟩ | ⟨-, dir, hplace, hplace', hstore⟩
  · have hkept : loc ∉ gone := by
      intro hmem
      rcases hgone loc hmem with h | h
      · exact hout h
      · exact hsib h
    rw [hstore, Store.find?_without s gone hloc, if_neg hkept]
  · rw [hstore, find?_installed, if_neg, if_neg]
    · rintro rfl
      exact hsib hplace'
    · rintro rfl
      exact hout hplace

end SdkGlue.Glue
