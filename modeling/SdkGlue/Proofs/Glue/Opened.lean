import SdkGlue.Proofs.Glue.Install
import SdkGlue.Proofs.Store.Replace

/-!
# Installations that get through

An installation succeeds exactly when the old glue can be discarded and the
sibling can be written after that, for what was written can be moved.  The text
goes to the sibling itself, or to where a link leads that stands in its place;
either way it is the sibling that is moved.
-/

namespace SdkGlue.Glue

open Store (Within)

variable {s : Store} {p : Path} {k : Nat} {dir loc : Location} {text : String}

theorem no_nul_of_discard {removed : Bool} (h : ((discard p).run s).result = .ok removed) :
    Script.hasNul p.text = false := by
  rw [run_discard] at h
  split at h
  · cases h
  · next hnul => simpa using hnul

/-- What is no directory can be discarded. -/
theorem discard_of_names (hnames : s.Names p k dir) (hnul : Script.hasNul p.text = false)
    (hdir : s.find? (p.name :: dir) ≠ some .directory) :
    ∃ removed, ((discard p).run s).result = .ok removed := by
  have hresolve := hnames.resolve_entry
  rw [run_discard, hnul, if_neg (by simp), Store.unlink]
  cases hf : s.find? (p.name :: dir) with
  | none =>
      rw [hf] at hresolve
      rw [hresolve]
      exact ⟨false, rfl⟩
  | some e =>
      rw [hf] at hresolve
      rw [hresolve]
      cases e with
      | file old => exact ⟨true, rfl⟩
      | link target => exact ⟨true, rfl⟩
      | directory => exact absurd hf hdir

theorem find?_ne_of_discard (hnames : s.Names p k dir) {removed : Bool}
    (h : ((discard p).run s).result = .ok removed) :
    s.find? (p.name :: dir) ≠ some .directory := by
  intro hf
  have hresolve := hnames.resolve_entry
  rw [hf] at hresolve
  have hunlink : s.unlink p.text = .error .isDirectory := by
    rw [Store.unlink, hresolve]
    rfl
  rw [run_discard, hunlink] at h
  split at h <;> cases h

/-- A discarding leaves the place of the glue free and nothing else changed. -/
theorem store_discard_of_names (hnames : s.Names p k dir) {removed : Bool}
    (h : ((discard p).run s).result = .ok removed) :
    ((discard p).run s).store = s.remove (p.name :: dir) := by
  rcases store_discard p s with hsame | ⟨loc, e, hat, hgone⟩
  · have hnone := entryAt?_discard h
    rw [hsame, hnames.entryAt?_eq, Option.map_eq_none_iff] at hnone
    rw [hsame, Store.remove_of_find?_eq_none hnone]
  · rw [hnames.entryAt?_eq, Option.map_eq_some_iff] at hat
    obtain ⟨e', -, heq⟩ := hat
    cases heq
    exact hgone

/-- The old glue can be discarded, and after that the sibling can be written, which
puts a file at `loc`. -/
structure Opened (s : Store) (p : Path) (k : Nat) (dir loc : Location) : Prop where
  discards : ∃ removed, ((discard p).run s).result = .ok removed
  names : (s.remove (p.name :: dir)).Names p k dir
  no_nul_sibling : Script.hasNul (siblingOf p).text = false
  writable : (s.remove (p.name :: dir)).Writable (siblingOf p).text loc

namespace Opened

theorem names_before (h : Opened s p k dir loc) : s.Names p k dir :=
  h.names.of_keepsWays (Within.remove s _).keepsWays rfl

/-- The sibling has its place in the same directory, and a file is written there
unless a link stands in the way. -/
theorem sibling (h : Opened s p k dir loc) :
    (s.remove (p.name :: dir)).Names (siblingOf p) k dir ∧
      (loc = (siblingOf p).name :: dir ∨
        ∃ target, s.find? ((siblingOf p).name :: dir) = some (.link target)) := by
  obtain ⟨k', dir', hparent, hsib, hplace⟩ :=
    names_siblingOf h.names.normal h.names.ne_nil h.writable
  cases h.names.parent.symm.trans hparent
  rw [Store.find?_remove_ne s (Ne.symm (sibling_ne p dir))] at hplace
  exact ⟨hsib, hplace⟩

theorem names_sibling (h : Opened s p k dir loc) : s.Names (siblingOf p) k dir :=
  h.sibling.1.of_keepsWays (Within.remove s _).keepsWays rfl

theorem run_install (h : Opened s p k dir loc) (text : String) :
    ((install text p).run s).result = .ok p ∧
      ∃ e, ((s.remove (p.name :: dir)).set loc (.file (Text.Utf8.encode text.toList))).find?
            ((siblingOf p).name :: dir) = some e ∧
        ((install text p).run s).store =
          (((s.remove (p.name :: dir)).set loc (.file (Text.Utf8.encode text.toList))).remove
            ((siblingOf p).name :: dir)).set (p.name :: dir) e := by
  obtain ⟨removed, hdiscard⟩ := h.discards
  have hstore := store_discard_of_names h.names_before hdiscard
  have hgone := entryAt?_discard hdiscard
  rw [hstore] at hgone
  have hwrite := Store.write_eq_ok_iff.mpr
    ⟨loc, h.writable, Eq.refl (Store.set _ loc (.file (Text.Utf8.encode text.toList)))⟩
  obtain ⟨k', dir', e, hparent, hfind, hsend⟩ :=
    run_send_of_write h.names.normal h.names.ne_nil hgone h.no_nul_sibling hwrite
  cases h.names.parent.symm.trans hparent
  have hresult : ((replace p text).run (s.remove (p.name :: dir))).result = .ok () := by
    rw [replace_eq, Script.result_onFault_eq_ok_iff, hsend]
  rw [result_install, store_install, hdiscard, hstore]
  refine ⟨by simp only [hresult, Except.map], e, hfind, ?_⟩
  simp only
  rw [replace_eq, Script.store_onFault, hsend]

end Opened

/-- Before a text was put, the old one was discarded and the sibling written. -/
theorem write_of_install {q : Path} (h : ((install text p).run s).result = .ok q) :
    (∃ removed, ((discard p).run s).result = .ok removed) ∧
      Script.hasNul (siblingOf p).text = false ∧
      ∃ v, ((discard p).run s).store.write (siblingOf p).text (Text.Utf8.encode text.toList) =
        .ok v := by
  rw [result_install] at h
  cases hd : ((discard p).run s).result with
  | error f =>
      rw [hd] at h
      cases h
  | ok removed =>
      rw [hd] at h
      refine ⟨⟨removed, rfl⟩, ?_⟩
      rcases run_send_cases p text ((discard p).run s).store with ⟨e, hrun⟩ | hwrite
      · exfalso
        cases hr : ((replace p text).run ((discard p).run s).store).result with
        | error f =>
            rw [hr] at h
            cases h
        | ok u =>
            rw [replace_eq, Script.result_onFault_eq_ok_iff, hrun] at hr
            cases hr
      · exact hwrite

/-- Wherever a text was put the sibling could be written. -/
theorem opened_of_install (hp : p.Normal) {q : Path}
    (h : ((install text p).run s).result = .ok q) : ∃ k dir loc, Opened s p k dir loc := by
  obtain ⟨⟨removed, hdiscard⟩, hnul, v, hwrite⟩ := write_of_install h
  have hne := parts_ne_nil_of_discard hdiscard
  obtain ⟨loc, hloc, -⟩ := Store.write_eq_ok_iff.mp hwrite
  obtain ⟨k, dir, -, hsib, -⟩ := names_siblingOf hp hne hloc
  obtain ⟨hnames, -⟩ := names_of_entryAt?_eq_none hp hne (entryAt?_discard hdiscard) hsib
  have hwithin := within_discard p s
  have hbefore := hnames.of_keepsWays hwithin.keepsWays hwithin.1.symm
  rw [store_discard_of_names hbefore hdiscard] at hnames hloc
  exact ⟨k, dir, loc, ⟨removed, hdiscard⟩, hnames, hnul, hloc⟩

end SdkGlue.Glue
