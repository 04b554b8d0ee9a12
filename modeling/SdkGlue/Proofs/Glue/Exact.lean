import SdkGlue.Proofs.Glue.Ready
import SdkGlue.Proofs.Store.Straight
import SdkGlue.Proofs.Text.Utf8

/-!
# When an installation succeeds

Where no directory on the way is a link, and none stands in the place of the
sibling, an installation succeeds exactly when the directory is there, both
places are free of directories and both paths are within the limits.  It leaves
the text and nothing else, so that of two installations only the last one counts.
The old glue may be a link.
-/

namespace SdkGlue.Glue

open Store (maxPath maxName)

/-- The limits of the file system on a path: a length, a length of the name, and no
NUL in it. -/
structure Fits (p : Path) : Prop where
  short : p.text.utf8ByteSize < maxPath
  name_short : p.name.utf8ByteSize ≤ maxName
  no_nul : Script.hasNul p.text = false

/-- A text can be put at the path, as far as the store shows. -/
structure Receives (s : Store) (p : Path) : Prop where
  directory : ∃ dir, s.resolve .target p.parent.text = .ok (.entry dir .directory)
  output : s.entryKind? p.text ≠ some .directory
  sibling : s.entryKind? (siblingOf p).text ≠ some .directory
  fits : Fits p
  fits_sibling : Fits (siblingOf p)

variable {s : Store} {p : Path} {k : Nat} {dir loc : Location} {text path : String}

namespace Opened

theorem fits (h : Opened s p k dir loc) : Fits p where
  short := h.names.short
  name_short := h.names.name_short
  no_nul := by
    obtain ⟨removed, hdiscard⟩ := h.discards
    exact no_nul_of_discard hdiscard

theorem receives (h : Opened s p k dir ((siblingOf p).name :: dir)) : Receives s p where
  directory := by
    have hnames := h.names_before
    exact ⟨dir, (Store.resolve_parent_iff hnames.normal hnames.ne_nil hnames.short).mpr
      ⟨k, hnames.parent⟩⟩
  output := by
    obtain ⟨removed, hdiscard⟩ := h.discards
    intro hkind
    have hdir := h.names_before.entryKind?_eq_directory_iff.mp hkind
    exact find?_ne_of_discard h.names_before hdiscard hdir
  sibling := (h.names_sibling.takesFile_iff.mp h.takes_sibling).1
  fits := h.fits
  fits_sibling := ⟨h.names_sibling.short, h.names_sibling.name_short, h.no_nul_sibling⟩

theorem ready_remove (h : Opened s p k dir ((siblingOf p).name :: dir)) :
    Ready (s.remove (p.name :: dir)) p k dir where
  names := h.names
  names_sibling := h.sibling.1
  no_nul := h.fits.no_nul
  no_nul_sibling := h.no_nul_sibling
  takes := .inl (by rw [Store.find?_remove_cons, if_pos rfl])
  takes_sibling := h.writable.takesFile

/-- Another text goes into the place of the first one, as if that had never been
there. -/
theorem install_install (h : Opened s p k dir ((siblingOf p).name :: dir)) (text more : String) :
    let t := ((install text p).run s).store
    ((install more p).run t).result = .ok p ∧
      ((install more p).run t).store = ((install more p).run s).store := by
  intro t
  have ht : t = installed (s.remove (p.name :: dir)) p dir (Text.Utf8.encode text.toList) := by
    rw [installed_remove]
    exact h.store_install text
  obtain ⟨hresult, hstore⟩ :=
    (h.ready_remove.again (Text.Utf8.encode text.toList)).run_install more
  rw [← ht] at hresult hstore
  refine ⟨hresult, ?_⟩
  rw [hstore, ht, installed_installed, installed_remove, h.store_install more]

end Opened

/-- On a way without links, what the store shows is enough. -/
theorem Receives.opened (h : Receives s p) (hp : p.Normal) (hway : s.Straight p)
    (hlink : s.entryKind? (siblingOf p).text ≠ some .link) :
    ∃ k dir, Opened s p k dir ((siblingOf p).name :: dir) := by
  have hfree : ∀ loc, s.entryAt? p.text ≠ some (loc, .directory) := by
    intro loc hat
    exact h.output (by rw [Store.entryKind?, hat]; rfl)
  have hne : p.parts ≠ [] := by
    intro hparts
    obtain ⟨dir, hr⟩ := Store.resolve_of_parts_eq_nil s .entry hparts
    exact hfree dir (Store.entryAt?_eq_some_iff.mpr hr)
  obtain ⟨dir, hdir⟩ := h.directory
  obtain ⟨k, hparent⟩ := (Store.resolve_parent_iff hp hne h.fits.short).mp hdir
  have hnames : s.Names p k dir :=
    Store.names_of_parent hp hne h.fits.short h.fits.name_short hparent hfree
  have hout : s.find? (p.name :: dir) ≠ some .directory := by
    intro hf
    exact h.output (hnames.entryKind?_eq_directory_iff.mpr hf)
  -- The way to the sibling is the way to the glue, before and after the removal.
  have hsibling : ∀ u : Store, u.parent p = .ok (k, dir) → u.Names (siblingOf p) k dir :=
    fun u hu =>
      { normal := normal_siblingOf hp hne
        ne_nil := by simp
        short := h.fits_sibling.short
        parent := (parent_siblingOf u p).trans hu
        plain := isPlain_siblingOf p
        name_short := h.fits_sibling.name_short }
  have hopen : (s.remove (p.name :: dir)).parent p = .ok (k, dir) :=
    hway.parent_remove hp h.fits.short hout hparent
  have htakes : s.TakesFile ((siblingOf p).name :: dir) :=
    (hsibling s hparent).takesFile_iff.mpr ⟨h.sibling, hlink⟩
  refine ⟨k, dir, discard_of_names hnames h.fits.no_nul hout, { hnames with parent := hopen },
    h.fits_sibling.no_nul, ?_⟩
  exact writable_of_takesFile (hsibling _ hopen) (takesFile_sibling_remove_iff.mpr htakes)

/-- Where no link stands at the sibling, the sibling itself is written. -/
theorem opened_of_install_of_ne_link (hp : p.Normal)
    (hlink : s.entryKind? (siblingOf p).text ≠ some .link) {q : Path}
    (h : ((install text p).run s).result = .ok q) :
    ∃ k dir, Opened s p k dir ((siblingOf p).name :: dir) := by
  obtain ⟨k, dir, loc, hopened⟩ := opened_of_install hp h
  rcases hopened.sibling.2 with rfl | ⟨target, hf⟩
  · exact ⟨k, dir, hopened⟩
  · rw [hopened.names_sibling.entryKind?_eq, hf] at hlink
    exact absurd rfl hlink

/-- An installation succeeds exactly where the store shows that it can.  The text
then stands at the path, byte for byte, and no sibling is left; and the next
installation succeeds as well and leaves what it would have left without this one. -/
theorem install_exact (hway : s.Straight (.ofString path))
    (hlink : s.entryKind? (siblingOf (.ofString path)).text ≠ some .link) (text : String) :
    let p := Path.ofString path
    let t := ((install text p).run s).store
    ((∃ q, ((install text p).run s).result = .ok q) ↔ Receives s p) ∧
      ∀ q, ((install text p).run s).result = .ok q →
        q = p ∧
        (∃ loc, t.entryAt? p.text = some (loc, .file text.toUTF8.data.toList)) ∧
        t.entryAt? (siblingOf p).text = none ∧
        ∀ more, ((install more p).run t).result = .ok p ∧
          ((install more p).run t).store = ((install more p).run s).store := by
  intro p t
  have hp : p.Normal := Path.normal_ofString path
  refine ⟨⟨?_, ?_⟩, ?_⟩
  · rintro ⟨q, h⟩
    obtain ⟨k, dir, hopened⟩ := opened_of_install_of_ne_link hp hlink h
    exact hopened.receives
  · intro h
    obtain ⟨k, dir, hopened⟩ := h.opened hp hway hlink
    exact ⟨p, (hopened.run_install text).1⟩
  · intro q h
    obtain ⟨k, dir, hopened⟩ := opened_of_install_of_ne_link hp hlink h
    have ht : t = installed (s.remove (p.name :: dir)) p dir text.toUTF8.data.toList := by
      rw [installed_remove, ← Text.Utf8.encode_toList]
      exact hopened.store_install text
    have hready := hopened.ready_remove.again text.toUTF8.data.toList
    rw [← ht] at hready
    refine ⟨?_, ⟨p.name :: dir, ?_⟩, ?_, hopened.install_install text⟩
    · exact Except.ok.inj (h.symm.trans (hopened.run_install text).1)
    · rw [hready.names.entryAt?_eq, ht, find?_installed, if_pos rfl]
      rfl
    · rw [hready.names_sibling.entryAt?_eq, ht, find?_installed,
        if_neg (Ne.symm (sibling_ne p dir)), if_pos rfl]
      rfl

/-- An old glue that is a link, and a longer text that was left at the sibling. -/
def staleSibling : Store :=
  ((((Store.empty []).set ["d"] .directory).set ["kept"] (.file [0x61])).set ["glue", "d"]
    (.link "../kept")).set [".glue.tmp", "d"] (.file [0x61, 0x61])

theorem install_exact_staleSibling :
    let t := ((install "x" (.ofString "d/glue")).run staleSibling).store
    ((install "x" (.ofString "d/glue")).run staleSibling).result = .ok (.ofString "d/glue") ∧
      (∃ loc, t.entryAt? "d/glue" = some (loc, .file [0x78])) ∧
      t.entryAt? "d/.glue.tmp" = none ∧
      ∀ more, ((install more (.ofString "d/glue")).run t).store =
        ((install more (.ofString "d/glue")).run staleSibling).store := by
  have hway : staleSibling.Straight (.ofString "d/glue") := by decide +kernel
  have hlink : staleSibling.entryKind? (siblingOf (.ofString "d/glue")).text ≠ some .link := by
    decide +kernel
  have hreceives : Receives staleSibling (.ofString "d/glue") :=
    { directory := ⟨["d"], by rfl⟩
      output := by decide +kernel
      sibling := by decide +kernel
      fits := ⟨by decide, by decide, by decide⟩
      fits_sibling := ⟨by decide, by decide, by decide⟩ }
  obtain ⟨hexact, hleft⟩ := install_exact hway hlink "x"
  obtain ⟨q, hresult⟩ := hexact.mpr hreceives
  obtain ⟨rfl, hglue, hgone, hagain⟩ := hleft q hresult
  exact ⟨hresult, hglue, hgone, fun more => (hagain more).2⟩

end SdkGlue.Glue
