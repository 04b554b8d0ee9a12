import SdkGlue.Proofs.Glue.Opened

/-!
# Where a text can be put

In a store without links the installation of a text succeeds exactly where the
file and its sibling have places that take a file.  What it leaves takes the
text again, and is then left as it is.
-/

namespace SdkGlue.Glue

/-- The file and its sibling have places that take a file. -/
structure Ready (s : Store) (p : Path) (k : Nat) (dir : Location) : Prop where
  names : s.Names p k dir
  names_sibling : s.Names (siblingOf p) k dir
  no_nul : Script.hasNul p.text = false
  no_nul_sibling : Script.hasNul (siblingOf p).text = false
  takes : s.TakesFile (p.name :: dir)
  takes_sibling : s.TakesFile ((siblingOf p).name :: dir)

/-- The store with a file in its place and without the sibling. -/
def installed (s : Store) (p : Path) (dir : Location) (bytes : List UInt8) : Store :=
  ((s.remove (p.name :: dir)).remove ((siblingOf p).name :: dir)).set (p.name :: dir) (.file bytes)

variable {s : Store} {p : Path} {k : Nat} {dir : Location} {bytes : List UInt8} {text : String}

theorem find?_installed (s : Store) (p : Path) (dir : Location) (bytes : List UInt8)
    (loc : Location) :
    (installed s p dir bytes).find? loc =
      if p.name :: dir = loc then some (.file bytes)
      else if (siblingOf p).name :: dir = loc then none
      else s.find? loc := by
  simp only [installed, Store.find?_set_cons, Store.find?_remove_cons]
  split
  · rfl
  · rfl

/-- What was put there before does not matter. -/
theorem installed_installed (s : Store) (p : Path) (dir : Location) (old bytes : List UInt8) :
    installed (installed s p dir old) p dir bytes = installed s p dir bytes := by
  have hsib := sibling_ne p dir
  have hout : ((s.remove (p.name :: dir)).remove ((siblingOf p).name :: dir)).find?
      (p.name :: dir) = none := by
    rw [Store.find?_remove_ne _ hsib, Store.find?_remove_cons, if_pos rfl]
  have hin : ((s.remove (p.name :: dir)).remove ((siblingOf p).name :: dir)).find?
      ((siblingOf p).name :: dir) = none := by
    rw [Store.find?_remove_cons, if_pos rfl]
  unfold installed
  rw [Store.remove_set, Store.remove_of_find?_eq_none hout, Store.remove_of_find?_eq_none hin]

theorem installed_remove (s : Store) (p : Path) (dir : Location) (bytes : List UInt8) :
    installed (s.remove (p.name :: dir)) p dir bytes = installed s p dir bytes := by
  have hout : (s.remove (p.name :: dir)).find? (p.name :: dir) = none := by
    rw [Store.find?_remove_cons, if_pos rfl]
  rw [installed, Store.remove_of_find?_eq_none hout]
  rfl

namespace Ready

theorem keepsWays (h : Ready s p k dir) (bytes : List UInt8) :
    s.KeepsWays (installed s p dir bytes) := by
  intro loc e he hkind
  have hout : p.name :: dir ≠ loc := by
    rintro rfl
    exact hkind (h.takes.kind_eq he)
  have hsib : (siblingOf p).name :: dir ≠ loc := by
    rintro rfl
    exact hkind (h.takes_sibling.kind_eq he)
  rw [find?_installed, if_neg hout, if_neg hsib, he]

/-- The text can be put there again. -/
theorem again (h : Ready s p k dir) (bytes : List UInt8) :
    Ready (installed s p dir bytes) p k dir where
  names := h.names.of_keepsWays (h.keepsWays bytes) rfl
  names_sibling := h.names_sibling.of_keepsWays (h.keepsWays bytes) rfl
  no_nul := h.no_nul
  no_nul_sibling := h.no_nul_sibling
  takes := .inr ⟨bytes, by rw [find?_installed, if_pos rfl]⟩
  takes_sibling :=
    .inl (by rw [find?_installed, if_neg (Ne.symm (sibling_ne p dir)), if_pos rfl])

end Ready

/-- A path that takes a file can be written. -/
theorem writable_of_takesFile (hnames : s.Names p k dir)
    (htakes : s.TakesFile (p.name :: dir)) : s.Writable p.text (p.name :: dir) := by
  have hresolve := hnames.resolve .writing
  rw [Store.walk_plain hnames.plain hnames.name_short (Aim.refuses_nil _)] at hresolve
  rcases htakes with hnone | ⟨old, hfile⟩
  · rw [hnone] at hresolve
    exact .inr ⟨dir, p.name, hresolve, rfl⟩
  · rw [hfile] at hresolve
    exact .inl ⟨old, hresolve⟩

/-- What stands at the sibling stood there before the glue was removed. -/
theorem takesFile_sibling_remove_iff :
    (s.remove (p.name :: dir)).TakesFile ((siblingOf p).name :: dir) ↔
      s.TakesFile ((siblingOf p).name :: dir) := by
  unfold Store.TakesFile
  rw [Store.find?_remove_ne s (Ne.symm (sibling_ne p dir))]

/-- Where a text can be put the sibling can be written. -/
theorem Ready.opened (h : Ready s p k dir) : Opened s p k dir ((siblingOf p).name :: dir) where
  discards := by
    apply discard_of_names h.names h.no_nul
    intro hdir
    cases h.takes.kind_eq hdir
  names := h.names.of_keepsWays h.takes.keepsWays_remove rfl
  no_nul_sibling := h.no_nul_sibling
  writable := by
    apply writable_of_takesFile
    · exact h.names_sibling.of_keepsWays h.takes.keepsWays_remove rfl
    · exact takesFile_sibling_remove_iff.mpr h.takes_sibling

theorem Opened.takes_sibling (h : Opened s p k dir ((siblingOf p).name :: dir)) :
    s.TakesFile ((siblingOf p).name :: dir) :=
  takesFile_sibling_remove_iff.mp h.writable.takesFile

/-- A sibling that is written itself becomes the glue. -/
theorem Opened.store_install (h : Opened s p k dir ((siblingOf p).name :: dir)) (text : String) :
    ((install text p).run s).store = installed s p dir (Text.Utf8.encode text.toList) := by
  obtain ⟨-, e, hfind, hstore⟩ := h.run_install text
  rw [Store.find?_set_cons, if_pos rfl] at hfind
  cases hfind
  rw [hstore, Store.remove_set]
  rfl

/-- Where a text can be put, it is put. -/
theorem Ready.run_install (h : Ready s p k dir) (text : String) :
    ((install text p).run s).result = .ok p ∧
      ((install text p).run s).store =
        installed s p dir (Text.Utf8.encode text.toList) :=
  ⟨(h.opened.run_install text).1, h.opened.store_install text⟩

/-- Without links a text could be put wherever one was put. -/
theorem ready_of_install (hp : p.Normal) (hlinks : s.Linkless) {q : Path}
    (h : ((install text p).run s).result = .ok q) : ∃ k dir, Ready s p k dir := by
  obtain ⟨k, dir, loc, hopened⟩ := opened_of_install hp h
  obtain ⟨removed, hdiscard⟩ := hopened.discards
  have htakes : s.TakesFile (p.name :: dir) := by
    match hf : s.find? (p.name :: dir) with
    | none => exact .inl hf
    | some (.file old) => exact .inr ⟨old, hf⟩
    | some (.link target) => exact absurd hf (hlinks _ target)
    | some .directory => exact absurd hf (find?_ne_of_discard hopened.names_before hdiscard)
  have htakes_sibling : s.TakesFile ((siblingOf p).name :: dir) := by
    rcases hopened.sibling.2 with rfl | ⟨target, hlink⟩
    · exact hopened.takes_sibling
    · exact absurd hlink (hlinks _ target)
  exact ⟨k, dir,
    { names := hopened.names_before
      names_sibling := hopened.names_sibling
      no_nul := no_nul_of_discard hdiscard
      no_nul_sibling := hopened.no_nul_sibling
      takes := htakes
      takes_sibling := htakes_sibling }⟩

end SdkGlue.Glue
