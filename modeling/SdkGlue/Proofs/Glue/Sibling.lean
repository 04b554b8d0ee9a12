import SdkGlue.Glue.Write
import SdkGlue.Proofs.Store.Resolve

/-!
# The sibling of a file

The sibling of a file stands in the same directory and has a longer name.  So
once the sibling could be written and the file is gone, nothing keeps the
sibling from being moved into the place of the file.
-/

namespace SdkGlue.Glue

open Store (IsPlain)

variable {p : Path} {u v : Store} {k : Nat} {dir loc : Location} {bytes : List UInt8}

@[simp] theorem root_siblingOf (p : Path) : (siblingOf p).root = p.root := rfl

@[simp] theorem parts_siblingOf (p : Path) :
    (siblingOf p).parts = p.parts.dropLast ++ ["." ++ p.name ++ ".tmp"] := rfl

@[simp] theorem name_siblingOf (p : Path) : (siblingOf p).name = "." ++ p.name ++ ".tmp" := by
  simp [Path.name]

theorem isPlain_siblingOf (p : Path) : IsPlain (siblingOf p).name := by
  have hlen : ∀ name : String, name.length < 5 → (siblingOf p).name ≠ name := by
    rintro name hname rfl
    simp only [name_siblingOf, String.length_append] at hname
    have htmp : ".tmp".length = 4 := by decide
    have hdot : ".".length = 1 := by decide
    omega
  exact ⟨hlen "" (by decide), hlen "." (by decide), hlen ".." (by decide)⟩

theorem normal_siblingOf (hp : p.Normal) (hne : p.parts ≠ []) : (siblingOf p).Normal := by
  intro part hpart
  rw [parts_siblingOf, List.mem_append, List.mem_singleton] at hpart
  rcases hpart with hpart | rfl
  · exact hp part (List.dropLast_subset _ hpart)
  · have hplain := isPlain_siblingOf p
    rw [name_siblingOf] at hplain
    refine ⟨by simp [Store.isStep, hplain.1, hplain.2.1], ?_⟩
    simpa using (hp.name hne).2

theorem parent_siblingOf (s : Store) (p : Path) : s.parent (siblingOf p) = s.parent p := by
  rw [Store.parent, Store.parent, parts_siblingOf, List.dropLast_concat]
  rfl

theorem name_lt_siblingOf (p : Path) :
    p.name.utf8ByteSize < (siblingOf p).name.utf8ByteSize := by
  have hdot : ".".utf8ByteSize = 1 := by decide
  simp only [name_siblingOf, String.utf8ByteSize_append, hdot]
  omega

theorem text_lt_siblingOf (hne : p.parts ≠ []) :
    p.text.utf8ByteSize < (siblingOf p).text.utf8ByteSize := by
  have hname := name_lt_siblingOf p
  rw [Path.text_eq_front (Path.parts_eq_append_name hne), Path.text_eq_front (parts_siblingOf p)]
  rw [name_siblingOf] at hname
  simp only [root_siblingOf, String.utf8ByteSize_append] at hname ⊢
  omega

/-- A file that can be written has the place of its path, or a link stands there. -/
theorem place_of_writable {q : Path} (hnames : u.Names q k dir) (h : u.Writable q.text loc) :
    loc = q.name :: dir ∨ ∃ target, u.find? (q.name :: dir) = some (.link target) := by
  unfold Store.Writable at h
  rw [hnames.resolve, Store.walk_plain hnames.plain hnames.name_short (Aim.refuses_nil _)] at h
  match hf : u.find? (q.name :: dir) with
  | none =>
      rw [hf] at h
      rcases h with ⟨old, hr⟩ | ⟨d, n, hr, rfl⟩
      · cases hr
      · cases hr
        exact .inl rfl
  | some .directory =>
      simp only [hf, Store.walk_nil] at h
      rcases h with ⟨old, hr⟩ | ⟨d, n, hr, rfl⟩
      · cases hr
      · cases hr
  | some (.file b) =>
      rw [hf] at h
      rcases h with ⟨old, hr⟩ | ⟨d, n, hr, rfl⟩
      · cases hr
        exact .inl rfl
      · cases hr
  | some (.link target) => exact .inr ⟨target, rfl⟩

/-- A sibling that can be written has a place of its own, or is a link. -/
theorem names_siblingOf (hp : p.Normal) (hne : p.parts ≠ [])
    (h : u.Writable (siblingOf p).text loc) :
    ∃ k dir, u.parent p = .ok (k, dir) ∧ u.Names (siblingOf p) k dir ∧
      (loc = (siblingOf p).name :: dir ∨
        ∃ target, u.find? ((siblingOf p).name :: dir) = some (.link target)) := by
  obtain ⟨place, hplace⟩ : ∃ place, u.resolve .writing (siblingOf p).text = .ok place := by
    rcases h with ⟨old, hr⟩ | ⟨dir, name, hr, -⟩
    · exact ⟨_, hr⟩
    · exact ⟨_, hr⟩
  obtain ⟨k, dir, hnames⟩ :=
    Store.names_of_resolve (normal_siblingOf hp hne) (by simp) (isPlain_siblingOf p) hplace
  have hparent := (parent_siblingOf u p).symm.trans hnames.parent
  exact ⟨k, dir, hparent, hnames, place_of_writable hnames h⟩

/-- A path that names no entry next to a sibling that has a place names a free
place. -/
theorem names_of_entryAt?_eq_none (hp : p.Normal) (hne : p.parts ≠ [])
    (hgone : u.entryAt? p.text = none) (hsib : u.Names (siblingOf p) k dir) :
    u.Names p k dir ∧ u.find? (p.name :: dir) = none := by
  have hshort := Nat.lt_trans (text_lt_siblingOf hne) hsib.short
  have hname := Nat.le_trans (Nat.le_of_lt (name_lt_siblingOf p)) hsib.name_short
  have hparent := (parent_siblingOf u p).symm.trans hsib.parent
  have hnames : u.Names p k dir :=
    Store.names_of_parent hp hne hshort hname hparent (by simp [hgone])
  refine ⟨hnames, ?_⟩
  rwa [hnames.entryAt?_eq, Option.map_eq_none_iff] at hgone

theorem sibling_ne (p : Path) (dir : Location) : (siblingOf p).name :: dir ≠ p.name :: dir := by
  intro heq
  have hlt := name_lt_siblingOf p
  rw [List.head_eq_of_cons_eq heq] at hlt
  exact Nat.lt_irrefl _ hlt

/-- When the file is gone and the sibling was written, the sibling can be moved. -/
theorem rename_of_write (hp : p.Normal) (hne : p.parts ≠ []) (hgone : u.entryAt? p.text = none)
    (hw : u.write (siblingOf p).text bytes = .ok v) :
    ∃ k dir e, u.parent p = .ok (k, dir) ∧ v.find? ((siblingOf p).name :: dir) = some e ∧
      v.rename (siblingOf p).text p.text =
        .ok ((v.remove ((siblingOf p).name :: dir)).set (p.name :: dir) e) := by
  obtain ⟨loc, hloc, rfl⟩ := Store.write_eq_ok_iff.mp hw
  obtain ⟨k, dir, hparent, hsib, hplace⟩ := names_siblingOf hp hne hloc
  obtain ⟨hnames, hfree⟩ := names_of_entryAt?_eq_none hp hne hgone hsib
  have hset := Store.find?_set u hloc.takesFile.ne_nil (.file bytes)
  have hkeeps := hloc.takesFile.keepsWays_set bytes
  have hsource := (hsib.of_keepsWays hkeeps rfl).resolve_entry
  have htarget := (hnames.of_keepsWays hkeeps rfl).resolve_entry
  obtain ⟨e, hfind, he⟩ : ∃ e, (u.set loc (.file bytes)).find? ((siblingOf p).name :: dir) =
      some e ∧ e ≠ .directory := by
    rcases hplace with rfl | ⟨target, hlink⟩
    · exact ⟨.file bytes, by rw [hset, if_pos rfl], by simp⟩
    · exact ⟨.link target, hkeeps _ _ hlink (by simp [Entry.kind]), by simp⟩
  rw [hfind] at hsource
  rw [hset, hfree] at htarget
  refine ⟨k, dir, e, hparent, hfind, ?_⟩
  rw [Store.rename_of_source hsource he, htarget]
  split
  · rfl
  · next e' hsome =>
      split at hsome <;> cases hsome
      exact congrArg Except.ok (if_neg (sibling_ne p dir))

end SdkGlue.Glue
