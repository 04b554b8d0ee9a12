import SdkGlue.Proofs.Glue.Sibling
import SdkGlue.Proofs.Script

/-!
# Putting a text in the place of the glue

The old glue is discarded first.  When that fails nothing has changed; when
something fails after it, no glue stands where the old one stood.
-/

namespace SdkGlue.Glue

open Store (Within)

variable {p : Path} {s u : Store} {text : String} {e : Fault}

theorem run_discard (p : Path) (s : Store) :
    (discard p).run s =
      if Script.hasNul p.text then ⟨.error .nulInPath, s, []⟩
      else
        match s.unlink p.text with
        | .ok t => ⟨.ok true, t, []⟩
        | .error .missing => ⟨.ok false, s, []⟩
        | .error c => ⟨.error (.system c p.text), s, []⟩ := by
  unfold discard
  split
  · rfl
  · rw [Script.run_ask]
    simp only [Request.run]
    cases s.unlink p.text with
    | ok t => rfl
    | error c => cases c <;> rfl

theorem store_discard_of_error (h : ((discard p).run s).result = .error e) :
    ((discard p).run s).store = s := by
  rw [run_discard] at h ⊢
  split
  · rfl
  · cases hu : s.unlink p.text with
    | error c => cases c <;> rfl
    | ok t => simp_all

/-- Discarding takes away the entry that the path names, if there is one. -/
theorem store_discard (p : Path) (s : Store) :
    ((discard p).run s).store = s ∨
      ∃ loc e, s.entryAt? p.text = some (loc, e) ∧ ((discard p).run s).store = s.remove loc := by
  rw [run_discard]
  split
  · exact .inl rfl
  · cases hu : s.unlink p.text with
    | error c => cases c <;> exact .inl rfl
    | ok t =>
        obtain ⟨loc, e, hr, -, rfl⟩ := Store.unlink_eq_ok_iff.mp hu
        exact .inr ⟨loc, e, Store.entryAt?_eq_some_iff.mpr hr, rfl⟩

theorem within_discard (p : Path) (s : Store) : Within ((discard p).run s).store s := by
  rcases store_discard p s with hstore | ⟨loc, e, -, hstore⟩
  · rw [hstore]
    exact Within.refl s
  · rw [hstore]
    exact Within.remove s loc

/-- After a successful discarding the path names no entry. -/
theorem entryAt?_discard {removed : Bool} (h : ((discard p).run s).result = .ok removed) :
    ((discard p).run s).store.entryAt? p.text = none := by
  rw [run_discard] at h ⊢
  split at h
  · cases h
  · next hnul =>
      rw [if_neg hnul]
      cases hu : s.unlink p.text with
      | ok t => exact Store.entryAt?_of_unlink hu
      | error c =>
          rw [hu] at h
          cases c <;> cases h
          exact Store.unlink_eq_missing hu

/-- What is discarded is no directory, so the path has a last part. -/
theorem parts_ne_nil_of_discard {removed : Bool}
    (h : ((discard p).run s).result = .ok removed) : p.parts ≠ [] := by
  intro hparts
  obtain ⟨dir, hr⟩ := Store.resolve_of_parts_eq_nil s .entry hparts
  have hu : s.unlink p.text = .error .isDirectory := by
    rw [Store.unlink, hr]
    rfl
  rw [run_discard, hu] at h
  split at h <;> cases h

/-! ## Writing through the sibling -/

/-- The text goes to the sibling. -/
def writeSibling (p : Path) (text : String) : Script Unit :=
  Script.call (siblingOf p).text (.write (siblingOf p).text (Text.Utf8.encode text.toList))

/-- The sibling goes into place. -/
def moveSibling (p : Path) : Script Unit :=
  Script.call (siblingOf p).text (.rename (siblingOf p).text p.text)

theorem replace_eq (p : Path) (text : String) :
    replace p text =
      Script.onFault (writeSibling p text >>= fun _ => moveSibling p)
        (discard (siblingOf p) >>= fun _ => pure ()) := rfl

/-- Where the file is gone and the sibling can be written, the sibling is moved. -/
theorem run_send_of_write (hp : p.Normal) (hne : p.parts ≠ []) (hgone : u.entryAt? p.text = none)
    (hnul : Script.hasNul (siblingOf p).text = false) {v : Store}
    (hw : u.write (siblingOf p).text (Text.Utf8.encode text.toList) = .ok v) :
    ∃ k dir e, u.parent p = .ok (k, dir) ∧ v.find? ((siblingOf p).name :: dir) = some e ∧
      (writeSibling p text >>= fun _ => moveSibling p).run u =
        ⟨.ok (), (v.remove ((siblingOf p).name :: dir)).set (p.name :: dir) e, []⟩ := by
  obtain ⟨k, dir, e, hparent, hfind, hmove⟩ := rename_of_write hp hne hgone hw
  have hwrite : (writeSibling p text).run u = ⟨.ok (), v, []⟩ := by
    apply (Script.run_write _ _ u).trans
    rw [hnul, hw]
    rfl
  have hrename : (moveSibling p).run v =
      ⟨.ok (), (v.remove ((siblingOf p).name :: dir)).set (p.name :: dir) e, []⟩ := by
    apply (Script.run_rename _ _ v).trans
    rw [hnul, hmove]
    rfl
  refine ⟨k, dir, e, hparent, hfind, ?_⟩
  rw [Script.run_bind, hwrite, Script.Outcome.andThen]
  simp only [hrename, List.nil_append]

/-- The sibling cannot be written and nothing changes, or it can. -/
theorem run_send_cases (p : Path) (text : String) (u : Store) :
    (∃ e, (writeSibling p text >>= fun _ => moveSibling p).run u = ⟨.error e, u, []⟩) ∨
      Script.hasNul (siblingOf p).text = false ∧
        ∃ v, u.write (siblingOf p).text (Text.Utf8.encode text.toList) = .ok v := by
  have hwrite : (writeSibling p text).run u = _ := Script.run_write _ _ u
  rw [Script.run_bind, hwrite]
  cases Script.hasNul (siblingOf p).text with
  | true => exact .inl ⟨.nulInPath, rfl⟩
  | false =>
      cases u.write (siblingOf p).text (Text.Utf8.encode text.toList) with
      | error c => exact .inl ⟨.system c (siblingOf p).text, rfl⟩
      | ok v => exact .inr ⟨rfl, v, rfl⟩

/-- When the replacing fails, nothing but the sibling can be gone after it. -/
theorem store_replace_of_error (hp : p.Normal) (hne : p.parts ≠ [])
    (hgone : u.entryAt? p.text = none) (h : ((replace p text).run u).result = .error e) :
    ((replace p text).run u).store = u ∨
      ∃ loc entry, u.entryAt? (siblingOf p).text = some (loc, entry) ∧
        ((replace p text).run u).store = u.remove loc := by
  rcases run_send_cases p text u with ⟨f, hrun⟩ | ⟨hnul, v, hw⟩
  · rw [replace_eq, Script.store_onFault, hrun]
    have hcleanup : ((discard (siblingOf p) >>= fun _ => pure () : Script Unit).run u).store =
        ((discard (siblingOf p)).run u).store := by
      rw [Script.store_bind]
      cases ((discard (siblingOf p)).run u).result <;> rfl
    simp only [hcleanup]
    exact store_discard (siblingOf p) u
  · obtain ⟨k, dir, e', -, -, hrun⟩ := run_send_of_write hp hne hgone hnul hw
    have hok : ((replace p text).run u).result = .ok () := by
      rw [replace_eq, Script.result_onFault_eq_ok_iff, hrun]
    rw [hok] at h
    cases h

/-! ## The whole of it -/

theorem install_eq (text : String) (p : Path) :
    install text p = discard p >>= fun removed =>
      (if removed then Script.report (.glueRemoved p) else pure ()) >>= fun _ =>
        replace p text >>= fun _ => Script.report (.glueWritten p) >>= fun _ => pure p := by
  unfold install
  congr 1
  funext removed
  cases removed <;> rfl

/-- The part of an installation behind the discarding. -/
theorem run_install_rest (removed : Bool) (text : String) (p : Path) (u : Store) :
    let rest : Script Path :=
      (if removed then Script.report (.glueRemoved p) else pure ()) >>= fun _ =>
        replace p text >>= fun _ => Script.report (.glueWritten p) >>= fun _ => pure p
    (rest.run u).result = ((replace p text).run u).result.map (fun _ => p) ∧
      (rest.run u).store = ((replace p text).run u).store := by
  have hskip : ∀ y : Script Path,
      (((if removed then Script.report (.glueRemoved p) else pure ()) >>= fun _ => y).run u).result =
          (y.run u).result ∧
        (((if removed then Script.report (.glueRemoved p) else pure ()) >>= fun _ => y).run
          u).store = (y.run u).store := by
    intro y
    cases removed <;> exact ⟨rfl, rfl⟩
  intro rest
  rw [(hskip _).1, (hskip _).2, Script.result_bind, Script.store_bind]
  simp only [Script.result_report_bind, Script.store_report_bind, Script.run_pure]
  cases ((replace p text).run u).result with
  | error e => exact ⟨rfl, rfl⟩
  | ok _ => exact ⟨rfl, by simp only⟩

theorem result_install (text : String) (p : Path) (s : Store) :
    ((install text p).run s).result =
      match ((discard p).run s).result with
      | .error e => .error e
      | .ok _ => ((replace p text).run ((discard p).run s).store).result.map fun _ => p := by
  rw [install_eq, Script.result_bind]
  cases ((discard p).run s).result with
  | error e => rfl
  | ok removed => exact (run_install_rest removed text p _).1

theorem store_install (text : String) (p : Path) (s : Store) :
    ((install text p).run s).store =
      match ((discard p).run s).result with
      | .error _ => ((discard p).run s).store
      | .ok _ => ((replace p text).run ((discard p).run s).store).store := by
  rw [install_eq, Script.store_bind]
  cases ((discard p).run s).result with
  | error e => rfl
  | ok removed => exact (run_install_rest removed text p _).2

/-- After a successful discarding at most the entry that the path named is gone. -/
theorem without_discard (p : Path) (s : Store) :
    ∃ gone, ((discard p).run s).store = s.without gone ∧
      ∀ loc ∈ gone, ∃ entry, s.entryAt? p.text = some (loc, entry) := by
  rcases store_discard p s with hu | ⟨loc, entry, hat, hu⟩
  · exact ⟨[], hu, by simp⟩
  · exact ⟨[loc], hu, by simp [hat]⟩

/-- A replacing that fails behind a discarding leaves the place free, and takes
at most the sibling away. -/
theorem without_replace {gone : List Location} (hp : p.Normal) (hne : p.parts ≠ [])
    (hgone : (s.without gone).entryAt? p.text = none)
    (h : ((replace p text).run (s.without gone)).result = .error e) :
    ((replace p text).run (s.without gone)).store.entryAt? p.text = none ∧
      ∃ more, ((replace p text).run (s.without gone)).store = s.without more ∧
        ∀ loc ∈ more, loc ∈ gone ∨
          ∃ entry, s.entryAt? (siblingOf p).text = some (loc, entry) := by
  rcases store_replace_of_error hp hne hgone h with ht | ⟨loc, entry, hat, ht⟩
  · rw [ht]
    exact ⟨hgone, gone, rfl, fun loc hloc => .inl hloc⟩
  · rw [ht]
    refine ⟨?_, gone ++ [loc], ?_, ?_⟩
    · rcases (Within.remove (s.without gone) loc).entryAt? p.text with hsame | hnone
      · exact hsame.trans hgone
      · exact hnone
    · rw [Store.without_append]
      rfl
    · intro l hl
      rcases List.mem_append.mp hl with hl | hl
      · exact .inl hl
      · rw [List.mem_singleton.mp hl]
        rcases (Store.within_without s gone).entryAt? (siblingOf p).text with hsame | hnone
        · exact .inr ⟨entry, hsame.symm.trans hat⟩
        · rw [hnone] at hat
          cases hat

/-- When an installation fails, either nothing has changed, or the old glue is
gone, none stands in its place, and at most the sibling is gone besides. -/
theorem install_error_cases (hp : p.Normal)
    (h : ((install text p).run s).result = .error e) :
    ((discard p).run s).result = .error e ∧ ((install text p).run s).store = s ∨
      (∃ removed, ((discard p).run s).result = .ok removed) ∧
        ((install text p).run s).store.entryAt? p.text = none ∧
        ∃ gone, ((install text p).run s).store = s.without gone ∧
          ∀ loc ∈ gone, ∃ entry, s.entryAt? p.text = some (loc, entry) ∨
            s.entryAt? (siblingOf p).text = some (loc, entry) := by
  rw [result_install] at h
  rw [store_install]
  cases hd : ((discard p).run s).result with
  | error f =>
      rw [hd] at h
      cases h
      exact .inl ⟨rfl, store_discard_of_error hd⟩
  | ok removed =>
      rw [hd] at h
      simp only
      have hgone := entryAt?_discard hd
      obtain ⟨gone, hu, hmem⟩ := without_discard p s
      rw [hu] at h hgone ⊢
      cases hr : ((replace p text).run (s.without gone)).result with
      | ok _ =>
          simp only [hr] at h
          cases h
      | error f =>
          obtain ⟨hnone, more, ht, hmore⟩ :=
            without_replace hp (parts_ne_nil_of_discard hd) hgone hr
          refine .inr ⟨⟨removed, rfl⟩, hnone, more, ht, ?_⟩
          intro loc hloc
          rcases hmore loc hloc with hin | ⟨entry, hat⟩
          · exact (hmem loc hin).imp fun _ => .inl
          · exact ⟨entry, .inr hat⟩

end SdkGlue.Glue
