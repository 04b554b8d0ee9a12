import SdkGlue.Proofs.Glue.Frame
import SdkGlue.Proofs.Text.Utf8

/-!
# Installations among links

With links in the store an installation still changes two entries, and at most one
file besides: the text follows a link that stands in the place of the sibling.
When it fails no file has been written at all.
-/

namespace SdkGlue.Glue

variable {s : Store} {text path : String} {q : Path} {e : Fault}

/-- An installation that succeeds changes the entries of the glue and of its sibling,
and one file: the sibling itself, or the file to which a link in its place leads
once the old glue is gone. -/
theorem install_writes_only (h : ((install text (.ofString path)).run s).result = .ok q) :
    let p := Path.ofString path
    let t := ((install text p).run s).store
    ∃ output sibling file, s.locate? p.text = some output ∧
      s.locate? (siblingOf p).text = some sibling ∧
      (s.remove output).Writable (siblingOf p).text file ∧
      (file = sibling ∨ ∃ target, s.find? sibling = some (.link target)) ∧
      (∀ loc, loc ≠ output → loc ≠ sibling → loc ≠ file → t.find? loc = s.find? loc) ∧
      (file ≠ output → file ≠ sibling → t.find? file = some (.file text.toUTF8.data.toList)) := by
  intro p t
  obtain ⟨k, dir, file, hopened⟩ := opened_of_install (Path.normal_ofString path) h
  obtain ⟨-, e, -, hstore⟩ := hopened.run_install text
  have hfind : ∀ loc, t.find? loc =
      if p.name :: dir = loc then some e
      else if (siblingOf p).name :: dir = loc then none
      else if file = loc then some (.file text.toUTF8.data.toList)
      else s.find? loc := by
    intro loc
    have hfile := Store.find?_set (s.remove (p.name :: dir)) hopened.writable.takesFile.ne_nil
    rw [show t = _ from hstore, Store.find?_set_cons, Store.find?_remove_cons, hfile,
      Store.find?_remove_cons, Text.Utf8.encode_toList]
    split
    · rfl
    · rfl
  refine ⟨p.name :: dir, (siblingOf p).name :: dir, file, locate?_of_names hopened.names_before,
    locate?_of_names hopened.names_sibling, hopened.writable, hopened.sibling.2, ?_, ?_⟩
  · intro loc hout hsib hother
    rw [hfind, if_neg (Ne.symm hout), if_neg (Ne.symm hsib), if_neg (Ne.symm hother)]
  · intro hout hsib
    rw [hfind, if_neg (Ne.symm hout), if_neg (Ne.symm hsib), if_pos rfl]

/-- A directory with a file, and a link in the place of the sibling. -/
def linkedSibling (target : String) : Store :=
  (((Store.empty []).set ["d"] .directory).set ["kept", "d"] (.file [0x61])).set
    [".glue.tmp", "d"] (.link target)

/-- A link that leads nowhere has the text put where it points, and the file beside
it stays. -/
theorem install_writes_only_dangling :
    ((install "x" (.ofString "d/glue")).run (linkedSibling "../made")).result =
        .ok (.ofString "d/glue") ∧
      ((install "x" (.ofString "d/glue")).run (linkedSibling "../made")).store.find? ["made"] =
        some (.file [0x78]) ∧
      ((install "x" (.ofString "d/glue")).run (linkedSibling "../made")).store.find?
        ["kept", "d"] = some (.file [0x61]) := by
  have hresult : ((install "x" (.ofString "d/glue")).run (linkedSibling "../made")).result =
      .ok (.ofString "d/glue") := by rfl
  have hbytes : "x".toUTF8.data.toList = [0x78] := by decide
  obtain ⟨output, sibling, file, hout, hsib, hfile, -, hkept, hwritten⟩ :=
    install_writes_only hresult
  obtain rfl : ["glue", "d"] = output := by
    have hplace : (linkedSibling "../made").locate? (Path.ofString "d/glue").text =
        some ["glue", "d"] := by rfl
    exact Option.some.inj (hplace.symm.trans hout)
  obtain rfl : [".glue.tmp", "d"] = sibling := by
    have hplace : (linkedSibling "../made").locate? (siblingOf (.ofString "d/glue")).text =
        some [".glue.tmp", "d"] := by rfl
    exact Option.some.inj (hplace.symm.trans hsib)
  have hresolve : ((linkedSibling "../made").remove ["glue", "d"]).resolve .writing
      (siblingOf (.ofString "d/glue")).text = .ok (.vacant [] "made") := by rfl
  obtain rfl : ["made"] = file := by
    rcases hfile with ⟨old, hr⟩ | ⟨dir, name, hr, rfl⟩
    · cases hresolve.symm.trans hr
    · cases hresolve.symm.trans hr
      rfl
  refine ⟨hresult, ?_, ?_⟩
  · rw [← hbytes]
    exact hwritten (by decide) (by decide)
  · rw [hkept ["kept", "d"] (by decide) (by decide) (by decide)]
    rfl

/-- A link in the place of the sibling has the text put into the file that it leads
to, and becomes the glue. -/
theorem install_overwrites_target :
    ((install "x" (.ofString "d/glue")).run (linkedSibling "kept")).result =
        .ok (.ofString "d/glue") ∧
      (linkedSibling "kept").locate? (Path.ofString "d/glue").text = some ["glue", "d"] ∧
      (linkedSibling "kept").locate? (siblingOf (.ofString "d/glue")).text =
        some [".glue.tmp", "d"] ∧
      (linkedSibling "kept").find? ["kept", "d"] = some (.file [0x61]) ∧
      ((install "x" (.ofString "d/glue")).run (linkedSibling "kept")).store.find?
        ["kept", "d"] = some (.file [0x78]) ∧
      ((install "x" (.ofString "d/glue")).run (linkedSibling "kept")).store.find?
        ["glue", "d"] = some (.link "kept") := by
  refine ⟨by rfl, ?_, ?_, by rfl, ?_, ?_⟩
  all_goals decide +kernel

/-- An installation that fails takes at most the glue and its sibling away and
writes no file; when it fails at discarding the glue it changes nothing. -/
theorem install_error_writes_nothing
    (h : ((install text (.ofString path)).run s).result = .error e) :
    let p := Path.ofString path
    let t := ((install text p).run s).store
    (∃ gone, t = s.without gone ∧ ∀ loc ∈ gone, ∃ entry,
      s.entryAt? p.text = some (loc, entry) ∨ s.entryAt? (siblingOf p).text = some (loc, entry)) ∧
    (∀ loc, t.find? loc = s.find? loc ∨ t.find? loc = none ∧ ∃ entry,
      s.entryAt? p.text = some (loc, entry) ∨ s.entryAt? (siblingOf p).text = some (loc, entry)) ∧
    ∀ f, ((discard p).run s).result = .error f → t = s := by
  intro p t
  have hgone : ∃ gone, t = s.without gone ∧ ∀ loc ∈ gone, ∃ entry,
      s.entryAt? p.text = some (loc, entry) ∨
        s.entryAt? (siblingOf p).text = some (loc, entry) := by
    rcases install_error_cases (Path.normal_ofString path) h with ⟨-, hsame⟩ | ⟨-, -, hgone⟩
    · exact ⟨[], hsame, by simp⟩
    · exact hgone
  refine ⟨hgone, fun loc => ?_, fun f hf => ?_⟩
  · obtain ⟨gone, hstore, hplaces⟩ := hgone
    rw [hstore]
    by_cases hloc : loc ∈ gone
    · rcases (Store.within_without s gone).2 loc with hnone | hsame
      · exact .inr ⟨hnone, hplaces loc hloc⟩
      · exact .inl hsame
    · exact .inl (Store.find?_without_of_not_mem s hloc)
  · rcases install_error_cases (Path.normal_ofString path) h with ⟨-, hsame⟩ | ⟨⟨removed, hr⟩, -⟩
    · exact hsame
    · rw [hr] at hf
      cases hf

/-- A path on whose way its own entry stands. -/
def ownWay : Store :=
  ((Store.empty []).set ["l"] (.link ".")).set ["kept"] (.file [0x61])

/-- The entry is discarded and with it the way to the sibling; the run fails, and the
other file stays. -/
theorem install_error_writes_nothing_ownWay :
    ((install "x" (.ofString "l/l")).run ownWay).result = .error (.system .missing "l/.l.tmp") ∧
      ((install "x" (.ofString "l/l")).run ownWay).store.find? ["l"] = none ∧
      ((install "x" (.ofString "l/l")).run ownWay).store.find? ["kept"] = some (.file [0x61]) := by
  have hresult : ((install "x" (.ofString "l/l")).run ownWay).result =
      .error (.system .missing "l/.l.tmp") := by rfl
  have hplace : ownWay.entryAt? (Path.ofString "l/l").text = some (["l"], .link ".") := by
    decide +kernel
  have hsibling : ownWay.entryAt? (siblingOf (.ofString "l/l")).text = none := by
    decide +kernel
  obtain ⟨-, hentries, -⟩ := install_error_writes_nothing hresult
  refine ⟨hresult, by rfl, ?_⟩
  rcases hentries ["kept"] with hsame | ⟨-, entry, hat | hat⟩
  · exact hsame.trans (by rfl)
  · rw [hplace] at hat
    exact absurd hat (by simp)
  · rw [hsibling] at hat
    exact absurd hat (by simp)

end SdkGlue.Glue
