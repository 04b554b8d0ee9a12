import SdkGlue.Proofs.Glue.Tokens
import SdkGlue.Proofs.Project.Generate
import SdkGlue.Proofs.Sources.Cleaned
import SdkGlue.Proofs.Store.Lawful

/-!
# A project that was cleaned

A cleaning that succeeded leaves a project without sources, whatever links there
are: a listing is empty, a second cleaning has nothing to do, and a regeneration
finds nothing to link.
-/

namespace SdkGlue.Project

open Sources (Exhausted)

variable {s : Store} {layout : Layout} {root : String} {dir : Location}

theorem normal_sourcesOf (layout : Layout) (root : String) :
    (layout.sourcesOf (.ofString root)).Normal :=
  (Path.normal_ofString root).join (Path.normal_ofString layout.sourceDir)

/-- The probe of a cleaning finds the directory of the sources. -/
theorem probe_sourcesOf (hs : s.Lawful)
    (hdir : s.resolve .target (layout.sourcesOf (.ofString root)).text =
      .ok (.entry dir .directory)) :
    ((Script.probe (Path.ofString (layout.sourcesOf (.ofString root)).text).text).run s).result =
      .ok (some .directory) := by
  obtain ⟨k, hopens⟩ := Store.resolve_eq_directory_iff.mp hdir
  have hnul : Script.hasNul (layout.sourcesOf (.ofString root)).text = false := by
    simpa [Script.hasNul] using hopens.no_nul hs
  have hkind : s.kindAt (layout.sourcesOf (.ofString root)).text = .ok .directory := by
    rw [Store.kindAt, hdir]
    rfl
  rw [Path.ofString_text (normal_sourcesOf layout root), Script.probe, hnul, if_neg (by simp),
    Script.run_ask]
  simp only [Request.run, hkind]
  rfl

/-- A cleaning that succeeds leaves nothing to list, to clean, to collect or to
link. -/
theorem clean_leaves_no_source (hs : s.Lawful)
    (hdir : s.resolve .target (layout.sourcesOf (.ofString root)).text =
      .ok (.entry dir .directory))
    {removed : Nat} (h : ((clean (.ofString root) layout).run s).result = .ok removed) :
    let sources := (layout.sourcesOf (.ofString root)).text
    let t := ((clean (.ofString root) layout).run s).store
    ((Sources.list sources layout.suffix).run t).result = .ok [] ∧
      ((clean (.ofString root) layout).run t).result = .ok 0 ∧
      ((clean (.ofString root) layout).run t).store = t ∧
      ((Sources.collect sources layout.suffix).run t).result = .ok [] ∧
      ∀ g, ((generate (.ofString root) layout).run t).result = .ok g →
        g.libraries = [] ∧ Glue.tokens g.content = [] := by
  intro sources t
  obtain ⟨hres, hstore⟩ := Sources.run_clean (probe_sourcesOf hs hdir) layout.suffix
  have hremoved : ∃ units,
      ((Sources.forEach sources layout.suffix Sources.remove).run s).result = .ok units := by
    cases hr : ((Sources.forEach sources layout.suffix Sources.remove).run s).result with
    | ok units => exact ⟨units, rfl⟩
    | error e =>
        have hfail := hres.symm.trans h
        rw [hr] at hfail
        cases hfail
  obtain ⟨units, hunits⟩ := hremoved
  have hlawful : t.Lawful := (Sources.leaves_clean sources layout.suffix s).lawful hs
  have hexhausted : Exhausted t sources layout.suffix := by
    have hleft := Sources.exhausted_of_forEach_remove hs hunits
    rwa [← hstore] at hleft
  obtain ⟨dir', hdir'⟩ := hexhausted.resolve_eq_directory
  obtain ⟨hres', hstore'⟩ := Sources.run_clean (probe_sourcesOf hlawful hdir') layout.suffix
  obtain ⟨hnone, hsame⟩ := hexhausted.run_forEach Sources.remove
  refine ⟨hexhausted.result_list, ?_, hstore'.trans hsame, hexhausted.result_collect, ?_⟩
  · apply hres'.trans
    rw [hnone]
    rfl
  · intro g hg
    obtain ⟨hcollected, -, hcontent⟩ := generate_eq_ok_iff.mp hg
    have hmembers : g.members = [] :=
      Except.ok.inj (hcollected.symm.trans hexhausted.result_collect)
    have hlibraries : g.libraries = [] := by
      rw [Generated.libraries, hmembers]
      rfl
    refine ⟨hlibraries, ?_⟩
    have hglue : g.content = Glue.ofMembers g.members := congrArg Generated.content hcontent
    rw [hglue, Glue.tokens_ofMembers]
    exact hlibraries

/-- A project with a source and a link to it, and a link that turns back to the
directory. -/
def linkedSource : Store :=
  ((((Store.empty []).set ["d"] .directory).set ["a.c", "d"] (.file [])).set
    ["b.c", "d"] (.link "a.c")).set ["c.c", "d"] (.link ".")

/-- The link to the source is left behind, and is no source any more. -/
theorem clean_leaves_no_source_linkedSource :
    linkedSource.Lawful ∧
      linkedSource.resolve .target (Layout.sourcesOf ⟨"d", "glue", ".c"⟩ (.ofString ".")).text =
        .ok (.entry ["d"] .directory) ∧
      ((clean (.ofString ".") ⟨"d", "glue", ".c"⟩).run linkedSource).result = .ok 1 ∧
      ((Sources.list (Layout.sourcesOf ⟨"d", "glue", ".c"⟩ (.ofString ".")).text ".c").run
        ((clean (.ofString ".") ⟨"d", "glue", ".c"⟩).run linkedSource).store).result = .ok [] := by
  have hs : linkedSource.Lawful := by decide
  have hdir : linkedSource.resolve .target
      (Layout.sourcesOf ⟨"d", "glue", ".c"⟩ (.ofString ".")).text =
        .ok (.entry ["d"] .directory) := by rfl
  have hdirectory : (Layout.sourcesOf ⟨"d", "glue", ".c"⟩ (.ofString ".")).text = "d" := by decide
  have hcandidates : ((Sources.candidates "d" ".c").run linkedSource).result =
      .ok [⟨"d/a.c", .file⟩, ⟨"d/b.c", .link⟩, ⟨"d/c.c", .link⟩] := by
    have hkept : (linkedSource.children ["d"]).filter (fun e => Sources.hasSuffix ".c" e.1) =
        [("a.c", .file), ("b.c", .link), ("c.c", .link)] := by decide
    exact Sources.result_candidates_of_sorted (by decide) (by rfl) hkept (by decide)
  have hclean : ((clean (.ofString ".") ⟨"d", "glue", ".c"⟩).run linkedSource).result = .ok 1 := by
    apply (Sources.run_clean (probe_sourcesOf hs hdir) ".c").1.trans
    rw [hdirectory, Sources.result_forEach, hcandidates]
    rfl
  exact ⟨hs, hdir, hclean, (clean_leaves_no_source hs hdir hclean).1⟩

end SdkGlue.Project
