import SdkGlue.Proofs.Glue.Frame
import SdkGlue.Proofs.Project.Generate
import SdkGlue.Proofs.Sources.Clean

/-!
# A regeneration and its sources

A regeneration reads the sources and writes the glue and its sibling.  So in a
store without links every source survives it that is neither of these two, and
a source that is one of them does not have to.
-/

namespace SdkGlue

variable {s : Store} {layout : Layout} {loc : Location} {files : List Path}
  {directory suffix : String}

/-- Without links a listing gives files that stand in the directory. -/
theorem Sources.find?_of_list (hs : s.Lawful) (hlinks : s.Linkless)
    (h : ((list directory suffix).run s).result = .ok files) :
    ∃ dir, s.resolve .target directory = .ok (.entry dir .directory) ∧
      ∀ p ∈ files, ∃ bytes, s.find? (p.name :: dir) = some (.file bytes) := by
  obtain ⟨k, dir, es, hopen, hwait, -, -, rfl⟩ := listed_cases hs h
  refine ⟨dir, hopen, fun p hp => ?_⟩
  obtain ⟨c, hc, rfl⟩ := List.mem_map.mp hp
  obtain ⟨hmem, hjudge⟩ := survey_of_mem hc
  obtain ⟨e, he, rfl⟩ := List.mem_map.mp hmem
  obtain ⟨entry, hfind, hkind⟩ := hwait.stands e he
  have hname : (Path.ofString (candidateOf directory e).path).name = e.1 := hwait.name_pathOf he
  rw [hname, hfind]
  cases entry with
  | file bytes => exact ⟨bytes, rfl⟩
  | link target => exact absurd hfind (hlinks _ target)
  | directory =>
      have hfalse : judge s (candidateOf directory e) = .ok false := by
        unfold judge candidateOf
        rw [← hkind]
        rfl
      rw [hjudge] at hfalse
      cases hfalse

namespace Project

/-- What is neither the glue nor its sibling stays, whether the regeneration
succeeds or fails. -/
theorem find?_generate (hlinks : s.Linkless) {root : String} (hloc : loc ≠ [])
    (hout : s.locate? (layout.glueOf (.ofString root)).text ≠ some loc)
    (hsib : s.locate? (Glue.siblingOf (layout.glueOf (.ofString root))).text ≠ some loc) :
    ((generate (.ofString root) layout).run s).store.find? loc = s.find? loc := by
  rw [store_generate]
  cases collected (.ofString root) layout s with
  | error e => rfl
  | ok members => exact Glue.find?_install (normal_glueOf layout root) hlinks hloc hout hsib

/-- Every listed source that is neither the glue nor its sibling keeps its
content, whether the regeneration succeeds or fails. -/
theorem generate_keeps_sources (hs : s.Lawful) (hlinks : s.Linkless) {root : String}
    (h : ((Sources.list (layout.sourcesOf (.ofString root)).text layout.suffix).run s).result =
      .ok files) :
    let output := layout.glueOf (.ofString root)
    let t := ((generate (.ofString root) layout).run s).store
    ∃ dir, s.resolve .target (layout.sourcesOf (.ofString root)).text =
        .ok (.entry dir .directory) ∧
      ∀ p ∈ files, ∃ bytes, s.find? (p.name :: dir) = some (.file bytes) ∧
        (s.locate? output.text ≠ some (p.name :: dir) →
          s.locate? (Glue.siblingOf output).text ≠ some (p.name :: dir) →
            t.find? (p.name :: dir) = some (.file bytes)) := by
  intro output t
  obtain ⟨dir, hdir, hfiles⟩ := Sources.find?_of_list hs hlinks h
  refine ⟨dir, hdir, fun p hp => ?_⟩
  obtain ⟨bytes, hfind⟩ := hfiles p hp
  refine ⟨bytes, hfind, fun hout hsib => ?_⟩
  exact (find?_generate hlinks (List.cons_ne_nil _ _) hout hsib).trans hfind

/-- A project whose glue and its sibling have the names of sources. -/
def glueOverSources : Store :=
  ((((Store.empty []).set ["d"] .directory).set [".x.tmp.tmp", "d"] (.file [0x61])).set
    ["m.tmp", "d"] (.file [0x62])).set ["x.tmp", "d"] (.file [0x63])

theorem candidates_glueOverSources :
    ((Sources.candidates "d" ".tmp").run glueOverSources).result =
      .ok [⟨"d/.x.tmp.tmp", .file⟩, ⟨"d/m.tmp", .file⟩, ⟨"d/x.tmp", .file⟩] := by
  have hkept : (glueOverSources.children ["d"]).filter (fun e => Sources.hasSuffix ".tmp" e.1) =
      [(".x.tmp.tmp", .file), ("m.tmp", .file), ("x.tmp", .file)] := by decide
  exact Sources.result_candidates_of_sorted (by decide) (by rfl) hkept (by decide)

theorem list_glueOverSources :
    ((Sources.list (Layout.sourcesOf ⟨"d", "d/x.tmp", ".tmp"⟩ (.ofString ".")).text ".tmp").run
      glueOverSources).result =
        .ok [.ofString "d/.x.tmp.tmp", .ofString "d/m.tmp", .ofString "d/x.tmp"] := by
  have hdirectory : (Layout.sourcesOf ⟨"d", "d/x.tmp", ".tmp"⟩ (.ofString ".")).text = "d" := by
    decide
  rw [hdirectory, Sources.result_list, candidates_glueOverSources]
  rfl

/-- The source that is neither glue nor sibling is kept. -/
theorem generate_keeps_source_between :
    glueOverSources.Lawful ∧ glueOverSources.Linkless ∧
      ((Sources.list (Layout.sourcesOf ⟨"d", "d/x.tmp", ".tmp"⟩ (.ofString ".")).text ".tmp").run
        glueOverSources).result =
          .ok [.ofString "d/.x.tmp.tmp", .ofString "d/m.tmp", .ofString "d/x.tmp"] ∧
      ((generate (.ofString ".") ⟨"d", "d/x.tmp", ".tmp"⟩).run glueOverSources).store.find?
        ["m.tmp", "d"] = some (.file [0x62]) := by
  have hs : glueOverSources.Lawful := by decide
  have hlinks : glueOverSources.Linkless := by decide
  refine ⟨hs, hlinks, list_glueOverSources, ?_⟩
  obtain ⟨dir, hdir, hfiles⟩ := generate_keeps_sources hs hlinks list_glueOverSources
  have hd : glueOverSources.resolve .target
      (Layout.sourcesOf ⟨"d", "d/x.tmp", ".tmp"⟩ (.ofString ".")).text =
        .ok (.entry ["d"] .directory) := by rfl
  obtain ⟨rfl, -⟩ := Place.entry.inj (Except.ok.inj (hd.symm.trans hdir))
  obtain ⟨bytes, hfind, hkept⟩ := hfiles (.ofString "d/m.tmp") (by simp)
  have hname : (Path.ofString "d/m.tmp").name = "m.tmp" := by decide
  rw [hname] at hfind hkept
  have hbytes : glueOverSources.find? ["m.tmp", "d"] = some (.file [0x62]) := by rfl
  rw [hbytes] at hfind
  cases hfind
  exact hkept (by decide) (by decide)

/-- The regeneration installs a glue without libraries. -/
theorem store_generate_glueOverSources :
    ((generate (.ofString ".") ⟨"d", "d/x.tmp", ".tmp"⟩).run glueOverSources).store =
      Glue.installed glueOverSources (.ofString "d/x.tmp") ["d"]
        (Text.Utf8.encode (Glue.ofMembers []).toList) := by
  have hdirectory : (Layout.sourcesOf ⟨"d", "d/x.tmp", ".tmp"⟩ (.ofString ".")).text = "d" := by
    decide
  have hglue : Layout.glueOf ⟨"d", "d/x.tmp", ".tmp"⟩ (.ofString ".") = .ofString "d/x.tmp" := by
    decide
  have hcollected : collected (.ofString ".") ⟨"d", "d/x.tmp", ".tmp"⟩ glueOverSources = .ok [] := by
    rw [collected, hdirectory, Sources.result_collect, Sources.result_forEach,
      candidates_glueOverSources]
    rfl
  have hready : Glue.Ready glueOverSources (.ofString "d/x.tmp") 40 ["d"] :=
    { names := ⟨Path.normal_ofString _, by decide, by decide, by rfl, by decide, by decide⟩
      names_sibling := ⟨Glue.normal_siblingOf (Path.normal_ofString _) (by decide), by decide,
        by decide, by rfl, by decide, by decide⟩
      no_nul := by decide
      no_nul_sibling := by decide
      takes := .inr ⟨[0x63], by rfl⟩
      takes_sibling := .inr ⟨[0x61], by rfl⟩ }
  rw [store_generate, hcollected]
  dsimp only [written]
  rw [hglue]
  exact (hready.run_install _).2

/-- The sources that are glue and sibling are lost. -/
theorem generate_loses_sources :
    Layout.ofFields [("generated_dir", .text "d"), ("output_path", .text "d/x.tmp"),
        ("source_suffix", .text ".tmp")] = .ok ⟨"d", "d/x.tmp", ".tmp"⟩ ∧
      glueOverSources.Linkless ∧
      ((Sources.list (Layout.sourcesOf ⟨"d", "d/x.tmp", ".tmp"⟩ (.ofString ".")).text ".tmp").run
        glueOverSources).result =
          .ok [.ofString "d/.x.tmp.tmp", .ofString "d/m.tmp", .ofString "d/x.tmp"] ∧
      glueOverSources.find? ["x.tmp", "d"] = some (.file [0x63]) ∧
      ((generate (.ofString ".") ⟨"d", "d/x.tmp", ".tmp"⟩).run glueOverSources).store.find?
        ["x.tmp", "d"] ≠ some (.file [0x63]) ∧
      glueOverSources.find? [".x.tmp.tmp", "d"] = some (.file [0x61]) ∧
      ((generate (.ofString ".") ⟨"d", "d/x.tmp", ".tmp"⟩).run glueOverSources).store.find?
        [".x.tmp.tmp", "d"] = none := by
  have hname : (Path.ofString "d/x.tmp").name = "x.tmp" := by decide
  have hsibling : (Glue.siblingOf (.ofString "d/x.tmp")).name = ".x.tmp.tmp" := by decide
  have hcontent : Text.Utf8.encode (Glue.ofMembers []).toList ≠ [0x63] := by
    intro heq
    have hfirst := congrArg List.head? heq
    revert hfirst
    decide +kernel
  rw [store_generate_glueOverSources, Glue.find?_installed, Glue.find?_installed, hname, hsibling]
  refine ⟨by rfl, by decide, list_glueOverSources, by rfl, ?_, by rfl, by rfl⟩
  rw [if_pos rfl]
  simpa using hcontent

end Project

end SdkGlue
