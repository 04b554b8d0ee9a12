import SdkGlue.Proofs.Glue.Ready
import SdkGlue.Proofs.Project.Generate

/-!
# A regeneration that is repeated

Without links, and with a glue and a sibling that are no sources themselves, a
regeneration leaves a store in which the same regeneration finds the same
sources, writes the same text and changes nothing.
-/

namespace SdkGlue.Project

open Sources (hasSuffix)

variable {s : Store} {layout : Layout} {g : Generated}

/-- Putting the glue in place does not change what the sources include. -/
theorem collected_installed {project p : Path} {k : Nat} {dir : Location} {bytes : List UInt8}
    {members : List Member} (hs : s.Lawful) (hlinks : s.Linkless) (hready : Glue.Ready s p k dir)
    (hout : hasSuffix layout.suffix p.name = false)
    (hsib : hasSuffix layout.suffix (Glue.siblingOf p).name = false)
    (h : collected project layout s = .ok members) :
    collected project layout (Glue.installed s p dir bytes) = .ok members := by
  obtain ⟨d, hdir, -⟩ := Sources.mem_collect_iff hs h
  obtain ⟨l, hopens⟩ := Store.resolve_eq_directory_iff.mp hdir
  have hopens' := hopens.of_keepsWays (hready.keepsWays bytes) rfl
  have hother : ∀ {name other}, hasSuffix layout.suffix name = true →
      hasSuffix layout.suffix other = false → other :: dir ≠ name :: d := by
    rintro name other hname hno heq
    rw [List.head_eq_of_cons_eq heq, hname] at hno
    cases hno
  refine (Sources.result_collect_congr hs hlinks hopens hopens' ?_ fun name hname => ?_).trans h
  · have hpick : ∀ {other : String}, hasSuffix layout.suffix other = false →
        ∀ name, other :: dir = name :: d → hasSuffix layout.suffix name = false := by
      rintro other hno name heq
      rwa [List.head_eq_of_cons_eq heq] at hno
    have hfilter : ((Glue.installed s p dir bytes).children d).filter
          (fun e => hasSuffix layout.suffix e.1) =
        (s.children d).filter fun e => hasSuffix layout.suffix e.1 := by
      unfold Glue.installed
      rw [Store.filter_children_set _ _ (hpick hout), Store.filter_children_remove _ _ (hpick hsib),
        Store.filter_children_remove _ _ (hpick hout)]
    simp only [Sources.select, hfilter]
  · rw [Glue.find?_installed, if_neg (hother hname hout), if_neg (hother hname hsib)]

/-- A regeneration that succeeded succeeds again, with the same outcome, and
leaves the store as it is. -/
theorem generate_again (hs : s.Lawful) (hlinks : s.Linkless) {root : String}
    (hout : hasSuffix layout.suffix (layout.glueOf (.ofString root)).name = false)
    (hsib : hasSuffix layout.suffix
      (Glue.siblingOf (layout.glueOf (.ofString root))).name = false)
    (h : ((generate (.ofString root) layout).run s).result = .ok g) :
    let t := ((generate (.ofString root) layout).run s).store
    ((generate (.ofString root) layout).run t).result = .ok g ∧
      ((generate (.ofString root) layout).run t).store = t := by
  intro t
  obtain ⟨hcollected, ⟨path, hwritten⟩, hg⟩ := generate_eq_ok_iff.mp h
  have hinstall : ((Glue.install (Glue.ofMembers g.members)
      (layout.glueOf (.ofString root))).run s).result = .ok path := hwritten
  obtain ⟨k, dir, hready⟩ := Glue.ready_of_install (normal_glueOf layout root) hlinks hinstall
  have hfirst := hready.run_install (Glue.ofMembers g.members)
  have ht : t = Glue.installed s (layout.glueOf (.ofString root)) dir
      (Text.Utf8.encode (Glue.ofMembers g.members).toList) := by
    apply (store_generate _ _ _).trans
    rw [hcollected]
    exact hfirst.2
  have hcollected' : collected (.ofString root) layout t = .ok g.members := by
    rw [ht]
    exact collected_installed hs hlinks hready hout hsib hcollected
  have hsecond := (hready.again (Text.Utf8.encode (Glue.ofMembers g.members).toList)).run_install
    (Glue.ofMembers g.members)
  rw [← ht] at hsecond
  refine ⟨generate_eq_ok_iff.mpr ⟨hcollected', ⟨_, hsecond.1⟩, hg⟩, ?_⟩
  apply (store_generate _ _ _).trans
  rw [hcollected']
  apply hsecond.2.trans
  rw [ht, Glue.installed_installed]

/-- A project whose glue lies among its sources, with an old glue and an old
sibling. -/
def glueAmongSources : Store :=
  ((((Store.empty []).set ["d"] .directory).set ["glue", "d"] (.file [0x6f])).set
    [".glue.tmp", "d"] (.file [])).set ["m.c", "d"] (.file [])

/-- Glue and sibling change in the directory of the sources, and the second run
finds it as the first one did. -/
theorem generate_again_glueAmongSources :
    glueAmongSources.Lawful ∧ glueAmongSources.Linkless ∧ ∃ g,
      ((generate (.ofString ".") ⟨"d", "d/glue", ".c"⟩).run glueAmongSources).result = .ok g ∧
      let t := ((generate (.ofString ".") ⟨"d", "d/glue", ".c"⟩).run glueAmongSources).store
      ((generate (.ofString ".") ⟨"d", "d/glue", ".c"⟩).run t).result = .ok g ∧
        ((generate (.ofString ".") ⟨"d", "d/glue", ".c"⟩).run t).store = t := by
  have hs : glueAmongSources.Lawful := by decide
  have hlinks : glueAmongSources.Linkless := by decide
  have hcandidates : ((Sources.candidates "d" ".c").run glueAmongSources).result =
      .ok [⟨"d/m.c", .file⟩] := by
    have hkept : (glueAmongSources.children ["d"]).filter (fun e => hasSuffix ".c" e.1) =
        [("m.c", .file)] := by decide
    exact Sources.result_candidates_of_sorted (by decide) (by rfl) hkept (List.pairwise_singleton _ _)
  have hcollected : collected (.ofString ".") ⟨"d", "d/glue", ".c"⟩ glueAmongSources = .ok [] := by
    have hdirectory : (Layout.sourcesOf ⟨"d", "d/glue", ".c"⟩ (.ofString ".")).text = "d" := by
      decide
    rw [collected, hdirectory, Sources.result_collect, Sources.result_forEach, hcandidates]
    rfl
  have hwritten : (written (.ofString ".") ⟨"d", "d/glue", ".c"⟩ [] glueAmongSources).result =
      .ok (.ofString "d/glue") := by rfl
  have hg : ((generate (.ofString ".") ⟨"d", "d/glue", ".c"⟩).run glueAmongSources).result =
      .ok ⟨[], Layout.glueOf ⟨"d", "d/glue", ".c"⟩ (.ofString "."), Glue.ofMembers []⟩ :=
    generate_eq_ok_iff.mpr ⟨hcollected, ⟨_, hwritten⟩, rfl⟩
  exact ⟨hs, hlinks, _, hg, generate_again hs hlinks (by decide) (by decide) hg⟩

end SdkGlue.Project
