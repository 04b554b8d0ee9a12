import SdkGlue.Proofs.Command.Report
import SdkGlue.Proofs.Command.Screen
import SdkGlue.Proofs.Command.Work
import SdkGlue.Proofs.Project.Aliases

/-!
# Reports and regenerations

A report on the sources of a project and a regeneration of its glue walk over
the sources separately.  On one store they fail alike, and the links in the last
line of the report are those that the regeneration finds.
-/

namespace SdkGlue

theorem Catalog.linked_arrange (t : Catalog) (ms : List Member) :
    t.linked (t.arrange ms) = t.linked ms := by
  have harrange : t.arrange (t.arrange ms) = t.arrange ms := by
    apply List.filter_congr
    intro m hm
    simp [hm]
  rw [linked, harrange, linked]

namespace Command

open Project

variable {s : Store} {config : Layout.Source} {project : Path} {layout : Layout}

theorem print_summary (count : Nat) (ms : List Member) :
    (Host.screen .small).line (summary count (Catalog.sdk.linked ms)) =
      .ok (summary count (Catalog.sdk.linked ms) ++ "\n") := by
  have hhost := showsPlain_screen Markup.Dialect.isOrdinary_small
  exact hhost.line_of_shown _ _ ⟨isPlain_summary count ms, .inl rfl⟩

theorem print_scanReport (directory : Path) (found : List (Path × List Member)) :
    (scanReport directory found).map (Host.screen .small).print =
      [(scanTable directory found).render,
        .ok (summary found.length (scanLinks found) ++ "\n")] := by
  rw [scanReport_eq, scanLinks, ← print_summary]
  rfl

theorem result_work_scan (hload : ((Layout.load config).run s).result = .ok layout) :
    ((work .scan config project).run s).result =
      ((Project.scan project layout).run s).result.map fun found =>
        (scanReport (layout.sourcesOf project) found).map (Host.screen .small).print := by
  rw [result_work, outcomeOf, hload, ok_bind, result_workWith]
  cases ((Project.scan project layout).run s).result <;> rfl

/-- Collecting the members of a directory and scanning its sources one by one
agree: they fail alike, or the scan has one entry for each path of the listing,
in its order, with what that source includes, and all of them together give the
collection.  A report on a project therefore fails as its regeneration does, and
else ends with the links of the regeneration. -/
theorem scan_agrees (hs : s.Lawful) :
    (∀ directory suffix,
      (∃ fault, ((Sources.collect directory suffix).run s).result = .error fault ∧
        ((Sources.scanEach directory suffix).run s).result = .error fault) ∨
      ∃ members found, ((Sources.collect directory suffix).run s).result = .ok members ∧
        ((Sources.scanEach directory suffix).run s).result = .ok found ∧
        ((Sources.list directory suffix).run s).result = .ok (found.map Prod.fst) ∧
        (found.map Prod.fst).Nodup ∧
        Keyed.ofPairs found = found ∧
        (∀ e ∈ found, ((Sources.membersOf e.1).run s).result = .ok e.2) ∧
        ∀ m, m ∈ members ↔ ∃ e ∈ found, m ∈ e.2) ∧
    ∀ config project layout, ((Layout.load config).run s).result = .ok layout →
      (∀ fault, ((work .scan config project).run s).result = .error fault →
        ((generate project layout).run s).result = .error fault) ∧
      ∀ printed, ((work .scan config project).run s).result = .ok printed →
        ∃ members found, collected project layout s = .ok members ∧
          ((Project.scan project layout).run s).result = .ok found ∧
          printed = [(scanTable (layout.sourcesOf project) found).render,
            .ok (summary found.length (Catalog.sdk.linked members) ++ "\n")] ∧
          ∀ g, ((generate project layout).run s).result = .ok g →
            g.libraries = Catalog.sdk.linked members := by
  refine ⟨fun directory suffix => ?_, fun config project layout hload => ?_⟩
  · refine (Sources.collect_scanEach_cases hs directory suffix).imp_right ?_
    rintro ⟨members, found, hcollect, hscan, hlist, hnodup, hkept, hall, -, hmem⟩
    exact ⟨members, found, hcollect, hscan, hlist, hnodup, hkept, hall, hmem⟩
  · rw [result_work_scan hload, result_generate]
    unfold collected Project.scan
    rcases Sources.collect_scanEach_cases hs (layout.sourcesOf project).text layout.suffix with
      ⟨fault, hcollect, hscan⟩ | ⟨members, found, hcollect, hscan, -, -, -, -, harrange, -⟩
    · rw [hcollect, hscan]
      exact ⟨fun fault' h => by cases h; rfl, nofun⟩
    · rw [hcollect, hscan]
      refine ⟨nofun, ?_⟩
      rintro printed ⟨⟩
      -- the report links what it scanned, the regeneration what it collected of it
      have hlinks : scanLinks found = Catalog.sdk.linked members := by
        rw [harrange, Catalog.linked_arrange, scanLinks]
      refine ⟨members, found, rfl, rfl, ?_, ?_⟩
      · rw [← hlinks]
        exact print_scanReport _ found
      · intro g hg
        rw [ok_bind] at hg
        obtain ⟨path, -, rfl⟩ := map_eq_ok_iff.mp hg
        rfl

/-- A project with two sources that need one library together. -/
def twoSources : Store :=
  (((Store.empty []).set ["d"] .directory).set ["a.c", "d"]
    (.file (including ["gpio", "spi"]))).set ["b.c", "d"] (.file (including ["stdio"]))

theorem candidates_twoSources : ((Sources.candidates "d" ".c").run twoSources).result =
    .ok [⟨"d/a.c", .file⟩, ⟨"d/b.c", .file⟩] := by
  have hkept : (twoSources.children ["d"]).filter (fun e => Sources.hasSuffix ".c" e.1) =
      [("a.c", .file), ("b.c", .file)] := by decide +kernel
  exact Sources.result_candidates_of_sorted (by decide) (by rfl) hkept (by decide)

theorem collect_twoSources : ((Sources.collect "d" ".c").run twoSources).result =
    .ok [⟨"stdio", "pico_stdlib"⟩, ⟨"gpio", "pico_stdlib"⟩, ⟨"spi", "hardware_spi"⟩] := by
  rw [Sources.result_collect, Sources.result_forEach, candidates_twoSources]
  exact toOption_eq_some_iff.mp (by decide +kernel)

theorem list_twoSources : ((Sources.list "d" ".c").run twoSources).result =
    .ok [.ofString "d/a.c", .ofString "d/b.c"] := by
  rw [Sources.result_list, candidates_twoSources]
  rfl

/-- Both sources are scanned, and the library that they share is there once. -/
theorem scan_agrees_twoSources :
    twoSources.Lawful ∧ ∃ config layout,
      ((Layout.load config).run twoSources).result = .ok layout ∧
      ∃ table g, ((work .scan config (.ofString ".")).run twoSources).result =
          .ok [table, .ok "2 files, links: pico_stdlib hardware_spi\n"] ∧
        ((generate (.ofString ".") layout).run twoSources).result = .ok g ∧
        g.libraries = ["pico_stdlib", "hardware_spi"] := by
  have hs : twoSources.Lawful := by decide +kernel
  have hload : ((Layout.load (.table [("generated_dir", .text "d"), ("output_path",
      .text "glue")])).run twoSources).result = .ok ⟨"d", "glue", ".c"⟩ := by rfl
  have hdirectory : (Layout.sourcesOf ⟨"d", "glue", ".c"⟩ (.ofString ".")).text = "d" := by decide
  have hcollected : collected (.ofString ".") ⟨"d", "glue", ".c"⟩ twoSources =
      .ok [⟨"stdio", "pico_stdlib"⟩, ⟨"gpio", "pico_stdlib"⟩, ⟨"spi", "hardware_spi"⟩] := by
    rw [collected, hdirectory]
    exact collect_twoSources
  have hwritten : (written (.ofString ".") ⟨"d", "glue", ".c"⟩ [⟨"stdio", "pico_stdlib"⟩,
      ⟨"gpio", "pico_stdlib"⟩, ⟨"spi", "hardware_spi"⟩] twoSources).result =
        .ok (.ofString "glue") :=
    toOption_eq_some_iff.mp (by decide +kernel)
  obtain ⟨g, hg⟩ : ∃ g, ((generate (.ofString ".") ⟨"d", "glue", ".c"⟩).run twoSources).result =
      .ok g := by
    rw [result_generate, hcollected, ok_bind, hwritten]
    exact ⟨_, rfl⟩
  obtain ⟨-, hproject⟩ := scan_agrees hs
  obtain ⟨hfail, hprint⟩ := hproject _ (.ofString ".") _ hload
  refine ⟨hs, _, _, hload, ?_⟩
  cases hwork : ((work .scan (.table [("generated_dir", .text "d"), ("output_path",
      .text "glue")]) (.ofString ".")).run twoSources).result with
  | error fault => cases hg.symm.trans (hfail fault hwork)
  | ok printed =>
      obtain ⟨members, found, hmembers, hfound, rfl, hlinks⟩ := hprint printed hwork
      cases hcollected.symm.trans hmembers
      rw [Project.scan, hdirectory] at hfound
      obtain ⟨hlist, -⟩ := Sources.scanEach_eq_ok_iff.mp hfound
      have hlength := congrArg List.length (Except.ok.inj (list_twoSources.symm.trans hlist))
      rw [List.length_map] at hlength
      have hline : summary found.length (Catalog.sdk.linked [⟨"stdio", "pico_stdlib"⟩,
          ⟨"gpio", "pico_stdlib"⟩, ⟨"spi", "hardware_spi"⟩]) ++ "\n" =
            "2 files, links: pico_stdlib hardware_spi\n" := by
        rw [← hlength]
        rfl
      rw [hline]
      exact ⟨_, g, rfl, hg, hlinks g hg⟩

end Command

end SdkGlue
