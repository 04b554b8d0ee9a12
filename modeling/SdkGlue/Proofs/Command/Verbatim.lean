import SdkGlue.Proofs.Command.Ending

/-!
# Paths and names in reports

The paths and names in reports are read as markup.  Plain ones come out as they are; a
directory with a name in brackets is missing from the path that a report shows.
-/

namespace SdkGlue.Command

open Project

variable {ε : Type} {host : Host ε} {fits : Table → Prop} {s : Store} {activity : Activity}
  {config : Layout.Source} {project : Path} {layout : Layout} {items : List Item}
  {args : List String} {inv : Invocation} {o : Printout ε}

/-- A report of two parts that ends with an exit code was printed as a whole. -/
theorem ofPrinted_of_exit {p q : Except ε String} {code : Nat}
    (h : (Printout.ofPrinted [p, q]).ending = .exit code) :
    ∃ first second, p = .ok first ∧ q = .ok second ∧
      (Printout.ofPrinted [p, q]).stdout = first ++ second := by
  cases p with
  | error e => cases h
  | ok first =>
      cases q with
      | error e => cases h
      | ok second =>
          refine ⟨first, second, rfl, rfl, ?_⟩
          simp [Printout.ofPrinted]

/-- A command on a project that ends with 0 has done its work, and printed the whole
report on it. -/
theorem reports_of_exit (hread : Invocation.read args = .ok inv)
    (haction : inv.action = some (.work activity project))
    (hrun : ((runOn host args).run s).result = .ok o) (hexit : o.ending = .exit 0) :
    ∃ layout items, ((Layout.load inv.config).run s).result = .ok layout ∧
      Reports s project layout activity items ∧
      o = Printout.ofPrinted (items.map host.print) := by
  have hwork := result_workOn host activity inv.config project s
  rw [runOn, hread] at hrun
  simp only [Script.result_report_bind, haction] at hrun
  split at hwork
  · rw [(perform_of_ok hwork).1] at hrun
    cases hrun
    cases hexit
  · cases houtcome : outcomeOf activity inv.config project s with
    | error fault =>
        rw [houtcome] at hwork
        rw [(perform_of_error hwork).1] at hrun
        cases hrun
        cases hexit
    | ok items =>
        rw [houtcome] at hwork
        rw [(perform_of_ok hwork).1] at hrun
        obtain ⟨layout, hload, hitems⟩ := outcomeOf_eq_ok_iff.mp houtcome
        exact ⟨layout, items, hload, reports_of_workWith hitems, (Except.ok.inj hrun).symm⟩

/-! ## Reports on regenerations -/

/-- The report on a regeneration: the line of its libraries, and what is shown of the
line with the path of the glue. -/
structure ReportsGlue (host : Host ε) (s : Store) (config : Layout.Source) (project : Path)
    (layout : Layout) (g : Generated) (stdout shown : String) : Prop where
  loaded : ((Layout.load config).run s).result = .ok layout
  generated : ((generate project layout).run s).result = .ok g
  output : g.output = layout.glueOf project
  line : host.line s!"Wrote {g.output.text}" = .ok shown
  printed : stdout = libraryLine g.libraries ++ "\n" ++ shown

theorem exists_reportsGlue (hhost : host.ShowsPlain fits)
    (hload : ((Layout.load config).run s).result = .ok layout)
    (h : Reports s project layout .imports items)
    (hexit : (Printout.ofPrinted (items.map host.print)).ending = .exit 0) :
    ∃ g shown, ReportsGlue host s config project layout g
      (Printout.ofPrinted (items.map host.print)).stdout shown := by
  cases h with
  | imports g hg houtput =>
      rw [generatedReport_eq, List.map_cons, List.map_singleton] at hexit ⊢
      obtain ⟨first, shown, hfirst, hshown, hstdout⟩ := ofPrinted_of_exit hexit
      have hline := hhost.line_of_shown _ _ ⟨isPlain_libraryLine g.members, .inl rfl⟩
      obtain rfl := Except.ok.inj (hline.symm.trans hfirst)
      exact ⟨g, shown, hload, hg, houtput, hshown, hstdout⟩

/-! ## Reports on sources -/

/-- The report on the sources of a project: a table with a row for each source that is
listed, and a line that sums them up. -/
structure ReportsSources (host : Host ε) (s : Store) (config : Layout.Source) (project : Path)
    (layout : Layout) (found : List (Path × List Member)) (stdout table : String) : Prop where
  loaded : ((Layout.load config).run s).result = .ok layout
  listed : ((Sources.list (layout.sourcesOf project).text layout.suffix).run s).result =
    .ok (found.map Prod.fst)
  shown : host.table (scanTable (layout.sourcesOf project) found) = .ok table
  printed : stdout = table ++ (summary found.length (scanLinks found) ++ "\n")

theorem exists_reportsSources (hhost : host.ShowsPlain fits)
    (hload : ((Layout.load config).run s).result = .ok layout)
    (h : Reports s project layout .scan items)
    (hexit : (Printout.ofPrinted (items.map host.print)).ending = .exit 0) :
    ∃ found table, ReportsSources host s config project layout found
      (Printout.ofPrinted (items.map host.print)).stdout table := by
  cases h with
  | scan found hlist =>
      rw [scanReport_eq, List.map_cons, List.map_singleton] at hexit ⊢
      obtain ⟨table, line, htable, hline, hstdout⟩ := ofPrinted_of_exit hexit
      have hsummary := hhost.line_of_shown (summary found.length (scanLinks found)) _
        ⟨isPlain_summary _ _, .inl rfl⟩
      obtain rfl := Except.ok.inj (hsummary.symm.trans hline)
      exact ⟨found, table, hload, hlist, htable, hstdout⟩

theorem ReportsSources.rows (hhost : host.ShowsPlain fits)
    {found : List (Path × List Member)} {stdout table : String} {names : List String}
    (h : ReportsSources host s config project layout found stdout table)
    (hnames : List.Forall₂ (fun e name => IsShownAs e.1.name name) found names)
    (hfits : fits (shownTable (layout.sourcesOf project) found names)) :
    Table.ShowsRows ((found.zip names).map fun e => [e.2, memberNames e.1.2, memberLinks e.1.2])
      table := by
  rw [← rows_shownTable (layout.sourcesOf project) hnames.length_eq]
  exact hhost.rows_of_shown _ _ _ (isShownAs_scanTable hnames) hfits h.shown

/-! ## Runs -/

/-- On a host that shows plain texts, a command line that ends with 0 shows plain paths
and names as they are, and those in which a tag opens a style without the tag.  So the
line with the path of the glue is the path only if it is not read as markup; and so it is
with the names in a table of sources that fits the host, which has a row for each source
that is listed, in order. -/
theorem runOn_shows (hhost : host.ShowsPlain fits) (hread : Invocation.read args = .ok inv)
    (hrun : ((runOn host args).run s).result = .ok o) (hexit : o.ending = .exit 0) :
    (∀ project, inv.action = some (.work .imports project) →
      ∃ layout g shown, ReportsGlue host s inv.config project layout g o.stdout shown ∧
        ∀ path, IsShownAs g.output.text path → path ≠ "" → shown = s!"Wrote {path}" ++ "\n") ∧
    ∀ project, inv.action = some (.work .scan project) →
      ∃ layout found table, ReportsSources host s inv.config project layout found o.stdout table ∧
        ∀ names, List.Forall₂ (fun e name => IsShownAs e.1.name name) found names →
          fits (shownTable (layout.sourcesOf project) found names) →
          Table.ShowsRows
            ((found.zip names).map fun e => [e.2, memberNames e.1.2, memberLinks e.1.2]) table := by
  constructor
  · intro project haction
    obtain ⟨layout, items, hload, hreports, rfl⟩ := reports_of_exit hread haction hrun hexit
    obtain ⟨g, shown, hreport⟩ := exists_reportsGlue hhost hload hreports hexit
    refine ⟨layout, g, shown, hreport, fun path hpath hne => ?_⟩
    have hline := hhost.line_of_shown _ _ (isShownAs_wrote hpath hne)
    exact Except.ok.inj (hreport.line.symm.trans hline)
  · intro project haction
    obtain ⟨layout, items, hload, hreports, rfl⟩ := reports_of_exit hread haction hrun hexit
    obtain ⟨found, table, hreport⟩ := exists_reportsSources hhost hload hreports hexit
    exact ⟨layout, found, table, hreport, fun names => hreport.rows hhost⟩

/-- The path of the glue in a project with a name of one letter is shown as it is. -/
theorem runOn_shows_letter :
    ∃ inv o, (Host.screen .small).ShowsPlain Table.Fits ∧
      Invocation.read ["imports", "p"] = .ok inv ∧
      ((runOn (Host.screen .small) ["imports", "p"]).run (namedProject ["p"])).result = .ok o ∧
      o.ending = .exit 0 ∧
      o.stdout = "No SDK libraries detected\nWrote p/csource/imports.cmake\n" := by
  have hending : ((runOn (Host.screen .small) ["imports", "p"]).run (namedProject ["p"])).result.map
      Printout.ending = .ok (.exit 0) := toOption_eq_some_iff.mp (by decide +kernel)
  obtain ⟨o, hrun, hexit⟩ := map_eq_ok_iff.mp hending
  have hhost := showsPlain_screen Markup.Dialect.isOrdinary_small
  obtain ⟨layout, g, shown, hreport, hshown⟩ :=
    (runOn_shows hhost read_imports_letter hrun hexit).1 _ rfl
  cases (Layout.result_load_nothing _).symm.trans hreport.loaded
  have hpath : g.output.text = "p/csource/imports.cmake" := by
    rw [hreport.output]
    decide +kernel
  have hnone : g.libraries = [] := by
    have hlibraries : ((generate (.ofString "p") Layout.standard).run
        (namedProject ["p"])).result.map Generated.libraries = .ok [] :=
      toOption_eq_some_iff.mp (by decide +kernel)
    rw [hreport.generated] at hlibraries
    exact Except.ok.inj hlibraries
  have hprinted := hreport.printed
  have hplain : IsPlain g.output.text := by
    rw [hpath]
    decide
  rw [hshown _ ⟨hplain, .inl rfl⟩ (by rw [hpath]; decide), hpath, hnone] at hprinted
  exact ⟨_, o, hhost, read_imports_letter, hrun, hexit, hprinted⟩

/-- Brackets around a small letter are a tag, and the path that is shown is one to the
root. -/
theorem run_imports_loses_directory :
    ((generate (.ofString "[x]") Layout.standard).run (namedProject ["[x]"])).result.map
        (fun g => g.output.text) = .ok "[x]/csource/imports.cmake" ∧
      ((run ["imports", "[x]"]).run (namedProject ["[x]"])).result =
        .ok ⟨"No SDK libraries detected\nWrote /csource/imports.cmake\n", "", .exit 0⟩ := by
  exact ⟨toOption_eq_some_iff.mp (by decide +kernel), toOption_eq_some_iff.mp (by decide +kernel)⟩

end SdkGlue.Command
