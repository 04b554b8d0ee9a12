import SdkGlue.Proofs.Command.Report
import SdkGlue.Proofs.Command.Screen
import SdkGlue.Proofs.Command.Work
import SdkGlue.Proofs.Project.Lawful

/-!
# How command lines end

Every command line comes to an output.  A misuse, a call for help and a fault of
the work have their exit codes.  Work that succeeds prints a report, and only the paths
and names in a report can keep a safe host from printing it.
-/

namespace SdkGlue

namespace Layout

theorem proper_fetch (source : Source) : (fetch source).Proper := by
  have hlater : ∀ {n : Note} (contents : Contents), n.level ≠ .error →
      (Script.report n >>= fun _ => pure contents).Proper :=
    fun contents hn => (Script.proper_report hn).bind fun _ => Script.proper_pure contents
  have hpath : ∀ path text, (fetchPathOr path text).Proper := by
    intro path text
    apply (Script.proper_probe _).bind
    intro kind
    split
    · apply (Script.proper_call_of_none rfl).bind
      intro bytes
      exact Script.Proper.bind (.done _) fun t => hlater _ nofun
    · exact hlater _ nofun
  cases source with
  | nothing => exact hlater _ nofun
  | table fields => exact hlater _ nofun
  | text s => exact hpath _ _
  | path p => exact hpath _ _
  | other v => exact .done _

end Layout

namespace Command

open Project

variable {ε : Type} {host : Host ε} {s : Store} {activity : Activity} {config : Layout.Source}
  {project : Path} {layout : Layout} {items : List Item} {printed : List (Except ε String)}

theorem proper_workWith (activity : Activity) (project : Path) (layout : Layout) :
    (workWith activity project layout).Proper := by
  cases activity with
  | imports => exact (proper_generate project layout).bind fun _ => Script.proper_pure _
  | scan =>
      have heach : ∀ p, (Sources.paired Sources.membersOf p).Proper := fun p =>
        (Sources.proper_membersOf p).bind fun _ => Script.proper_pure _
      exact (Sources.proper_forEach heach _ _).bind fun _ => Script.proper_pure _
  | clean => exact (Sources.proper_clean _ _).bind fun _ => Script.proper_pure _

theorem proper_workOn (host : Host ε) (activity : Activity) (config : Layout.Source)
    (project : Path) : (workOn host activity config project).Proper := by
  apply (Layout.proper_fetch config).bind
  intro contents
  split
  · exact Script.proper_pure _
  · exact Script.Proper.bind (.done _) fun layout =>
      (proper_workWith activity project layout).bind fun _ => Script.proper_pure _

/-! ## Reports -/

/-- The texts of a part of a report. -/
def Item.texts : Item → List String
  | .line s => [s]
  | .table t => t.texts

theorem exists_print (hhost : host.IsSafe) {item : Item} (h : ∀ t ∈ item.texts, Tagless t) :
    ∃ shown, host.print item = .ok shown := by
  cases item with
  | line s => exact hhost.line_of_tagless s (h s List.mem_cons_self)
  | table t => exact hhost.table_of_tagless t h

/-- The path that a report shows. -/
def reportedPath (activity : Activity) (layout : Layout) (project : Path) : String :=
  match activity with
  | .imports => (layout.glueOf project).text
  | .scan => (layout.sourcesOf project).text
  | .clean => ""

/-- There is no tag in the path that a report shows, and none in the names of the sources
that it lists. -/
structure GivesNoTags (s : Store) (activity : Activity) (layout : Layout) (project : Path) :
    Prop where
  path : Tagless (reportedPath activity layout project)
  names : activity = .scan → ∀ paths,
    ((Sources.list (layout.sourcesOf project).text layout.suffix).run s).result = .ok paths →
      ∀ p ∈ paths, Tagless p.name

/-- What is not given to a report has no tags. -/
theorem Reports.tagless (h : Reports s project layout activity items)
    (hgiven : GivesNoTags s activity layout project) :
    ∀ item ∈ items, ∀ t ∈ item.texts, Tagless t := by
  cases h with
  | imports g _ houtput =>
      have hpath : Tagless s!"Wrote {g.output.text}" := by
        rw [houtput]
        exact tagless_append.mpr ⟨by decide, hgiven.path⟩
      rw [generatedReport_eq, List.forall_mem_cons, List.forall_mem_singleton, Item.texts,
        Item.texts, List.forall_mem_singleton, List.forall_mem_singleton]
      exact ⟨(isPlain_libraryLine g.members).tagless, hpath⟩
  | scan found hlist =>
      have hnames : ∀ e ∈ found, Tagless e.1.name := fun e he =>
        hgiven.names rfl _ hlist e.1 (List.mem_map_of_mem he)
      rw [scanReport_eq, List.forall_mem_cons, List.forall_mem_singleton, Item.texts, Item.texts,
        List.forall_mem_singleton]
      exact ⟨tagless_scanTable hgiven.path hnames, (isPlain_summary _ _).tagless⟩
  | clean removed =>
      rw [cleanReport, List.forall_mem_singleton, Item.texts, List.forall_mem_singleton]
      exact tagless_cleanReport removed

/-- A tag in the path of a report that closes nothing keeps the report from being
printed as a whole. -/
theorem Reports.exists_error (hhost : host.IsSafe) (h : Reports s project layout activity items)
    (hclosing : ClosesNothing (reportedPath activity layout project)) :
    ∃ item ∈ items, ∃ e, host.print item = .error e := by
  cases h with
  | imports g _ houtput =>
      have hline : ClosesNothing s!"Wrote {g.output.text}" := by
        rw [houtput]
        exact hclosing.append ⟨by decide, by decide⟩
      exact ⟨_, List.mem_cons_of_mem _ List.mem_cons_self, hhost.line_of_closing _ hline⟩
  | scan found _ =>
      have htitle : ClosesNothing (scanTable (layout.sourcesOf project) found).title :=
        hclosing.append ⟨by decide, by decide⟩
      exact ⟨_, List.mem_cons_self, hhost.table_of_closing _ (List.cons_ne_nil _ _) htitle⟩
  | clean removed =>
      obtain ⟨front, name, back, hempty, -⟩ := hclosing
      rw [reportedPath] at hempty
      simp at hempty

/-! ## Printing -/

theorem ending_of_forall_ok (h : ∀ p ∈ printed, ∃ shown, p = .ok shown) :
    (Printout.ofPrinted printed).ending = .exit 0 := by
  induction printed with
  | nil => rfl
  | cons p printed ih =>
      rw [List.forall_mem_cons] at h
      obtain ⟨⟨shown, rfl⟩, hrest⟩ := h
      exact ih hrest

theorem ending_of_mem_error {e : ε} (h : .error e ∈ printed) :
    ∃ e, (Printout.ofPrinted printed).ending = .escaped e := by
  induction printed with
  | nil => cases h
  | cons p printed ih =>
      cases p with
      | error e => exact ⟨e, rfl⟩
      | ok shown => exact ih ((List.mem_cons.mp h).resolve_left nofun)

theorem ending_catalog (hhost : host.IsSafe) :
    (Printout.ofPrinted [host.table (catalogTable Catalog.sdk)]).ending = .exit 0 := by
  apply ending_of_forall_ok
  rw [List.forall_mem_singleton]
  exact hhost.table_of_tagless _ tagless_catalogTable

theorem exists_deep_of_givesUpAt {e : ε} (hhost : host.IsSafe)
    (h : givesUpAt host config s = some e) :
    ∃ format text, ((Layout.fetch config).run s).result = .ok (.document format text) ∧
      ¬ IsShallow text := by
  unfold givesUpAt at h
  split at h
  · next contents hfetch =>
      cases contents with
      | document format text =>
          refine ⟨format, text, hfetch, fun hshallow => ?_⟩
          cases (hhost.reads format text hshallow).symm.trans h
      | standard => cases h
      | table fields => cases h
  · cases h

/-! ## Runs -/

def errors (notes : List Note) : List Note := notes.filter (·.level = .error)

theorem errors_append (front rest : List Note) :
    errors (front ++ rest) = errors front ++ errors rest :=
  List.filter_append ..

theorem errors_of_proper {α : Type} {x : Script α} (hx : x.Proper) (s : Store) :
    errors (x.run s).notes = [] := by
  rw [errors, List.filter_eq_nil_iff]
  intro n hn
  simpa using hx.level_ne s hn

theorem run_announce (activity : Activity) (project : Path) (s : Store) :
    ∃ notes, (announce activity project).run s = ⟨.ok (), s, notes⟩ ∧ errors notes = [] := by
  cases activity <;> exact ⟨_, rfl, rfl⟩

theorem perform_of_ok (h : ((workOn host activity config project).run s).result = .ok printed) :
    ((perform host config (some (.work activity project))).run s).result =
        .ok (Printout.ofPrinted printed) ∧
      errors ((perform host config (some (.work activity project))).run s).notes = [] := by
  obtain ⟨notes, hannounce, hnone⟩ := run_announce activity project s
  have hwork := errors_of_proper (proper_workOn host activity config project) s
  simp only [perform, Script.run_bind, hannounce, Script.Outcome.andThen, Script.run_attempt, h,
    Script.run_pure, errors_append, hnone, hwork]
  exact ⟨trivial, rfl⟩

theorem perform_of_error {fault : Fault}
    (h : ((workOn host activity config project).run s).result = .error fault) :
    ((perform host config (some (.work activity project))).run s).result =
        .ok ⟨"", "", .exit 1⟩ ∧
      errors ((perform host config (some (.work activity project))).run s).notes =
        [.failed activity project fault] := by
  obtain ⟨notes, hannounce, hnone⟩ := run_announce activity project s
  have hwork := errors_of_proper (proper_workOn host activity config project) s
  simp only [perform, Script.run_bind, hannounce, Script.Outcome.andThen, Script.run_attempt, h,
    Script.run_report, Script.run_pure, errors_append, hnone, hwork]
  exact ⟨trivial, rfl⟩

/-- A report on work is printed as a whole when no tags are given to it, and not when it
shows a path with a tag that closes nothing. -/
theorem ending_of_outcomeOf (hhost : host.IsSafe)
    (h : outcomeOf activity config project s = .ok items) :
    ∃ layout, ((Layout.load config).run s).result = .ok layout ∧
      (GivesNoTags s activity layout project →
        (Printout.ofPrinted (items.map host.print)).ending = .exit 0) ∧
      (ClosesNothing (reportedPath activity layout project) →
        ∃ e, (Printout.ofPrinted (items.map host.print)).ending = .escaped e) := by
  obtain ⟨layout, hload, hwork⟩ := outcomeOf_eq_ok_iff.mp h
  have hreports := reports_of_workWith hwork
  refine ⟨layout, hload, fun hgiven => ?_, fun hclosing => ?_⟩
  · apply ending_of_forall_ok
    rw [List.forall_mem_map]
    exact fun item hitem => exists_print hhost (hreports.tagless hgiven item hitem)
  · obtain ⟨item, hitem, e, he⟩ := hreports.exists_error hhost hclosing
    exact ending_of_mem_error (List.mem_map.mpr ⟨item, hitem, he⟩)

/-- On a safe host every command line comes to an output: 2 after a misuse, 0 when help
is asked for, 1 with the help when no command is given.  Work of which the host gives up
on the configuration, which only a deeply nested document makes it do, is left with the
error of the host.  Other work that fails ends with 1, one error and no report.  Work
that succeeds prints its report, and ends with 0 when no tags are given to the report; a
path with a tag that closes nothing lets an error of the host out. -/
theorem runOn_ends (hhost : host.IsSafe) (args : List String) (s : Store) :
    ∃ o, ((runOn host args).run s).result = .ok o ∧
      match Invocation.read args with
      | .error (.misuse p m) =>
          o = ⟨"", m.report p, .exit 2⟩ ∧ errors ((runOn host args).run s).notes = []
      | .error (.help p) =>
          o = ⟨p.help, "", .exit 0⟩ ∧ errors ((runOn host args).run s).notes = []
      | .ok inv =>
          match inv.action with
          | none =>
              o = ⟨Page.top.help, "", .exit 1⟩ ∧ errors ((runOn host args).run s).notes = []
          | some .catalog => o.ending = .exit 0 ∧ errors ((runOn host args).run s).notes = []
          | some (.work activity project) =>
              match givesUpAt host inv.config s, outcomeOf activity inv.config project s with
              | some e, _ => o = ⟨"", "", .escaped e⟩ ∧
                  errors ((runOn host args).run s).notes = [] ∧
                  ∃ format text, ((Layout.fetch inv.config).run s).result =
                    .ok (.document format text) ∧ ¬ IsShallow text
              | none, .error fault => o = ⟨"", "", .exit 1⟩ ∧
                  errors ((runOn host args).run s).notes = [.failed activity project fault]
              | none, .ok items => o = Printout.ofPrinted (items.map host.print) ∧
                  errors ((runOn host args).run s).notes = [] ∧
                  ∃ layout, ((Layout.load inv.config).run s).result = .ok layout ∧
                    (GivesNoTags s activity layout project → o.ending = .exit 0) ∧
                    (ClosesNothing (reportedPath activity layout project) →
                      ∃ e, o.ending = .escaped e) := by
  unfold runOn
  cases Invocation.read args with
  | error stop => cases stop <;> exact ⟨_, rfl, rfl, rfl⟩
  | ok inv =>
      obtain ⟨verbose, config, action⟩ := inv
      cases action with
      | none => exact ⟨_, rfl, rfl, rfl⟩
      | some action =>
          cases action with
          | catalog => exact ⟨_, rfl, ending_catalog hhost, rfl⟩
          | work activity project =>
              -- the result of the work decides, whatever was noted before it
              have hwork := result_workOn host activity config project s
              dsimp only
              cases hgives : givesUpAt host config s with
              | some e =>
                  rw [hgives] at hwork
                  obtain ⟨hresult, hnotes⟩ := perform_of_ok hwork
                  exact ⟨_, hresult, rfl, hnotes, exists_deep_of_givesUpAt hhost hgives⟩
              | none =>
                  rw [hgives] at hwork
                  cases houtcome : outcomeOf activity config project s with
                  | error fault =>
                      rw [houtcome] at hwork
                      obtain ⟨hresult, hnotes⟩ := perform_of_error hwork
                      exact ⟨_, hresult, rfl, hnotes⟩
                  | ok items =>
                      rw [houtcome] at hwork
                      obtain ⟨hresult, hnotes⟩ := perform_of_ok hwork
                      exact ⟨_, hresult, rfl, hnotes, ending_of_outcomeOf hhost houtcome⟩

/-- A project of the given name, with a directory for its sources. -/
def namedProject (location : Location) : Store :=
  ⟨Store.way ("nimcache" :: "build" :: "csource" :: location), [], Store.nodup_way _⟩

theorem read_imports_letter : Invocation.read ["imports", "p"] =
    .ok ⟨false, .nothing, some (.work .imports (.ofString "p"))⟩ := by rfl

/-- The screen is safe, and a project with a name of one letter gives no tags to the
report. -/
theorem runOn_ends_letter :
    (Host.screen .small).IsSafe ∧
      ∃ o, ((runOn (Host.screen .small) ["imports", "p"]).run (namedProject ["p"])).result = .ok o ∧
        o.ending = .exit 0 ∧
        errors ((runOn (Host.screen .small) ["imports", "p"]).run (namedProject ["p"])).notes =
          [] := by
  obtain ⟨items, houtcome⟩ : ∃ items,
      outcomeOf .imports .nothing (.ofString "p") (namedProject ["p"]) = .ok items :=
    exists_of_isSome_toOption (by decide +kernel)
  obtain ⟨o, ho, hends⟩ := runOn_ends (isSafe_screen .small) ["imports", "p"] (namedProject ["p"])
  rw [read_imports_letter] at hends
  dsimp only at hends
  rw [givesUpAt_screen, houtcome] at hends
  obtain ⟨-, hnotes, layout, hload, hexit, -⟩ := hends
  cases (Layout.result_load_nothing _).symm.trans hload
  exact ⟨isSafe_screen .small, o, ho, hexit ⟨by decide +kernel, nofun⟩, hnotes⟩

/-- A tag that closes a style none of which is open ends the command after its work
is done. -/
theorem run_imports_closing_tag :
    ((Layout.load .nothing).run (namedProject ["x]", "["])).result = .ok Layout.standard ∧
      (∃ g, ((generate (.ofString "[/x]") Layout.standard).run
        (namedProject ["x]", "["])).result = .ok g) ∧
      ((run ["imports", "[/x]"]).run (namedProject ["x]", "["])).result =
        .ok ⟨"No SDK libraries detected\n", "", .badMarkup (.unmatched "[/x]" 6)⟩ := by
  exact ⟨Layout.result_load_nothing _, exists_of_isSome_toOption (by decide +kernel),
    toOption_eq_some_iff.mp (by decide +kernel)⟩

end Command

end SdkGlue
