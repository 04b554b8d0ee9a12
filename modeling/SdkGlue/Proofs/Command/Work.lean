import SdkGlue.Command.Run
import SdkGlue.Proofs.Layout.Load
import SdkGlue.Proofs.Project.Generate
import SdkGlue.Proofs.Sources.Each

/-!
# What work comes to

Work reads its layout, works with it and makes a report, unless the host gives up on
the configuration first.  What is printed of the report is up to the host.
-/

namespace SdkGlue.Command

open Project

variable {ε : Type} {host : Host ε} {activity : Activity} {config : Layout.Source}
  {project : Path} {layout : Layout} {items : List Item} {s : Store}

/-- The error of a host that gives up on what the configuration holds. -/
def givesUpAt (host : Host ε) (config : Layout.Source) (s : Store) : Option ε :=
  match ((Layout.fetch config).run s).result with
  | .ok contents => host.givesUp? contents
  | .error _ => none

/-- The report on work that was done with its configuration, or the fault of it. -/
def outcomeOf (activity : Activity) (config : Layout.Source) (project : Path) (s : Store) :
    Except Fault (List Item) := do
  let layout ← ((Layout.load config).run s).result
  ((workWith activity project layout).run s).result

theorem result_workWith (activity : Activity) (project : Path) (layout : Layout) (s : Store) :
    ((workWith activity project layout).run s).result =
      match activity with
      | .imports => ((generate project layout).run s).result.map generatedReport
      | .scan => ((Project.scan project layout).run s).result.map
          (scanReport (layout.sourcesOf project))
      | .clean => ((Project.clean project layout).run s).result.map cleanReport := by
  cases activity <;> exact Script.result_bind_pure _ s

theorem result_workOn (host : Host ε) (activity : Activity) (config : Layout.Source)
    (project : Path) (s : Store) :
    ((workOn host activity config project).run s).result =
      match givesUpAt host config s with
      | some e => .ok [.error e]
      | none => (outcomeOf activity config project s).map fun items => items.map host.print := by
  rw [workOn, Script.result_bind, Layout.readOnly_fetch, outcomeOf, givesUpAt, Layout.result_load]
  cases ((Layout.fetch config).run s).result with
  | error fault => rfl
  | ok contents =>
      rw [ok_bind, ok_bind]
      dsimp only
      cases host.givesUp? contents with
      | some e => rfl
      | none =>
          dsimp only
          rw [Script.result_bind]
          cases contents.read with
          | error fault => rfl
          | ok layout => exact Script.result_bind_pure _ s

theorem givesUpAt_screen (d : Markup.Dialect) (config : Layout.Source) (s : Store) :
    givesUpAt (Host.screen d) config s = none := by
  unfold givesUpAt
  cases ((Layout.fetch config).run s).result with
  | error fault => rfl
  | ok contents => cases contents <;> rfl

theorem result_work (activity : Activity) (config : Layout.Source) (project : Path) (s : Store) :
    ((work activity config project).run s).result =
      (outcomeOf activity config project s).map fun items =>
        items.map (Host.screen .small).print := by
  rw [work, result_workOn, givesUpAt_screen]

theorem outcomeOf_eq_ok_iff : outcomeOf activity config project s = .ok items ↔
    ∃ layout, ((Layout.load config).run s).result = .ok layout ∧
      ((workWith activity project layout).run s).result = .ok items := by
  rw [outcomeOf, bind_eq_ok_iff]

/-- The reports that work on a project makes. -/
inductive Reports (s : Store) (project : Path) (layout : Layout) : Activity → List Item → Prop
  | imports (g : Generated) (h : ((generate project layout).run s).result = .ok g)
      (houtput : g.output = layout.glueOf project) :
      Reports s project layout .imports (generatedReport g)
  | scan (found : List (Path × List Member))
      (h : ((Sources.list (layout.sourcesOf project).text layout.suffix).run s).result =
        .ok (found.map Prod.fst)) :
      Reports s project layout .scan (scanReport (layout.sourcesOf project) found)
  | clean (removed : Nat) : Reports s project layout .clean (cleanReport removed)

theorem reports_of_workWith (h : ((workWith activity project layout).run s).result = .ok items) :
    Reports s project layout activity items := by
  rw [result_workWith] at h
  cases activity with
  | imports =>
      obtain ⟨g, hg, rfl⟩ := map_eq_ok_iff.mp h
      obtain ⟨-, -, hshape⟩ := generate_eq_ok_iff.mp hg
      exact .imports g hg (congrArg Generated.output hshape)
  | scan =>
      obtain ⟨found, hfound, rfl⟩ := map_eq_ok_iff.mp h
      obtain ⟨hlist, -⟩ := Sources.scanEach_eq_ok_iff.mp hfound
      exact .scan found hlist
  | clean =>
      obtain ⟨removed, -, rfl⟩ := map_eq_ok_iff.mp h
      exact .clean removed

end SdkGlue.Command
