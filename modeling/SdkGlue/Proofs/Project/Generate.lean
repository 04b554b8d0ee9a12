import SdkGlue.Project
import SdkGlue.Proofs.Path.Components
import SdkGlue.Proofs.Sources.Collect

/-!
# The run of a regeneration

A regeneration collects the members of the sources, which changes nothing, and
then puts the text for them in the place of the glue.
-/

namespace SdkGlue.Project

variable {s : Store} {project : Path} {layout : Layout} {g : Generated}

theorem normal_glueOf (layout : Layout) (root : String) :
    (layout.glueOf (.ofString root)).Normal :=
  (Path.normal_ofString root).join (Path.normal_ofString layout.gluePath)

/-- The members that a regeneration finds. -/
def collected (project : Path) (layout : Layout) (s : Store) : Except Fault (List Member) :=
  ((Sources.collect (layout.sourcesOf project).text layout.suffix).run s).result

/-- The run that writes the glue for members. -/
def written (project : Path) (layout : Layout) (members : List Member) (s : Store) : Outcome Path :=
  (Glue.install (Glue.ofMembers members) (layout.glueOf project)).run s

theorem result_generate (project : Path) (layout : Layout) (s : Store) :
    ((generate project layout).run s).result =
      collected project layout s >>= fun members =>
        (written project layout members s).result.map fun _ =>
          ⟨members, layout.glueOf project, Glue.ofMembers members⟩ := by
  have hread := Sources.readOnly_collect (layout.sourcesOf project).text layout.suffix s
  dsimp only [generate, collected, written]
  rw [Script.result_report_bind, Script.result_report_bind, Script.result_bind, hread]
  cases ((Sources.collect (layout.sourcesOf project).text layout.suffix).run s).result with
  | error e => simp only [Bind.bind, Except.bind]
  | ok members =>
      simp only [Bind.bind, Except.bind]
      apply (Script.result_bind _ _).trans
      cases ((Glue.install (Glue.ofMembers members) (layout.glueOf project)).run s).result <;>
        simp only [Script.run_pure, Bind.bind, Except.bind, Except.map]

theorem store_generate (project : Path) (layout : Layout) (s : Store) :
    ((generate project layout).run s).store =
      match collected project layout s with
      | .error _ => s
      | .ok members => (written project layout members s).store := by
  have hread := Sources.readOnly_collect (layout.sourcesOf project).text layout.suffix s
  dsimp only [generate, collected, written]
  rw [Script.store_report_bind, Script.store_report_bind, Script.store_bind, hread]
  cases ((Sources.collect (layout.sourcesOf project).text layout.suffix).run s).result with
  | error e => rfl
  | ok members =>
      apply (Script.store_bind _ _).trans
      cases ((Glue.install (Glue.ofMembers members) (layout.glueOf project)).run s).result <;>
        simp only [Script.run_pure]

theorem generate_eq_ok_iff :
    ((generate project layout).run s).result = .ok g ↔
      collected project layout s = .ok g.members ∧
        (∃ path, (written project layout g.members s).result = .ok path) ∧
        g = ⟨g.members, layout.glueOf project, Glue.ofMembers g.members⟩ := by
  rw [result_generate]
  cases hc : collected project layout s with
  | error e => simp [Bind.bind, Except.bind]
  | ok members =>
      simp only [Bind.bind, Except.bind, Except.ok.injEq]
      constructor
      · intro h
        cases hw : (written project layout members s).result with
        | error e =>
            rw [hw] at h
            cases h
        | ok path =>
            rw [hw] at h
            cases h
            exact ⟨rfl, ⟨path, hw⟩, rfl⟩
      · rintro ⟨rfl, ⟨path, hw⟩, hg⟩
        rw [hw]
        exact congrArg Except.ok hg.symm

end SdkGlue.Project
