import SdkGlue.Proofs.Glue.Install
import SdkGlue.Proofs.Project.Generate

/-!
# A regeneration that fails

What a failed regeneration leaves depends on how far it came.  Before the old
glue is discarded nothing has changed.  After that the old glue is gone, and no
other text stands in its place.
-/

namespace SdkGlue.Project

variable {s : Store} {layout : Layout} {e : Fault}

/-- A regeneration fails while it reads the sources or while it discards the old
glue, and leaves the store as it was; or it fails later, and leaves no entry at
the place of the glue and all others, except perhaps that of the sibling, as
they were. -/
theorem generate_error_cases {root : String}
    (h : ((generate (.ofString root) layout).run s).result = .error e) :
    let output := layout.glueOf (.ofString root)
    let t := ((generate (.ofString root) layout).run s).store
    (collected (.ofString root) layout s = .error e ∧ t = s) ∨
      ∃ members, collected (.ofString root) layout s = .ok members ∧
        ((((Glue.discard output).run s).result = .error e ∧ t = s) ∨
          (∃ removed, ((Glue.discard output).run s).result = .ok removed) ∧
            t.entryAt? output.text = none ∧
            ∃ gone, t = s.without gone ∧
              ∀ loc ∈ gone, ∃ entry, s.entryAt? output.text = some (loc, entry) ∨
                s.entryAt? (Glue.siblingOf output).text = some (loc, entry)) := by
  intro output t
  have hstore := store_generate (.ofString root) layout s
  rw [result_generate] at h
  cases hc : collected (.ofString root) layout s with
  | error f =>
      rw [hc] at h hstore
      cases h
      exact .inl ⟨rfl, hstore⟩
  | ok members =>
      rw [hc] at h hstore
      have hwritten : (written (.ofString root) layout members s).result = .error e := by
        cases hw : (written (.ofString root) layout members s).result with
        | ok path =>
            simp only [Bind.bind, Except.bind, hw] at h
            cases h
        | error f =>
            simp only [Bind.bind, Except.bind, hw] at h
            cases h
            rfl
      have hcases := Glue.install_error_cases (normal_glueOf layout root) hwritten
      have ht : t = ((Glue.install (Glue.ofMembers members) output).run s).store := hstore
      rw [ht]
      exact .inr ⟨members, rfl, hcases⟩

/-- A project with an old glue, where a directory stands in the place of the
sibling. -/
def blockedSibling : Store :=
  (({ Store.empty ["nimcache", "build", "csource"] with cwd := [] }).set
    ["imports.cmake", "csource"] (.file [0x6f, 0x6c, 0x64])).set
    [".imports.cmake.tmp", "csource"] .directory

theorem collected_blockedSibling :
    collected (.ofString ".") .standard blockedSibling = .ok [] := by
  have hdirectory : (Layout.standard.sourcesOf (.ofString ".")).text = "csource/build/nimcache" := by
    decide +kernel
  have hcandidates : ((Sources.candidates "csource/build/nimcache" ".c").run
      blockedSibling).result = .ok [] := by
    have hkept : (blockedSibling.children ["nimcache", "build", "csource"]).filter
        (fun e => Sources.hasSuffix ".c" e.1) = [] := by decide +kernel
    exact Sources.result_candidates_of_sorted (by decide +kernel) (by rfl) hkept List.Pairwise.nil
  rw [collected, hdirectory, Sources.result_collect, Sources.result_forEach]
  change (((Sources.candidates "csource/build/nimcache" ".c").run blockedSibling).result >>=
    _).map _ = _
  rw [hcandidates]
  rfl

/-- The run fails when the sibling is opened. -/
theorem generate_blockedSibling :
    ((generate (.ofString ".") .standard).run blockedSibling).result =
      .error (.system .isDirectory "csource/.imports.cmake.tmp") := by
  rw [result_generate, collected_blockedSibling]
  rfl

/-- What is gone after this run was the glue or its sibling. -/
theorem generate_error_cases_blockedSibling :
    ((generate (.ofString ".") .standard).run blockedSibling).result =
        .error (.system .isDirectory "csource/.imports.cmake.tmp") ∧
      ∃ gone, ((generate (.ofString ".") .standard).run blockedSibling).store =
          blockedSibling.without gone ∧
        ∀ loc ∈ gone, ∃ entry,
          blockedSibling.entryAt? (Layout.standard.glueOf (.ofString ".")).text =
              some (loc, entry) ∨
            blockedSibling.entryAt?
              (Glue.siblingOf (Layout.standard.glueOf (.ofString "."))).text = some (loc, entry) := by
  refine ⟨generate_blockedSibling, ?_⟩
  have hdiscard : ((Glue.discard (Layout.standard.glueOf (.ofString "."))).run
      blockedSibling).result = .ok true := by rfl
  rcases generate_error_cases generate_blockedSibling with
    ⟨hc, -⟩ | ⟨members, -, ⟨hd, -⟩ | ⟨-, -, hgone⟩⟩
  · rw [collected_blockedSibling] at hc
    cases hc
  · rw [hdiscard] at hd
    cases hd
  · exact hgone

/-- The run leaves no glue where an old one stood. -/
theorem generate_discards_glue :
    ((generate (.ofString ".") .standard).run blockedSibling).result =
        .error (.system .isDirectory "csource/.imports.cmake.tmp") ∧
      blockedSibling.entryAt? "csource/imports.cmake" =
        some (["imports.cmake", "csource"], .file [0x6f, 0x6c, 0x64]) ∧
      ((generate (.ofString ".") .standard).run blockedSibling).store.entryAt?
        "csource/imports.cmake" = none := by
  refine ⟨generate_blockedSibling, by decide +kernel, ?_⟩
  rw [store_generate, collected_blockedSibling]
  rfl

end SdkGlue.Project
