import SdkGlue.Proofs.Glue.Frame
import SdkGlue.Proofs.Project.Generate
import SdkGlue.Proofs.Script.Directories
import SdkGlue.Proofs.Sources.Clean

/-!
# Sessions

A session makes calls on projects and glue files one after another, and goes on
when one of them fails.  Without links a session makes no directory and no link,
and every file that it leaves was there before or is the glue that a call wrote.
-/

namespace SdkGlue.Project

open Store (SameDirectories Within)

/-- A call on a project, or on a glue file. -/
inductive Call where
  | installFor (members : List Member) (path : String)
  | install (text path : String)
  | discard (path : String)
  | generate (root : String) (layout : Layout)
  | clean (root : String) (layout : Layout)

/-- A script whose result is dropped. -/
def forget {α : Type} (x : Script α) : Script Unit := x >>= fun _ => pure ()

/-- The paths, unless the result is a failure. -/
def onSuccess {α : Type} (r : Except Fault α) (paths : List Path) : List Path :=
  match r with
  | .ok _ => paths
  | .error _ => []

namespace Call

def script : Call → Script Unit
  | .installFor members path => forget (Glue.installFor members (.ofString path))
  | .install text path => forget (Glue.install text (.ofString path))
  | .discard path => forget (Glue.discard (.ofString path))
  | .generate root layout => forget (Project.generate (.ofString root) layout)
  | .clean root layout => forget (Project.clean (.ofString root) layout)

/-- The path at which a call writes a glue. -/
def output? : Call → Option Path
  | .installFor _ path => some (.ofString path)
  | .install _ path => some (.ofString path)
  | .discard _ => none
  | .generate root layout => some (layout.glueOf (.ofString root))
  | .clean _ _ => none

/-- The path at which a call wrote, if it did and succeeded. -/
def wrote (c : Call) (s : Store) : List Path :=
  onSuccess (c.script.run s).result c.output?.toList

end Call

/-- The store after a session. -/
def after (s : Store) : List Call → Store
  | [] => s
  | c :: cs => after (c.script.run s).store cs

/-- The paths at which the successful calls of a session wrote. -/
def outputs (s : Store) : List Call → List Path
  | [] => []
  | c :: cs => c.wrote s ++ outputs (c.script.run s).store cs

/-- The store `t` comes from `s` by taking files away and by putting files at
some paths. -/
structure Follows (t s : Store) (written : List Path) : Prop where
  directories : SameDirectories t s
  linkless : t.Linkless
  entry : ∀ loc, t.find? loc = s.find? loc ∨ t.find? loc = none ∨
    (∃ p ∈ written, s.locate? p.text = some loc) ∧ ∃ bytes, t.find? loc = some (.file bytes)

variable {α : Type} {s t u : Store} {written more : List Path} {p : Path}

theorem result_forget (x : Script α) (s : Store) :
    ((forget x).run s).result = (x.run s).result.map fun _ => () := by
  rw [forget, Script.result_bind]
  cases (x.run s).result <;> rfl

@[simp] theorem onSuccess_map {β : Type} (f : α → β) (r : Except Fault α) (paths : List Path) :
    onSuccess (r.map f) paths = onSuccess r paths := by
  cases r <;> rfl

theorem store_forget (x : Script α) (s : Store) :
    ((forget x).run s).store = (x.run s).store := by
  rw [forget, Script.store_bind]
  cases (x.run s).result <;> rfl

namespace Follows

theorem refl (hs : s.Linkless) : Follows s s [] :=
  ⟨SameDirectories.refl s, hs, fun _ => .inl rfl⟩

theorem trans (hs : s.Linkless) (h : Follows t s written) (h' : Follows u t more) :
    Follows u s (written ++ more) := by
  refine ⟨h.directories.trans h'.directories, h'.linkless, fun loc => ?_⟩
  rcases h'.entry loc with hsame | hgone | ⟨⟨p, hp, hloc⟩, hfile⟩
  · rw [hsame]
    rcases h.entry loc with hsame | hgone | ⟨⟨p, hp, hloc⟩, hfile⟩
    · exact .inl hsame
    · exact .inr (.inl hgone)
    · exact .inr (.inr ⟨⟨p, List.mem_append_left _ hp, hloc⟩, hfile⟩)
  · exact .inr (.inl hgone)
  · rw [h.directories.locate?_eq hs h.linkless] at hloc
    exact .inr (.inr ⟨⟨p, List.mem_append_right _ hp, hloc⟩, hfile⟩)

/-- A script that only removes puts no file anywhere. -/
theorem of_within (hs : s.Linkless) {x : Script α} (h : Within (x.run s).store s)
    (written : List Path) : Follows (x.run s).store s written := by
  refine ⟨x.sameDirectories_run s, x.linkless_run hs, fun loc => ?_⟩
  rcases h.2 loc with hgone | hsame
  · exact .inr (.inl hgone)
  · exact .inl hsame

end Follows

/-! ## What one call does -/

/-- An installation writes its path when it succeeds, and nothing when it fails. -/
theorem follows_install (hp : p.Normal) (hs : s.Linkless) (text : String) :
    Follows ((Glue.install text p).run s).store s
      (onSuccess ((Glue.install text p).run s).result [p]) := by
  rcases Glue.install_cases hp hs text with
    ⟨⟨e, -⟩, gone, hstore, -⟩ | ⟨hok, dir, hplace, -, hstore⟩
  · apply Follows.of_within hs
    rw [hstore]
    exact Store.within_without s gone
  · refine ⟨Script.sameDirectories_run _ s, Script.linkless_run hs _, fun loc => ?_⟩
    rw [hok, hstore, Glue.find?_installed]
    by_cases hloc : p.name :: dir = loc
    · subst hloc
      rw [if_pos rfl]
      exact .inr (.inr ⟨⟨p, List.mem_singleton_self p, hplace⟩, _, rfl⟩)
    · rw [if_neg hloc]
      split
      · exact .inr (.inl rfl)
      · exact .inl rfl

/-- A regeneration writes the glue of its project when it succeeds, and nothing
when it fails. -/
theorem follows_generate (hs : s.Linkless) (root : String) (layout : Layout) :
    Follows ((generate (.ofString root) layout).run s).store s
      (onSuccess ((generate (.ofString root) layout).run s).result
        [layout.glueOf (.ofString root)]) := by
  rw [store_generate, result_generate]
  cases collected (.ofString root) layout s with
  | error e => exact Follows.refl hs
  | ok members =>
      have hinstall : Follows (written (.ofString root) layout members s).store s
          (onSuccess (written (.ofString root) layout members s).result
            [layout.glueOf (.ofString root)]) :=
        follows_install (normal_glueOf layout root) hs (Glue.ofMembers members)
      simp only [Bind.bind, Except.bind, onSuccess_map]
      exact hinstall

theorem Call.follows (hs : s.Linkless) (c : Call) :
    Follows (c.script.run s).store s (c.wrote s) := by
  rw [Call.wrote]
  cases c with
  | installFor members path =>
      dsimp only [script]
      rw [store_forget, result_forget, onSuccess_map]
      exact follows_install (Path.normal_ofString path) hs (Glue.ofMembers members)
  | install text path =>
      dsimp only [script]
      rw [store_forget, result_forget, onSuccess_map]
      exact follows_install (Path.normal_ofString path) hs text
  | discard path =>
      dsimp only [script]
      rw [store_forget]
      exact Follows.of_within hs (Glue.within_discard _ s) _
  | generate root layout =>
      dsimp only [script]
      rw [store_forget, result_forget, onSuccess_map]
      exact follows_generate hs root layout
  | clean root layout =>
      dsimp only [script]
      rw [store_forget]
      exact Follows.of_within hs (Sources.leaves_clean _ _ s) _

/-! ## What a session does -/

theorem follows_after (hs : s.Linkless) (calls : List Call) :
    Follows (after s calls) s (outputs s calls) := by
  induction calls generalizing s with
  | nil => exact Follows.refl hs
  | cons c calls ih =>
      have hfirst := c.follows hs
      exact hfirst.trans hs (ih hfirst.linkless)

/-- Without links a session leaves no link and the same directories; each file
that it leaves was there or was written by a successful call, and each file that
no successful call wrote is as it was or gone. -/
theorem after_files (hs : s.Linkless) (calls : List Call) :
    let t := after s calls
    t.Linkless ∧
      (∀ loc, t.find? loc = some .directory ↔ s.find? loc = some .directory) ∧
      (∀ loc bytes, t.find? loc = some (.file bytes) →
        (∃ old, s.find? loc = some (.file old)) ∨
          ∃ p ∈ outputs s calls, s.locate? p.text = some loc) ∧
      ∀ loc bytes, s.find? loc = some (.file bytes) →
        (∀ p ∈ outputs s calls, s.locate? p.text ≠ some loc) →
          t.find? loc = some (.file bytes) ∨ t.find? loc = none := by
  intro t
  have h := follows_after hs calls
  refine ⟨h.linkless, h.directories.directory_iff, ?_, ?_⟩
  · intro loc bytes hfile
    rcases h.entry loc with hsame | hgone | ⟨hwritten, -⟩
    · exact .inl ⟨bytes, hsame.symm.trans hfile⟩
    · rw [show t.find? loc = none from hgone] at hfile
      cases hfile
    · exact .inr hwritten
  · intro loc bytes hfile hfree
    rcases h.entry loc with hsame | hgone | ⟨⟨p, hp, hloc⟩, -⟩
    · exact .inl (hsame.trans hfile)
    · exact .inr hgone
    · exact absurd hloc (hfree p hp)

/-- A directory with a sibling that some failed run left. -/
def staleSibling : Store :=
  ((Store.empty []).set ["d"] .directory).set [".glue.tmp", "d"] (.file [0x61])

/-- A session whose second call fails. -/
def failingSession : List Call :=
  [.install "x" "d/glue", .install "y" "d", .discard "d/old"]

/-- The session leaves no file but the glue and those from before. -/
theorem after_files_failingSession :
    staleSibling.Linkless ∧ outputs staleSibling failingSession = [.ofString "d/glue"] ∧
      ∀ loc bytes, (after staleSibling failingSession).find? loc = some (.file bytes) →
        (∃ old, staleSibling.find? loc = some (.file old)) ∨ loc = ["glue", "d"] := by
  have hs : staleSibling.Linkless := by decide
  have houtputs : outputs staleSibling failingSession = [.ofString "d/glue"] := by rfl
  refine ⟨hs, houtputs, fun loc bytes hfile => ?_⟩
  obtain ⟨-, -, hfiles, -⟩ := after_files hs failingSession
  rcases hfiles loc bytes hfile with hold | ⟨p, hp, hloc⟩
  · exact .inl hold
  · rw [houtputs, List.mem_singleton] at hp
    subst hp
    have hplace : staleSibling.locate? (Path.ofString "d/glue").text = some ["glue", "d"] := by rfl
    exact .inr (Option.some.inj (hloc.symm.trans hplace))

end SdkGlue.Project
