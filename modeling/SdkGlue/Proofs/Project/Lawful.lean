import SdkGlue.Project
import SdkGlue.Proofs.Store.Lawful

/-!
# Work on a project keeps its store lawful

Only writing and moving create entries.  A script that checks the paths of both
for NULs leaves a lawful store lawful, whatever the answers to its requests are,
and the work on a project is made of such scripts.  None of them notes an error:
what goes wrong is their result.
-/

namespace SdkGlue

open Store (Lawful)

variable {α β : Type} {s : Store}

theorem Script.not_mem_of_hasNul {path : String} (h : hasNul path = false) :
    '\x00' ∉ path.toList := by
  simpa [hasNul] using h

/-- The path at which a request may create an entry. -/
def Request.created? : Request → Option String
  | .write path _ => some path
  | .rename _ target => some target
  | _ => none

theorem Request.lawful_run (hs : s.Lawful) (q : Request)
    (hq : ∀ path ∈ q.created?, Script.hasNul path = false) : (q.run s).2.Lawful := by
  cases q with
  | kindAt path => exact hs
  | list path => exact hs
  | read path => exact hs
  | write path bytes =>
      have hnul := Script.not_mem_of_hasNul (hq path rfl)
      rw [Request.run]
      split
      · next t ht => exact hs.write hnul ht
      · exact hs
  | unlink path =>
      rw [Request.run]
      split
      · next t ht => exact hs.unlink ht
      · exact hs
  | rename source target =>
      have hnul := Script.not_mem_of_hasNul (hq target rfl)
      rw [Request.run]
      split
      · next t ht => exact hs.rename hnul ht
      · exact hs

namespace Script

/-- No request of the script creates an entry at a path with a NUL, and no note
of it is an error. -/
inductive Proper : Script α → Prop
  | done (r : Except Fault α) : Proper (done r)
  | note (n : Note) {x : Script α} (hn : n.level ≠ .error) (hx : Proper x) : Proper (note n x)
  | ask (q : Request) {k : Except Cause q.Answer → Script α}
      (hq : ∀ path ∈ q.created?, hasNul path = false) (hk : ∀ a, Proper (k a)) :
      Proper (ask q k)

/-- A request that creates nothing can be made about any path. -/
theorem Proper.ask_of_none {q : Request} {k : Except Cause q.Answer → Script α}
    (hq : q.created? = none) (hk : ∀ a, (k a).Proper) :
    (Script.ask q k).Proper := by
  apply Proper.ask q _ hk
  intro path hpath
  simp [hq] at hpath

theorem Proper.lawful_run {x : Script α} (hx : x.Proper) (hs : s.Lawful) :
    (x.run s).store.Lawful := by
  induction hx generalizing s with
  | done r => exact hs
  | note n hn hx ih => exact ih hs
  | ask q hq hk ih => exact ih _ (Request.lawful_run hs q hq)

theorem Proper.level_ne {x : Script α} (hx : x.Proper) (s : Store) {n : Note}
    (h : n ∈ (x.run s).notes) : n.level ≠ .error := by
  induction hx generalizing s with
  | done r => cases h
  | note m hm hx ih =>
      rcases List.mem_cons.mp h with rfl | h
      · exact hm
      · exact ih s h
  | ask q hq hk ih => exact ih _ _ h

theorem proper_pure (a : α) : (pure a : Script α).Proper := .done (.ok a)

theorem proper_fail (e : Fault) : (fail e : Script α).Proper := .done (.error e)

theorem proper_report {n : Note} (hn : n.level ≠ .error) : (report n).Proper :=
  .note n hn (proper_pure ())

theorem Proper.bind {x : Script α} {f : α → Script β} (hx : x.Proper)
    (hf : ∀ a, (f a).Proper) : (x >>= f).Proper := by
  change (x.bind f).Proper
  induction hx with
  | done r =>
      cases r with
      | ok a => exact hf a
      | error e => exact .done (.error e)
  | note n hn hx ih => exact .note n hn ih
  | ask q hq hk ih => exact .ask q hq ih

theorem Proper.attempt {x : Script α} (hx : x.Proper) : x.attempt.Proper := by
  induction hx with
  | done r => exact .done (.ok r)
  | note n hn hx ih => exact .note n hn ih
  | ask q hq hk ih => exact .ask q hq ih

theorem Proper.onFault {x : Script α} {cleanup : Script Unit} (hx : x.Proper)
    (hcleanup : cleanup.Proper) : (x.onFault cleanup).Proper := by
  unfold Script.onFault
  apply hx.attempt.bind
  intro r
  cases r with
  | ok a => exact proper_pure a
  | error e => exact hcleanup.bind fun _ => proper_fail e

theorem proper_call {path : String} {q : Request}
    (hq : hasNul path = false → ∀ p ∈ q.created?, hasNul p = false) :
    (call path q).Proper := by
  unfold call
  split
  · exact proper_fail _
  · next hnul =>
      apply Proper.ask q (hq (by simpa using hnul))
      intro a
      cases a with
      | ok a => exact proper_pure a
      | error c => exact proper_fail _

theorem proper_call_of_none {path : String} {q : Request} (hq : q.created? = none) :
    (call path q).Proper := by
  apply proper_call
  intro _ p hp
  simp [hq] at hp

theorem proper_probe (path : String) : (probe path).Proper := by
  unfold probe
  split
  · exact proper_pure none
  · apply Proper.ask_of_none rfl
    intro a
    cases a with
    | ok kind => exact proper_pure _
    | error cause => cases cause <;> exact .done _

end Script

namespace Sources

theorem proper_isSource (c : Candidate) : (isSource c).Proper := by
  unfold isSource
  cases c.kind with
  | file => exact Script.proper_pure true
  | directory => exact Script.proper_pure false
  | link =>
      apply Script.Proper.ask_of_none rfl
      intro a
      cases a with
      | ok kind => exact Script.proper_pure _
      | error cause => cases cause <;> exact .done _

theorem proper_visit {f : Path → Script α} (hf : ∀ p, (f p).Proper) (cs : List Candidate) :
    (visit f cs).Proper := by
  induction cs with
  | nil => exact Script.proper_pure []
  | cons c cs ih =>
      unfold visit
      apply (proper_isSource c).bind
      intro keep
      cases keep with
      | false => exact ih
      | true =>
          apply (hf _).bind
          intro a
          exact ih.bind fun as => Script.proper_pure (a :: as)

theorem proper_forEach {f : Path → Script α} (hf : ∀ p, (f p).Proper)
    (directory suffix : String) : (forEach directory suffix f).Proper := by
  have hcandidates : (candidates directory suffix).Proper :=
    (Script.proper_call_of_none rfl).bind fun entries => Script.proper_pure _
  exact hcandidates.bind fun cs => proper_visit hf cs

theorem proper_reportScan (file : String) (scan : Scan) : (reportScan file scan).Proper := by
  have hforM : ∀ paths : List String,
      (paths.forM fun path => Script.report (.unknownInclude path file)).Proper := by
    intro paths
    induction paths with
    | nil => exact Script.proper_pure _
    | cons path rest ih => exact (Script.proper_report (by nofun)).bind fun _ => ih
  exact (hforM _).bind fun _ => Script.proper_report (by nofun)

theorem proper_membersOf (path : Path) : (membersOf path).Proper := by
  unfold membersOf
  apply (Script.proper_call_of_none rfl).bind
  intro bytes
  exact (proper_reportScan _ _).bind fun _ => Script.proper_pure _

theorem proper_collect (directory suffix : String) : (collect directory suffix).Proper := by
  unfold collect
  apply (proper_forEach proper_membersOf directory suffix).bind
  intro found
  exact (Script.proper_report (by nofun)).bind fun _ => Script.proper_pure _

theorem proper_clean (directory suffix : String) : (clean directory suffix).Proper := by
  have hremove : ∀ p, (remove p).Proper := fun p => Script.proper_call_of_none rfl
  unfold clean
  apply (Script.proper_probe _).bind
  intro kind
  split
  · apply (proper_forEach hremove directory suffix).bind
    intro removed
    exact (Script.proper_report (by nofun)).bind fun _ => Script.proper_pure _
  · exact (Script.proper_report (by nofun)).bind fun _ => Script.proper_pure _

end Sources

namespace Glue

theorem proper_discard (p : Path) : (discard p).Proper := by
  unfold discard
  split
  · exact Script.proper_fail _
  · apply Script.Proper.ask_of_none rfl
    intro a
    cases a with
    | ok _ => exact Script.proper_pure true
    | error cause => cases cause <;> exact .done _

theorem proper_replace {p : Path} (hnul : Script.hasNul p.text = false) (text : String) :
    (replace p text).Proper := by
  have hwrite : (Script.call (siblingOf p).text
      (.write (siblingOf p).text (Text.Utf8.encode text.toList))).Proper := by
    apply Script.proper_call
    rintro hsibling path ⟨⟩
    exact hsibling
  have hmove : (Script.call (siblingOf p).text (.rename (siblingOf p).text p.text)).Proper := by
    apply Script.proper_call
    rintro - path ⟨⟩
    exact hnul
  unfold replace
  apply Script.Proper.onFault
  · exact hwrite.bind fun _ => hmove
  · exact (proper_discard _).bind fun _ => Script.proper_pure ()

/-- The place of the glue is discarded first, which checks its path. -/
theorem proper_install (text : String) (p : Path) : (install text p).Proper := by
  cases hnul : Script.hasNul p.text with
  | true =>
      unfold install discard
      rw [if_pos hnul]
      exact .done _
  | false =>
      have hrest : (replace p text >>= fun _ =>
          Script.report (.glueWritten p) >>= fun _ => pure p).Proper :=
        (proper_replace hnul text).bind fun _ =>
          (Script.proper_report (by nofun)).bind fun _ => Script.proper_pure p
      unfold install
      apply (proper_discard p).bind
      intro removed
      cases removed with
      | true => exact (Script.proper_report (by nofun)).bind fun _ => hrest
      | false => exact hrest

end Glue

namespace Project

variable {project : Path} {layout : Layout}

theorem proper_generate (project : Path) (layout : Layout) : (generate project layout).Proper := by
  dsimp only [generate]
  apply (Script.proper_report (by nofun)).bind
  intro _
  apply (Script.proper_report (by nofun)).bind
  intro _
  apply (Sources.proper_collect _ _).bind
  intro members
  apply (Glue.proper_install _ _).bind
  intro _
  exact Script.proper_pure _

theorem lawful_generate (hs : s.Lawful) :
    ((generate project layout).run s).store.Lawful :=
  (proper_generate project layout).lawful_run hs

theorem lawful_clean (hs : s.Lawful) : ((clean project layout).run s).store.Lawful :=
  (Sources.proper_clean _ _).lawful_run hs

end Project

end SdkGlue
