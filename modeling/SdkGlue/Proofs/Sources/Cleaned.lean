import SdkGlue.Proofs.Sources.Clean
import SdkGlue.Proofs.Sources.Collect

/-!
# A directory that was cleaned

A candidate that was no source when its turn came does not turn into one when
others are removed behind it, and it does not begin to raise faults.  So after a
cleaning that succeeded there is no source left, and nothing to clean.
-/

namespace SdkGlue.Sources

open Store (Within)

variable {s u : Store} {directory suffix : String} {k : Nat} {dir : Location}
  {es : List (String × Entry.Kind)}

/-- A visit that removes leaves its candidates gone or turned down, and the
directory as open as it was. -/
theorem Waiting.visit_remove_exhausts (h : Waiting u directory k dir es) {units : List Unit}
    (hrun : ((visit remove (es.map (candidateOf directory))).run u).result = .ok units) :
    let t := ((visit remove (es.map (candidateOf directory))).run u).store
    t.Opens directory k dir ∧
      ∀ e ∈ es, t.find? (e.1 :: dir) = none ∨ judge t (candidateOf directory e) = .ok false := by
  induction es generalizing u units with
  | nil => exact ⟨h.opens, by simp⟩
  | cons e es ih =>
      rcases hj : judge u (candidateOf directory e) with f | _ | _
      · simp only [List.map_cons, run_visit_cons, hj] at hrun
        cases hrun
      · simp only [List.map_cons, run_visit_cons, hj] at hrun ⊢
        obtain ⟨hopens, hrest⟩ := ih h.tail hrun
        refine ⟨hopens, ?_⟩
        rintro d hd
        rcases List.mem_cons.mp hd with rfl | hd
        · exact .inr (judge_false_of_within (leaves_visit_remove _ u) hj)
        · exact hrest d hd
      · obtain ⟨hshort, more, -, hmore⟩ := h.visit_remove_eq_ok hj hrun
        obtain ⟨-, hstore⟩ := h.visit_remove_short hj hshort
        have hfile := ((h.judge_iff List.mem_cons_self).mp hj).1
        obtain ⟨hopens, hrest⟩ := ih (h.after_remove hfile) hmore
        rw [hstore]
        refine ⟨hopens, ?_⟩
        rintro d hd
        rcases List.mem_cons.mp hd with rfl | hd
        · rcases (leaves_visit_remove (es.map (candidateOf directory)) (u.remove (d.1 :: dir))).2
            (d.1 :: dir) with hgone | hsame
          · exact .inl hgone
          · exact .inl (hsame.trans (by simp))
        · exact hrest d hd

theorem survey_eq_nil {cs : List Candidate} (h : ∀ c ∈ cs, judge s c = .ok false) :
    survey s cs = ([], none) := by
  induction cs with
  | nil => rfl
  | cons c cs ih =>
      rw [survey, h c List.mem_cons_self]
      exact ih fun d hd => h d (List.mem_cons_of_mem c hd)

/-- No candidate of the directory is a source. -/
def Exhausted (s : Store) (directory suffix : String) : Prop :=
  ∃ cs, ((candidates directory suffix).run s).result = .ok cs ∧ survey s cs = ([], none)

/-- A removal of all sources that succeeds leaves none. -/
theorem exhausted_of_forEach_remove (hs : s.Lawful) {units : List Unit}
    (h : ((forEach directory suffix remove).run s).result = .ok units) :
    Exhausted ((forEach directory suffix remove).run s).store directory suffix := by
  rw [result_forEach] at h
  rw [store_forEach]
  rcases candidates_cases hs directory suffix with ⟨e, hc⟩ | ⟨k, dir, es, -, hwait, hc, hmem⟩
  · rw [hc] at h
    cases h
  rw [hc] at h ⊢
  simp only [Bind.bind, Except.bind] at h ⊢
  have hwithin := leaves_visit_remove (es.map (candidateOf directory)) s
  obtain ⟨hopens, hgone⟩ := hwait.visit_remove_exhausts h
  obtain ⟨es', hselect, hwait', hmem'⟩ :=
    waiting_select (hwithin.lawful hs) hopens hwait.no_nul suffix
  have hdir := Store.resolve_eq_directory_iff.mpr ⟨k, hopens⟩
  refine ⟨_, result_candidates_iff.mpr ⟨hwait.no_nul, dir, hdir, hselect.symm⟩, ?_⟩
  apply survey_eq_nil
  intro c hcs
  obtain ⟨e, he, rfl⟩ := List.mem_map.mp hcs
  obtain ⟨entry, hfind, hkind⟩ := hwait'.stands e he
  have hold : e ∈ es := by
    refine (hmem e).mpr ⟨?_, ((hmem' e).mp he).2⟩
    exact Store.mem_children_iff.mpr ⟨entry, hwithin.find? hfind, hkind⟩
  rcases hgone e hold with hnone | hfalse
  · rw [hnone] at hfind
    cases hfind
  · exact hfalse

namespace Exhausted

theorem resolve_eq_directory (h : Exhausted s directory suffix) :
    ∃ dir, s.resolve .target directory = .ok (.entry dir .directory) := by
  obtain ⟨cs, hc, -⟩ := h
  obtain ⟨-, dir, hdir, -⟩ := result_candidates_iff.mp hc
  exact ⟨dir, hdir⟩

theorem run_forEach {α : Type} (h : Exhausted s directory suffix) (f : Path → Script α) :
    ((forEach directory suffix f).run s).result = .ok [] ∧
      ((forEach directory suffix f).run s).store = s := by
  obtain ⟨cs, hc, hsurvey⟩ := h
  have hvisit := run_visit_of_survey_nil f (congrArg Prod.fst hsurvey)
  rw [result_forEach, store_forEach, hc]
  simp only [Bind.bind, Except.bind, hvisit, hsurvey, conclude, and_self]

theorem result_list (h : Exhausted s directory suffix) :
    ((list directory suffix).run s).result = .ok [] :=
  (h.run_forEach _).1

theorem result_collect (h : Exhausted s directory suffix) :
    ((collect directory suffix).run s).result = .ok [] := by
  rw [Sources.result_collect, (h.run_forEach _).1]
  rfl

end Exhausted

end SdkGlue.Sources
