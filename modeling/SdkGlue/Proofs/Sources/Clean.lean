import SdkGlue.Proofs.Sources.Waiting

/-!
# Removing the sources

The sources of a directory are removed while the candidates behind them are
still to be judged, so a link to a source that is gone by then is passed over.
What is removed is exactly what was listed if and only if every listed file is
still a file once those before it are gone.
-/

namespace SdkGlue.Sources

open Store (IsName Within)

variable {s u : Store} {directory suffix : String} {k : Nat} {dir : Location}
  {es : List (String × Entry.Kind)} {e : String × Entry.Kind}

theorem Waiting.run_remove (h : Waiting u directory k dir es) (he : e ∈ es)
    (hfile : u.IsFileIn k dir e.1) :
    (Sources.remove (pathOf directory e.1)).run u =
      if Store.maxPath ≤ (pathOf directory e.1).text.utf8ByteSize then
        ⟨.error (.system .nameTooLong (pathOf directory e.1).text), u, []⟩
      else ⟨.ok (), u.remove (e.1 :: dir), []⟩ := by
  have hname := h.isName e he
  obtain ⟨entry, hfind, -⟩ := h.stands e he
  have hnul : Script.hasNul (pathOf directory e.1).text = false :=
    Store.hasNul_entryPath h.opens.ne_empty h.no_nul hname
  have hentry : entry ≠ .directory := by
    rintro rfl
    obtain ⟨loc, bytes, hw⟩ := hfile
    simp [Store.walk_plain hname.plain hname.short, hfind] at hw
  have hwalk : u.walk .entry k dir [e.1] = .ok (.entry (e.1 :: dir) entry) := by
    cases entry with
    | directory => exact absurd rfl hentry
    | file bytes => simp [Store.walk_plain hname.plain hname.short, hfind]
    | link target => simp [Store.walk_plain hname.plain hname.short, hfind, Aim.follows]
  have hunlink : u.unlink (pathOf directory e.1).text =
      if Store.maxPath ≤ (pathOf directory e.1).text.utf8ByteSize then .error .nameTooLong
      else .ok (u.remove (e.1 :: dir)) := by
    unfold Store.unlink pathOf
    rw [h.opens.resolve_source hname, hwalk]
    split
    · rfl
    · cases entry with
      | directory => exact absurd rfl hentry
      | file bytes => rfl
      | link target => rfl
  apply (Script.run_unlink _ u).trans
  rw [hnul, if_neg (by simp), hunlink]
  split <;> rfl

/-- Every file is still a file once those before it are gone. -/
def Lasting (s : Store) (dir : Location) (files : List Path) : Prop :=
  ∀ before p after, files = before ++ p :: after →
    (s.without (before.map (·.name :: dir))).kindAt p.text = .ok .file

theorem lasting_nil (s : Store) (dir : Location) : Lasting s dir [] := by
  intro before p after h
  simp at h

theorem lasting_cons {p : Path} {files : List Path} :
    Lasting s dir (p :: files) ↔
      s.kindAt p.text = .ok .file ∧ Lasting (s.remove (p.name :: dir)) dir files := by
  constructor
  · intro h
    exact ⟨h [] p files rfl, fun before q after hq => h (p :: before) q after (by rw [hq]; rfl)⟩
  · rintro ⟨hp, h⟩ before q after hq
    match before with
    | [] =>
        cases hq
        exact hp
    | b :: before =>
        cases hq
        exact h before q after rfl

theorem leaves_remove (p : Path) : (remove p).Leaves Within := by
  intro s
  have hrun := Script.run_unlink p.text s
  change Within ((Script.call p.text (.unlink p.text) : Script Unit).run s).store s
  rw [hrun]
  split
  · exact Within.refl s
  · cases hu : s.unlink p.text with
    | error c => exact Within.refl s
    | ok t =>
        obtain ⟨loc, -, -, -, rfl⟩ := Store.unlink_eq_ok_iff.mp hu
        exact Within.remove s loc

theorem leaves_visit_remove (cs : List Candidate) : (visit remove cs).Leaves Within :=
  leaves_visit Within.refl (fun _ _ _ h h' => h.trans h') leaves_remove cs

theorem found_cons (s : Store) (directory : String) (e : String × Entry.Kind)
    (cs : List Candidate) :
    found s (candidateOf directory e :: cs) =
      match judge s (candidateOf directory e) with
      | .ok true => pathOf directory e.1 :: found s cs
      | .ok false => found s cs
      | .error _ => [] := by
  unfold found
  rw [survey]
  cases judge s (candidateOf directory e) with
  | error f => rfl
  | ok keep => cases keep <;> rfl

/-- A source in front with a path that is not too long is removed, and the visit
goes on without it. -/
theorem Waiting.visit_remove_short (h : Waiting u directory k dir (e :: es))
    (hj : judge u (candidateOf directory e) = .ok true)
    (hshort : (pathOf directory e.1).text.utf8ByteSize < Store.maxPath) :
    let o := (visit remove ((e :: es).map (candidateOf directory))).run u
    let rest := (visit remove (es.map (candidateOf directory))).run (u.remove (e.1 :: dir))
    o.result = rest.result.map (() :: ·) ∧ o.store = rest.store := by
  have hfile := ((h.judge_iff List.mem_cons_self).mp hj).1
  have hone : (remove (.ofString (candidateOf directory e).path)).run u =
      ⟨.ok (), u.remove (e.1 :: dir), []⟩ := by
    apply (h.run_remove List.mem_cons_self hfile).trans
    rw [if_neg (Nat.not_le.mpr hshort)]
  simp only [List.map_cons, run_visit_cons, hj, Script.run_bind, hone, Script.Outcome.andThen,
    Script.run_pure]
  cases ((visit remove (es.map (candidateOf directory))).run (u.remove (e.1 :: dir))).result with
  | ok units => exact ⟨rfl, rfl⟩
  | error f => exact ⟨rfl, rfl⟩

/-- A source in front with a path that is too long ends the visit. -/
theorem Waiting.visit_remove_long (h : Waiting u directory k dir (e :: es))
    (hj : judge u (candidateOf directory e) = .ok true)
    (hlong : Store.maxPath ≤ (pathOf directory e.1).text.utf8ByteSize) :
    let o := (visit remove ((e :: es).map (candidateOf directory))).run u
    o.result = .error (.system .nameTooLong (pathOf directory e.1).text) ∧ o.store = u := by
  have hfile := ((h.judge_iff List.mem_cons_self).mp hj).1
  have hone : (remove (.ofString (candidateOf directory e).path)).run u =
      ⟨.error (.system .nameTooLong (pathOf directory e.1).text), u, []⟩ := by
    apply (h.run_remove List.mem_cons_self hfile).trans
    rw [if_pos hlong]
  simp only [List.map_cons, run_visit_cons, hj, Script.run_bind, hone, Script.Outcome.andThen,
    and_self]

theorem judge_false_of_within (hw : Within u s) {c : Candidate} (h : judge s c = .ok false) :
    judge u c = .ok false := by
  rcases judge_within hw c with hu | hu
  · exact hu.trans h
  · exact hu

/-- When the listed files last, the visit removes all of them and nothing else. -/
theorem visit_remove_of_lasting (hw : Within u s) (h : Waiting u directory k dir es)
    (hall : (survey s (es.map (candidateOf directory))).2 = none)
    (hlast : Lasting u dir (found s (es.map (candidateOf directory)))) :
    let o := (visit remove (es.map (candidateOf directory))).run u
    let files := found s (es.map (candidateOf directory))
    (∃ units, o.result = .ok units ∧ units.length = files.length) ∧
      o.store = u.without (files.map (·.name :: dir)) := by
  induction es generalizing u with
  | nil => exact ⟨⟨[], rfl, rfl⟩, rfl⟩
  | cons e es ih =>
      rw [List.map_cons, survey] at hall
      rw [List.map_cons, found_cons] at hlast ⊢
      rcases hj : judge s (candidateOf directory e) with f | _ | _ <;> rw [hj] at hall hlast
      · cases hall
      · simp only [run_visit_cons, judge_false_of_within hw hj]
        exact ih hw h.tail hall hlast
      · obtain ⟨hkind, hlast⟩ := lasting_cons.mp hlast
        obtain ⟨hshort, hfile⟩ := (h.kindAt_iff List.mem_cons_self).mp hkind
        have hju : judge u (candidateOf directory e) = .ok true :=
          (h.judge_iff List.mem_cons_self).mpr ⟨hfile, short_of_judge hj⟩
        obtain ⟨hres, hstore⟩ := h.visit_remove_short hju hshort
        have hname := h.name_pathOf List.mem_cons_self
        rw [hname] at hlast
        obtain ⟨⟨units, hunits, hlen⟩, hrest⟩ :=
          ih (hw.trans (Within.remove u _)) (h.after_remove hfile) hall hlast
        refine ⟨⟨() :: units, ?_, by simp [hlen]⟩, ?_⟩
        · exact hres.trans (by rw [hunits]; rfl)
        · exact hstore.trans (by rw [hrest, List.map_cons, hname]; rfl)

/-- A visit that succeeds has removed the source in front. -/
theorem Waiting.visit_remove_eq_ok (h : Waiting u directory k dir (e :: es))
    (hj : judge u (candidateOf directory e) = .ok true) {units : List Unit}
    (hrun : ((visit remove ((e :: es).map (candidateOf directory))).run u).result = .ok units) :
    (pathOf directory e.1).text.utf8ByteSize < Store.maxPath ∧ ∃ more, units = () :: more ∧
      ((visit remove (es.map (candidateOf directory))).run (u.remove (e.1 :: dir))).result =
        .ok more := by
  rcases Nat.lt_or_ge (pathOf directory e.1).text.utf8ByteSize Store.maxPath with hshort | hlong
  · refine ⟨hshort, ?_⟩
    rw [(h.visit_remove_short hj hshort).1] at hrun
    cases hrest : ((visit remove (es.map (candidateOf directory))).run
        (u.remove (e.1 :: dir))).result with
    | error f =>
        rw [hrest] at hrun
        cases hrun
    | ok more =>
        rw [hrest] at hrun
        cases hrun
        exact ⟨more, rfl, rfl⟩
  · rw [(h.visit_remove_long hj hlong).1] at hrun
    cases hrun

/-- A visit removes no more files than were listed, and when it removes as many
the listed files last. -/
theorem lasting_of_visit_remove (hw : Within u s) (h : Waiting u directory k dir es)
    (hall : (survey s (es.map (candidateOf directory))).2 = none) {units : List Unit}
    (hrun : ((visit remove (es.map (candidateOf directory))).run u).result = .ok units) :
    let files := found s (es.map (candidateOf directory))
    units.length ≤ files.length ∧ (units.length = files.length → Lasting u dir files) := by
  induction es generalizing u units with
  | nil =>
      cases hrun
      exact ⟨Nat.le_refl 0, fun _ => lasting_nil u dir⟩
  | cons e es ih =>
      rw [List.map_cons, survey] at hall
      rw [List.map_cons, found_cons]
      rcases hj : judge s (candidateOf directory e) with f | _ | _ <;> rw [hj] at hall
      · cases hall
      · simp only [List.map_cons, run_visit_cons, judge_false_of_within hw hj] at hrun
        exact ih hw h.tail hall hrun
      · rcases judge_within hw (candidateOf directory e) with hju | hju
        · have hju := hju.trans hj
          obtain ⟨hshort, more, rfl, hmore⟩ := h.visit_remove_eq_ok hju hrun
          have hfile := ((h.judge_iff List.mem_cons_self).mp hju).1
          obtain ⟨hle, hlast⟩ :=
            ih (hw.trans (Within.remove u _)) (h.after_remove hfile) hall hmore
          refine ⟨Nat.succ_le_succ hle, fun hlen => lasting_cons.mpr ⟨?_, ?_⟩⟩
          · exact (h.kindAt_iff List.mem_cons_self).mpr ⟨hshort, hfile⟩
          · rw [h.name_pathOf List.mem_cons_self]
            exact hlast (Nat.succ.inj hlen)
        · -- The file is gone by now, so one fewer is removed.
          simp only [List.map_cons, run_visit_cons, hju] at hrun
          obtain ⟨hle, -⟩ := ih hw h.tail hall hrun
          refine ⟨Nat.le_succ_of_le hle, fun hlen => ?_⟩
          rw [hlen] at hle
          exact absurd hle (Nat.not_succ_le_self _)

theorem text_pathOf_ne (hdir : directory ≠ "") {a b : String} (ha : IsName a) (hb : IsName b)
    (hab : a ≠ b) : (pathOf directory a).text ≠ entryPath directory b := by
  intro heq
  obtain ⟨front, hfront, -⟩ := Store.components_entryPath hdir hb.no_slash
  have hparts : (pathOf directory a).parts ≠ [] := by
    simp [pathOf, Store.parts_entryPath hdir ha]
  have hcomp := Path.components_text (Path.normal_ofString (entryPath directory a)) hparts
  rw [Store.name_entryPath hdir ha] at hcomp
  have hlast := congrArg List.getLast? (hcomp.symm.trans ((congrArg _ heq).trans hfront))
  simp only [List.getLast?_concat, Option.some.injEq] at hlast
  exact hab hlast

/-- The survey of the candidates behind an entry faults at another path. -/
theorem Waiting.survey_fault_ne (h : Waiting s directory k dir (e :: es)) {cause : Cause} :
    (survey s (es.map (candidateOf directory))).2 ≠
      some (.system cause (pathOf directory e.1).text) := by
  intro hfault
  obtain ⟨c, hc, hcf⟩ := survey_fault hfault
  obtain ⟨d, hd, rfl⟩ := List.mem_map.mp hc
  obtain ⟨cause', hcause⟩ := judge_eq_error hcf
  have hne : e.1 ≠ d.1 := by
    intro heq
    have hmem : d.1 ∈ es.map (·.1) := List.mem_map.mpr ⟨d, hd, rfl⟩
    rw [← heq] at hmem
    exact (List.nodup_cons.mp h.nodup).1 hmem
  have hname := h.isName e List.mem_cons_self
  have hname' := h.isName d (List.mem_cons_of_mem e hd)
  simp only [Fault.system.injEq] at hcause
  exact text_pathOf_ne h.opens.ne_empty hname hname' hne hcause.2

/-- When the survey fails behind a source, the visit removes that source first,
or it ends with another fault. -/
theorem survey_nil_of_visit_remove (h : Waiting s directory k dir es) {f : Fault}
    (hfault : (survey s (es.map (candidateOf directory))).2 = some f)
    (hres : ((visit remove (es.map (candidateOf directory))).run s).result = .error f)
    (hstore : ((visit remove (es.map (candidateOf directory))).run s).store = s) :
    found s (es.map (candidateOf directory)) = [] := by
  induction es with
  | nil => rfl
  | cons e es ih =>
      rw [List.map_cons, survey] at hfault
      rw [List.map_cons, found_cons]
      rcases hj : judge s (candidateOf directory e) with g | _ | _
      · rfl
      · rw [hj] at hfault
        simp only [List.map_cons, run_visit_cons, hj] at hres hstore
        exact ih h.tail hfault hres hstore
      · exfalso
        rw [hj] at hfault
        rcases Nat.lt_or_ge (pathOf directory e.1).text.utf8ByteSize Store.maxPath with hs | hl
        · obtain ⟨-, hkept⟩ := h.visit_remove_short hj hs
          rw [hkept] at hstore
          have hwithin := leaves_visit_remove (es.map (candidateOf directory))
            (s.remove (e.1 :: dir))
          rw [hstore] at hwithin
          obtain ⟨entry, hfind, -⟩ := h.stands e List.mem_cons_self
          have hgone := hwithin.find? hfind
          simp at hgone
        · rw [(h.visit_remove_long hj hl).1] at hres
          rw [← Except.error.inj hres] at hfault
          exact h.survey_fault_ne hfault

/-! ## Cleaning a directory -/

theorem leaves_clean (directory suffix : String) : (clean directory suffix).Leaves Within := by
  have htrans : ∀ s t u, Within t s → Within u t → Within u s := fun _ _ _ h h' => h.trans h'
  have hreads : ∀ {α : Type} {x : Script α}, x.ReadOnly → x.Leaves Within :=
    fun hx => hx.leaves Within.refl
  have hforEach : (forEach directory suffix remove).Leaves Within :=
    (hreads (readOnly_candidates directory suffix)).bind htrans leaves_visit_remove
  unfold clean
  apply (hreads (Script.readOnly_probe _)).bind htrans
  intro kind
  split
  · apply hforEach.bind htrans
    intro removed
    exact (hreads (Script.readOnly_report _)).bind htrans fun _ => hreads (Script.readOnly_pure _)
  · exact (hreads (Script.readOnly_report _)).bind htrans fun _ => hreads (Script.readOnly_pure _)

/-- Cleaning an existing directory visits its sources and counts them. -/
theorem run_clean
    (hdir : ((Script.probe (Path.ofString directory).text).run s).result = .ok (some .directory))
    (suffix : String) :
    let o := (forEach directory suffix remove).run s
    ((clean directory suffix).run s).result = o.result.map List.length ∧
      ((clean directory suffix).run s).store = o.store := by
  rw [clean, Script.result_bind, Script.store_bind, hdir, Script.readOnly_probe]
  simp only [Bind.bind, Except.bind]
  change (((forEach directory suffix remove >>= _ : Script Nat).run s).result = _) ∧
    ((forEach directory suffix remove >>= _ : Script Nat).run s).store = _
  rw [Script.result_bind, Script.store_bind]
  cases ((forEach directory suffix remove).run s).result with
  | ok units => exact ⟨rfl, rfl⟩
  | error e => exact ⟨rfl, rfl⟩

/-- A listing that succeeds has judged every candidate. -/
theorem listed_cases (hs : s.Lawful) {files : List Path}
    (h : ((list directory suffix).run s).result = .ok files) :
    ∃ k dir es, s.resolve .target directory = .ok (.entry dir .directory) ∧
      Waiting s directory k dir es ∧
      ((candidates directory suffix).run s).result = .ok (es.map (candidateOf directory)) ∧
      (survey s (es.map (candidateOf directory))).2 = none ∧
      found s (es.map (candidateOf directory)) = files := by
  rw [result_list] at h
  rcases candidates_cases hs directory suffix with ⟨e, hc⟩ | ⟨k, dir, es, hopen, hwait, hc, -⟩
  · rw [hc] at h
    cases h
  · rw [hc] at h
    cases hfault : (survey s (es.map (candidateOf directory))).2 with
    | some f =>
        simp only [Bind.bind, Except.bind, hfault] at h
        cases h
    | none =>
        simp only [Bind.bind, Except.bind, hfault] at h
        exact ⟨k, dir, es, hopen, hwait, hc, hfault, Except.ok.inj h⟩

/-- Cleaning removes what a listing gives, and counts it, exactly when the listed
files last. -/
theorem clean_iff_lasting (hs : s.Lawful)
    (hdir : ((Script.probe (Path.ofString directory).text).run s).result = .ok (some .directory))
    {files : List Path} (hlist : ((list directory suffix).run s).result = .ok files) :
    ∃ dir, s.resolve .target directory = .ok (.entry dir .directory) ∧
      ((((clean directory suffix).run s).result = .ok files.length ∧
        ((clean directory suffix).run s).store = s.without (files.map (·.name :: dir))) ↔
          Lasting s dir files) := by
  obtain ⟨hres, hstore⟩ := run_clean hdir suffix
  obtain ⟨k, dir, es, hopen, hwait, hc, hfault, rfl⟩ := listed_cases hs hlist
  refine ⟨dir, hopen, ?_⟩
  rw [hres, hstore, result_forEach, store_forEach, hc]
  simp only [Bind.bind, Except.bind]
  constructor
  · rintro ⟨hcount, -⟩
    cases hrun : ((visit remove (es.map (candidateOf directory))).run s).result with
    | error e =>
        rw [hrun] at hcount
        cases hcount
    | ok units =>
        rw [hrun] at hcount
        exact (lasting_of_visit_remove (Within.refl s) hwait hfault hrun).2 (Except.ok.inj hcount)
  · intro hlast
    obtain ⟨⟨units, hunits, hlen⟩, hrest⟩ :=
      visit_remove_of_lasting (Within.refl s) hwait hfault hlast
    refine ⟨?_, hrest⟩
    rw [hunits, ← hlen]
    rfl

/-- When a listing fails, cleaning fails the same way with nothing removed
exactly when no source stands before the fault. -/
theorem clean_iff_yielded (hs : s.Lawful)
    (hdir : ((Script.probe (Path.ofString directory).text).run s).result = .ok (some .directory))
    {f : Fault} (hlist : ((list directory suffix).run s).result = .error f) :
    (((clean directory suffix).run s).result = .error f ∧
      ((clean directory suffix).run s).store = s) ↔ yielded s directory suffix = [] := by
  obtain ⟨hres, hstore⟩ := run_clean hdir suffix
  rw [result_list] at hlist
  rw [hres, hstore, result_forEach, store_forEach, yielded]
  rcases candidates_cases hs directory suffix with ⟨e, hc⟩ | ⟨k, dir, es, -, hwait, hc, -⟩
  · rw [hc] at hlist ⊢
    cases hlist
    exact ⟨fun _ => rfl, fun _ => ⟨rfl, rfl⟩⟩
  rw [hc] at hlist ⊢
  simp only [Bind.bind, Except.bind] at hlist ⊢
  cases hfault : (survey s (es.map (candidateOf directory))).2 with
  | none =>
      rw [hfault] at hlist
      cases hlist
  | some f' =>
      rw [hfault] at hlist
      obtain rfl : f' = f := Except.error.inj hlist
      constructor
      · rintro ⟨hcount, hkept⟩
        cases hrun : ((visit remove (es.map (candidateOf directory))).run s).result with
        | ok units =>
            rw [hrun] at hcount
            cases hcount
        | error f =>
            rw [hrun] at hcount
            obtain rfl : f = f' := Except.error.inj hcount
            exact survey_nil_of_visit_remove hwait hfault hrun hkept
      · intro hnone
        have hsurvey := List.map_eq_nil_iff.mp hnone
        rw [run_visit_of_survey_nil remove hsurvey, hfault]
        exact ⟨rfl, rfl⟩

/-- Cleaning an existing directory removes what a listing gives, and counts it,
exactly when the listed files last; and when the listing fails it fails the same
way with nothing removed exactly when no source stands before the fault. -/
theorem clean_agrees_iff (hs : s.Lawful)
    (hdir : ((Script.probe (Path.ofString directory).text).run s).result = .ok (some .directory))
    (suffix : String) :
    (∀ files, ((list directory suffix).run s).result = .ok files →
      ∃ dir, s.resolve .target directory = .ok (.entry dir .directory) ∧
        ((((clean directory suffix).run s).result = .ok files.length ∧
          ((clean directory suffix).run s).store = s.without (files.map (·.name :: dir))) ↔
            Lasting s dir files)) ∧
    ∀ e, ((list directory suffix).run s).result = .error e →
      ((((clean directory suffix).run s).result = .error e ∧
        ((clean directory suffix).run s).store = s) ↔ yielded s directory suffix = []) := by
  constructor
  · intro files hlist
    exact clean_iff_lasting hs hdir hlist
  · intro f hlist
    exact clean_iff_yielded hs hdir hlist

/-- Without links every listed file lasts, unless its path is too long. -/
theorem Waiting.lasting_found (hlinks : u.Linkless) (h : Waiting u directory k dir es)
    (hshort : ∀ p ∈ found s (es.map (candidateOf directory)),
      p.text.utf8ByteSize < Store.maxPath) :
    Lasting u dir (found s (es.map (candidateOf directory))) := by
  induction es generalizing u with
  | nil => exact lasting_nil u dir
  | cons e es ih =>
      have hname := h.isName e List.mem_cons_self
      obtain ⟨entry, hfind, hkind⟩ := h.stands e List.mem_cons_self
      rw [List.map_cons, found_cons] at hshort ⊢
      cases entry with
      | link target => exact absurd hfind (hlinks _ target)
      | directory =>
          have hj : judge s (candidateOf directory e) = .ok false := by
            unfold judge candidateOf
            rw [← hkind]
            rfl
          rw [hj] at hshort ⊢
          exact ih hlinks h.tail hshort
      | file bytes =>
          have hj : judge s (candidateOf directory e) = .ok true := by
            unfold judge candidateOf
            rw [← hkind]
            rfl
          rw [hj] at hshort ⊢
          have hfile : u.IsFileIn k dir e.1 :=
            ⟨e.1 :: dir, bytes, by simp [Store.walk_plain hname.plain hname.short, hfind]⟩
          rw [lasting_cons, h.name_pathOf List.mem_cons_self]
          constructor
          · exact (h.kindAt_iff List.mem_cons_self).mpr ⟨hshort _ List.mem_cons_self, hfile⟩
          · apply ih ((Within.remove u _).linkless hlinks) (h.after_remove hfile)
            intro p hp
            exact hshort p (List.mem_cons_of_mem _ hp)

/-- Without links, and without paths that are too long, cleaning removes what a
listing gives, and counts it. -/
theorem clean_of_linkless (hs : s.Lawful) (hlinks : s.Linkless)
    (hdir : ((Script.probe (Path.ofString directory).text).run s).result = .ok (some .directory))
    {files : List Path} (hlist : ((list directory suffix).run s).result = .ok files)
    (hshort : ∀ p ∈ files, p.text.utf8ByteSize < Store.maxPath) :
    ∃ dir, s.resolve .target directory = .ok (.entry dir .directory) ∧
      ((clean directory suffix).run s).result = .ok files.length ∧
      ((clean directory suffix).run s).store = s.without (files.map (·.name :: dir)) := by
  obtain ⟨dir, hopen, hiff⟩ := clean_iff_lasting hs hdir hlist
  obtain ⟨k, dir', es, hopen', hwait, -, -, rfl⟩ := listed_cases hs hlist
  cases hopen.symm.trans hopen'
  exact ⟨dir, hopen, hiff.mpr (hwait.lasting_found hlinks hshort)⟩

/-- A directory with two entries that bear the names of sources. -/
def twoEntries (a b : Entry) : Store :=
  (((Store.empty []).set ["d"] .directory).set ["a.c", "d"] a).set ["b.c", "d"] b

theorem candidates_twoEntries (a b : Entry) :
    ((candidates "d" ".c").run (twoEntries a b)).result =
      .ok [candidateOf "d" ("a.c", a.kind), candidateOf "d" ("b.c", b.kind)] := by
  have hkept : ((twoEntries a b).children ["d"]).filter (fun e => hasSuffix ".c" e.1) =
      [("a.c", a.kind), ("b.c", b.kind)] := by
    change [("a.c", a.kind), ("b.c", b.kind)].filter _ = _
    cases a.kind <;> cases b.kind <;> decide
  have hsorted : [("a.c", a.kind), ("b.c", b.kind)].Pairwise
      fun d e => decide (d.1 ≤ e.1) = true :=
    List.pairwise_pair.mpr (show decide ("a.c" ≤ "b.c") = true by decide)
  exact result_candidates_of_sorted (by decide) (by rfl) hkept hsorted

/-- A link in front of its file is removed first, and both go. -/
theorem clean_agrees_link_in_front :
    (twoEntries (.link "b.c") (.file [])).Lawful ∧
    ((Script.probe (Path.ofString "d").text).run (twoEntries (.link "b.c") (.file []))).result =
      .ok (some .directory) ∧
    ((clean "d" ".c").run (twoEntries (.link "b.c") (.file []))).result = .ok 2 := by
  have hs : (twoEntries (.link "b.c") (.file [])).Lawful := by decide
  have hdir : ((Script.probe (Path.ofString "d").text).run
      (twoEntries (.link "b.c") (.file []))).result = .ok (some .directory) := by rfl
  have hlist : ((list "d" ".c").run (twoEntries (.link "b.c") (.file []))).result =
      .ok [.ofString "d/a.c", .ofString "d/b.c"] := by
    rw [result_list, candidates_twoEntries]
    rfl
  obtain ⟨dir, hopen, hiff⟩ := (clean_agrees_iff hs hdir ".c").1 _ hlist
  have hd : (twoEntries (.link "b.c") (.file [])).resolve .target "d" =
      .ok (.entry ["d"] .directory) := by rfl
  obtain ⟨rfl, -⟩ := Place.entry.inj (Except.ok.inj (hd.symm.trans hopen))
  have hlast : Lasting (twoEntries (.link "b.c") (.file [])) ["d"]
      [.ofString "d/a.c", .ofString "d/b.c"] :=
    lasting_cons.mpr ⟨by rfl, lasting_cons.mpr ⟨by rfl, lasting_nil _ _⟩⟩
  exact ⟨hs, hdir, (hiff.mpr hlast).1⟩

/-- A link behind its file leads nowhere when its turn comes, and stays. -/
theorem clean_leaves_link_behind :
    ((list "d" ".c").run (twoEntries (.file []) (.link "a.c"))).result =
      .ok [.ofString "d/a.c", .ofString "d/b.c"] ∧
    ((clean "d" ".c").run (twoEntries (.file []) (.link "a.c"))).result = .ok 1 ∧
    ((clean "d" ".c").run (twoEntries (.file []) (.link "a.c"))).store.find? ["b.c", "d"] =
      some (.link "a.c") := by
  have hdir : ((Script.probe (Path.ofString "d").text).run
      (twoEntries (.file []) (.link "a.c"))).result = .ok (some .directory) := by rfl
  obtain ⟨hres, hstore⟩ := run_clean hdir ".c"
  refine ⟨?_, hres.trans ?_, (congrArg (Store.find? · ["b.c", "d"]) hstore).trans ?_⟩
  · rw [result_list, candidates_twoEntries]
    rfl
  · rw [result_forEach, candidates_twoEntries]
    rfl
  · rw [store_forEach, candidates_twoEntries]
    rfl

end SdkGlue.Sources
