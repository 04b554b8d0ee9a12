import Mathlib.Data.List.Perm.Basic
import SdkGlue.Proofs.Sources.Each
import SdkGlue.Proofs.Store.Reordered

/-!
# Listing the sources of a directory

A listing gives every source of a directory once, by name, or it fails at the
first link by name that cannot be followed.  The order in which the directory
keeps its entries makes no difference, and neither does the order in which the
listed sources are read.
-/

namespace SdkGlue.Sources

variable {s t : Store} {directory suffix : String} {dir : Location} {k : Nat}
  {es : List (String × Entry.Kind)} {e : String × Entry.Kind} {fault : Fault} {paths : List Path}

/-! ## Entries by name -/

theorem pairwise_chosen (s : Store) (dir : Location) (suffix : String) :
    (chosen suffix (s.children dir)).Pairwise fun a b => a.1 < b.1 := by
  have hsorted : (chosen suffix (s.children dir)).Pairwise fun a b => decide (a.1 ≤ b.1) = true :=
    List.pairwise_mergeSort (fun a b c hab hbc => by simp_all [String.le_trans (b := b.1)])
      (fun a b => by simpa using String.le_total a.1 b.1) _
  have hne := List.pairwise_map.mp (nodup_chosen s dir suffix)
  refine (hsorted.and hne).imp ?_
  rintro a b ⟨hle, hne⟩
  exact Std.lt_of_le_of_ne (of_decide_eq_true hle) hne

/-- Entries that stand in another order are chosen in the same order. -/
theorem chosen_of_reorders (h : t.Reorders s) (dir : Location) (suffix : String) :
    chosen suffix (t.children dir) = chosen suffix (s.children dir) := by
  have hperm : (chosen suffix (t.children dir)).Perm (chosen suffix (s.children dir)) :=
    (List.mergeSort_perm _ _).trans
      (((h.perm_children dir).filter _).trans (List.mergeSort_perm _ _).symm)
  refine List.Perm.eq_of_pairwise (fun a b _ _ hab hba => ?_) (pairwise_chosen t dir suffix)
    (pairwise_chosen s dir suffix) hperm
  exact absurd (String.lt_trans hab hba) (String.lt_irrefl _)

/-! ## Stores in another order -/

theorem judge_of_reorders (h : t.Reorders s) (c : Candidate) : judge t c = judge s c := by
  unfold judge
  rw [h.kindAt]

theorem result_membersOf_of_reorders (h : t.Reorders s) (path : Path) :
    ((membersOf path).run t).result = ((membersOf path).run s).result := by
  rw [result_membersOf, result_membersOf, h.read]

theorem result_candidates_of_reorders (h : t.Reorders s) (directory suffix : String) :
    ((candidates directory suffix).run t).result =
      ((candidates directory suffix).run s).result := by
  rw [result_candidates, result_candidates]
  congr 1
  unfold Store.list
  rw [h.resolve]
  cases s.resolve .target directory with
  | error cause => rfl
  | ok place =>
      rcases place with ⟨dir, _ | _ | _⟩ | ⟨dir, name⟩
      · rfl
      · rfl
      · change Except.ok (select directory suffix (t.children dir)) =
          Except.ok (select directory suffix (s.children dir))
        rw [select_eq, select_eq, chosen_of_reorders h]
      · rfl

theorem result_forEach_of_reorders {α : Type} {f : Path → Script α} (h : t.Reorders s)
    (hf : ∀ p, (f p).ReadOnly) (hsame : ∀ p, ((f p).run t).result = ((f p).run s).result)
    (directory suffix : String) :
    ((forEach directory suffix f).run t).result = ((forEach directory suffix f).run s).result := by
  rw [result_forEach, result_forEach, result_candidates_of_reorders h]
  congr 1
  funext cs
  exact result_visit_congr hf fun c _ => ⟨judge_of_reorders h c, hsame _⟩

/-! ## The first link that cannot be followed -/

/-- A link with the suffix that cannot be followed, although something may be
there. -/
def Stuck (s : Store) (directory suffix : String) (dir : Location) (name : String)
    (cause : Cause) : Prop :=
  (name, .link) ∈ s.children dir ∧ hasSuffix suffix name = true ∧
    s.kindAt (entryPath directory name) = .error cause ∧ cause ≠ .missing

theorem judge_eq_error_iff {c : Candidate} :
    judge s c = .error fault ↔ c.kind = .link ∧
      ∃ cause, s.kindAt c.path = .error cause ∧ cause ≠ .missing ∧ fault = .system cause c.path := by
  unfold judge
  cases c.kind with
  | file => simp
  | directory => simp
  | link =>
      cases s.kindAt c.path with
      | ok kind => simp
      | error cause => cases cause <;> simp [eq_comm]

/-- Of the entries by name, the first that cannot be judged decides. -/
theorem survey_fault_iff (hsorted : es.Pairwise fun a b => a.1 < b.1) :
    (survey s (es.map (candidateOf directory))).2 = some fault ↔
      ∃ e ∈ es, judge s (candidateOf directory e) = .error fault ∧
        ∀ d ∈ es, d.1 < e.1 → ∀ f, judge s (candidateOf directory d) ≠ .error f := by
  induction es with
  | nil => simp [survey]
  | cons d es ih =>
      obtain ⟨hfirst, hsorted⟩ := List.pairwise_cons.mp hsorted
      have hleast : ∀ d' ∈ d :: es, ¬ d'.1 < d.1 := by
        intro d' hd' hlt
        rcases List.mem_cons.mp hd' with rfl | hd'
        · exact String.lt_irrefl _ hlt
        · exact String.lt_irrefl _ (String.lt_trans hlt (hfirst d' hd'))
      cases hjudge : judge s (candidateOf directory d) with
      | error f =>
          have hsurvey : (survey s ((d :: es).map (candidateOf directory))).2 = some f := by
            rw [List.map_cons, survey, hjudge]
          rw [hsurvey, Option.some.injEq]
          constructor
          · rintro rfl
            exact ⟨d, List.mem_cons_self, hjudge, fun d' hd' hlt => absurd hlt (hleast d' hd')⟩
          · rintro ⟨e, he, herror, hnone⟩
            rcases List.mem_cons.mp he with rfl | he
            · exact Except.error.inj (hjudge.symm.trans herror)
            · exact absurd hjudge (hnone d List.mem_cons_self (hfirst e he) f)
      | ok source =>
          have hsurvey : (survey s ((d :: es).map (candidateOf directory))).2 =
              (survey s (es.map (candidateOf directory))).2 := by
            rw [List.map_cons, survey, hjudge]
            cases source <;> rfl
          rw [hsurvey, ih hsorted]
          constructor
          · rintro ⟨e, he, herror, hnone⟩
            refine ⟨e, List.mem_cons_of_mem d he, herror, fun d' hd' hlt f => ?_⟩
            rcases List.mem_cons.mp hd' with rfl | hd'
            · intro herror'
              cases hjudge.symm.trans herror'
            · exact hnone d' hd' hlt f
          · rintro ⟨e, he, herror, hnone⟩
            rcases List.mem_cons.mp he with rfl | he
            · cases hjudge.symm.trans herror
            · exact ⟨e, he, herror, fun d' hd' => hnone d' (List.mem_cons_of_mem d hd')⟩

theorem judge_chosen_iff {name : String} :
    (∃ kind, (name, kind) ∈ chosen suffix (s.children dir) ∧
        judge s (candidateOf directory (name, kind)) = .error fault) ↔
      ∃ cause, Stuck s directory suffix dir name cause ∧
        fault = .system cause (entryPath directory name) := by
  simp only [judge_eq_error_iff, mem_chosen_iff, candidateOf, Stuck]
  constructor
  · rintro ⟨kind, ⟨hchild, hsuffix⟩, rfl, cause, hkind, hne, rfl⟩
    exact ⟨cause, ⟨hchild, hsuffix, hkind, hne⟩, rfl⟩
  · rintro ⟨cause, ⟨hchild, hsuffix, hkind, hne⟩, rfl⟩
    exact ⟨.link, ⟨hchild, hsuffix⟩, rfl, cause, hkind, hne, rfl⟩

theorem survey_chosen_fault_iff :
    (survey s ((chosen suffix (s.children dir)).map (candidateOf directory))).2 = some fault ↔
      ∃ name cause, Stuck s directory suffix dir name cause ∧
        (∀ name' < name, ∀ cause', ¬ Stuck s directory suffix dir name' cause') ∧
        fault = .system cause (entryPath directory name) := by
  rw [survey_fault_iff (pairwise_chosen s dir suffix)]
  constructor
  · rintro ⟨⟨name, kind⟩, he, herror, hnone⟩
    obtain ⟨cause, hstuck, rfl⟩ := judge_chosen_iff.mp ⟨kind, he, herror⟩
    refine ⟨name, cause, hstuck, fun name' hlt cause' hstuck' => ?_, rfl⟩
    obtain ⟨kind', he', herror'⟩ := judge_chosen_iff.mpr ⟨cause', hstuck', rfl⟩
    exact hnone _ he' hlt _ herror'
  · rintro ⟨name, cause, hstuck, hnone, rfl⟩
    obtain ⟨kind, he, herror⟩ := judge_chosen_iff.mpr ⟨cause, hstuck, rfl⟩
    refine ⟨(name, kind), he, herror, fun d hd hlt f herror' => ?_⟩
    obtain ⟨cause', hstuck', -⟩ := judge_chosen_iff.mp ⟨d.2, hd, herror'⟩
    exact hnone d.1 hlt cause' hstuck'

/-! ## What a listing gives -/

/-- Why a directory is not listed. -/
inductive Unlisted (s : Store) (directory suffix : String) : Fault → Prop
  | nul (h : Script.hasNul directory = true) : Unlisted s directory suffix .nulInPath
  | closed {cause : Cause} (hnul : Script.hasNul directory = false)
      (hlist : s.list directory = .error cause) :
      Unlisted s directory suffix (.system cause directory)
  | stuck {dir : Location} {name : String} {cause : Cause}
      (hnul : Script.hasNul directory = false)
      (hdir : s.resolve .target directory = .ok (.entry dir .directory))
      (hstuck : Stuck s directory suffix dir name cause)
      (hfirst : ∀ name' < name, ∀ cause', ¬ Stuck s directory suffix dir name' cause') :
      Unlisted s directory suffix (.system cause (entryPath directory name))

theorem conclude_eq_error_iff {α : Type} {f : Option Fault} {a : α} :
    conclude f a = .error fault ↔ f = some fault := by
  cases f <;> simp [conclude]

theorem list_eq_error_iff :
    ((list directory suffix).run s).result = .error fault ↔
      Unlisted s directory suffix fault := by
  rw [result_list]
  cases hnul : Script.hasNul directory with
  | true =>
      rw [result_candidates, hnul, if_pos rfl, error_bind, Except.error.injEq]
      constructor
      · rintro rfl
        exact .nul hnul
      · rintro (- | ⟨hnul', -⟩ | ⟨hnul', -⟩)
        · rfl
        · cases hnul.symm.trans hnul'
        · cases hnul.symm.trans hnul'
  | false =>
      cases hlist : s.list directory with
      | error cause =>
          have hcandidates : ((candidates directory suffix).run s).result =
              .error (.system cause directory) := by
            rw [result_candidates, hnul, hlist]
            rfl
          rw [hcandidates, error_bind, Except.error.injEq]
          constructor
          · rintro rfl
            exact .closed hnul hlist
          · rintro (hnul' | ⟨-, hlist'⟩ | ⟨-, hdir, -⟩)
            · cases hnul.symm.trans hnul'
            · cases hlist.symm.trans hlist'
              rfl
            · cases hlist.symm.trans (Store.list_eq_ok_iff.mpr ⟨_, hdir, rfl⟩)
      | ok entries =>
          obtain ⟨dir, hdir, rfl⟩ := Store.list_eq_ok_iff.mp hlist
          rw [result_candidates_iff.mpr ⟨hnul, dir, hdir, rfl⟩, ok_bind, conclude_eq_error_iff,
            select_eq, survey_chosen_fault_iff]
          constructor
          · rintro ⟨name, cause, hstuck, hfirst, rfl⟩
            exact .stuck hnul hdir hstuck hfirst
          · rintro (hnul' | ⟨-, hlist'⟩ | ⟨-, hdir', hstuck, hfirst⟩)
            · cases hnul.symm.trans hnul'
            · cases hlist.symm.trans hlist'
            · cases hdir.symm.trans hdir'
              exact ⟨_, _, hstuck, hfirst, rfl⟩

/-- The names of the sources that a survey finds: those of the entries that lead to
a file. -/
theorem Waiting.found_eq (hwait : Waiting s directory k dir es)
    (hsorted : es.Pairwise fun a b => a.1 < b.1)
    (hall : (survey s (es.map (candidateOf directory))).2 = none) :
    ∃ names : List String, found s (es.map (candidateOf directory)) = names.map (pathOf directory) ∧
      names.map (fun name => (pathOf directory name).name) = names ∧
      names.Pairwise (· < ·) ∧
      ∀ name, name ∈ names ↔ (∃ kind, (name, kind) ∈ es) ∧ (s.contentIn? dir name).isSome := by
  obtain ⟨es', hsub, hes'⟩ :=
    List.sublist_map_iff.mp (survey_sublist s (es.map (candidateOf directory)))
  have hnames : ∀ e ∈ es', (pathOf directory e.1).name = e.1 := fun e he =>
    hwait.name_pathOf (hsub.subset he)
  refine ⟨es'.map Prod.fst, ?_, ?_, List.pairwise_map.mpr (hsorted.sublist hsub), fun name => ?_⟩
  · rw [found, hes', List.map_map, List.map_map]
    rfl
  · rw [List.map_map]
    exact List.map_congr_left hnames
  constructor
  · intro hname
    obtain ⟨e, he, rfl⟩ := List.mem_map.mp hname
    have hsource : candidateOf directory e ∈ (survey s (es.map (candidateOf directory))).1 :=
      hes' ▸ List.mem_map_of_mem he
    have hfile := ((hwait.judge_iff (hsub.subset he)).mp (survey_of_mem hsource).2).1
    exact ⟨⟨e.2, hsub.subset he⟩, hfile.contentIn? (Store.enter_links_le hwait.opens.entered)⟩
  · rintro ⟨⟨kind, he⟩, hcontent⟩
    obtain ⟨bytes, hbytes⟩ := Option.isSome_iff_exists.mp hcontent
    rcases survey_complete hall (List.mem_map_of_mem he) with hfalse | ⟨-, hsource⟩
    · exact absurd hfalse (hwait.judge_ne_false he hbytes)
    · rw [hes'] at hsource
      obtain ⟨e', he', heq⟩ := List.mem_map.mp hsource
      have hpath : pathOf directory e'.1 = pathOf directory name :=
        congrArg (fun c : Candidate => Path.ofString c.path) heq
      have hname : e'.1 = name := by
        rw [← hnames e' he', hpath, hwait.name_pathOf he]
      exact List.mem_map.mpr ⟨e', he', hname⟩

/-! ## Reading the sources in any order -/

/-- The members that sources include, read one after another in this order. -/
def gather (s : Store) (paths : List Path) : Except Fault (List Member) :=
  (paths.mapM fun p => ((membersOf p).run s).result).map fun found =>
    Catalog.sdk.arrange found.flatten

theorem collect_eq_gather (h : ((list directory suffix).run s).result = .ok paths) :
    ((collect directory suffix).run s).result = gather s paths := by
  rw [result_list, bind_eq_ok_iff] at h
  obtain ⟨cs, hcs, hfound⟩ := h
  rw [result_collect, result_forEach, hcs, ok_bind, result_visit readOnly_membersOf, gather]
  cases hfault : (survey s cs).2 with
  | some f =>
      rw [hfault] at hfound
      cases hfound
  | none =>
      rw [hfault] at hfound
      cases hfound
      rw [found, List.mapM_map]
      congr 1
      exact bind_pure _

theorem gather_of_perm {paths' : List Path} {members : List Member} (hperm : paths'.Perm paths)
    (h : gather s paths = .ok members) : gather s paths' = .ok members := by
  obtain ⟨found, hread, rfl⟩ := map_eq_ok_iff.mp h
  obtain ⟨found', hread', hfound⟩ := List.perm_comp_forall₂ hperm (mapM_eq_ok_iff.mp hread)
  refine map_eq_ok_iff.mpr ⟨found', mapM_eq_ok_iff.mpr hread', ?_⟩
  apply List.filter_congr
  intro m _
  rw [decide_eq_decide]
  exact hfound.flatten.mem_iff

/-- A listing that succeeds gives one path for each entry of the directory that has
the suffix and leads to a file, by name.  It fails exactly when the directory cannot
be listed, or else at the first link with the suffix that cannot be followed.  The
order in which the store keeps its entries makes no difference, and the sources may
be read in any order for the members that they include together. -/
theorem list_exact (hs : s.Lawful) (directory suffix : String) :
    (∀ paths, ((list directory suffix).run s).result = .ok paths →
      ∃ dir names, s.resolve .target directory = .ok (.entry dir .directory) ∧
        paths = names.map (pathOf directory) ∧ paths.map Path.name = names ∧
        names.Pairwise (· < ·) ∧
        ∀ name, name ∈ names ↔ (∃ kind, (name, kind) ∈ s.children dir) ∧
          hasSuffix suffix name = true ∧ (s.contentIn? dir name).isSome) ∧
      (∀ fault, ((list directory suffix).run s).result = .error fault ↔
        Unlisted s directory suffix fault) ∧
      (∀ t : Store, t.Reorders s →
        ((list directory suffix).run t).result = ((list directory suffix).run s).result ∧
        ((collect directory suffix).run t).result = ((collect directory suffix).run s).result) ∧
      ∀ paths paths', ((list directory suffix).run s).result = .ok paths → paths'.Perm paths →
        ∀ members, ((collect directory suffix).run s).result = .ok members ↔
          gather s paths' = .ok members := by
  refine ⟨fun paths h => ?_, fun fault => list_eq_error_iff, fun t ht => ⟨?_, ?_⟩,
    fun paths paths' h hperm members => ?_⟩
  · rw [result_list, bind_eq_ok_iff] at h
    obtain ⟨cs, hcs, hfound⟩ := h
    obtain ⟨hnul, dir, hdir, rfl⟩ := result_candidates_iff.mp hcs
    obtain ⟨k, hopens⟩ := Store.resolve_eq_directory_iff.mp hdir
    have hwait := waiting_chosen hs hopens hnul suffix
    rw [select_eq] at hfound
    cases hall : (survey s ((chosen suffix (s.children dir)).map (candidateOf directory))).2 with
    | some f =>
        rw [hall] at hfound
        cases hfound
    | none =>
        rw [hall] at hfound
        cases hfound
        obtain ⟨names, hpaths, hnames, hsorted, hmem⟩ :=
          hwait.found_eq (pairwise_chosen s dir suffix) hall
        refine ⟨dir, names, hdir, hpaths, ?_, hsorted, fun name => ?_⟩
        · rw [hpaths, List.map_map]
          exact hnames
        · simp only [hmem, mem_chosen_iff, exists_and_right, and_assoc]
  · exact result_forEach_of_reorders ht (fun _ => Script.readOnly_pure _) (fun _ => rfl) _ _
  · rw [result_collect, result_collect, result_forEach_of_reorders ht readOnly_membersOf
      (result_membersOf_of_reorders ht)]
  · rw [collect_eq_gather h]
    exact ⟨gather_of_perm hperm, gather_of_perm hperm.symm⟩

/-- A directory with two links that lead to themselves, and one that leads nowhere. -/
def selfLinks : Store :=
  ((((Store.empty []).set ["d"] .directory).set ["m.c", "d"] (.link "m.c")).set ["l.c", "d"]
    (.link "l.c")).set ["a.c", "d"] (.link "gone")

theorem list_exact_selfLinks :
    selfLinks.Lawful ∧
      ((list "d" ".c").run selfLinks).result = .error (.system .linkLoop "d/l.c") := by
  have hs : selfLinks.Lawful := by decide +kernel
  have hchildren : selfLinks.children ["d"] = [("m.c", .link), ("l.c", .link), ("a.c", .link)] := by
    decide +kernel
  obtain ⟨-, herror, -, -⟩ := list_exact hs "d" ".c"
  have hstuck : Stuck selfLinks "d" ".c" ["d"] "l.c" .linkLoop :=
    ⟨by simp [hchildren], by decide, by rfl, nofun⟩
  refine ⟨hs, (herror _).mpr (.stuck (by decide) (by rfl) hstuck ?_)⟩
  rintro name' hlt cause' ⟨hchild, -, hkind, hne⟩
  simp only [hchildren, List.mem_cons, Prod.mk.injEq, and_true, List.not_mem_nil, or_false] at hchild
  rcases hchild with rfl | rfl | rfl
  · exact absurd hlt (by decide)
  · exact absurd hlt (by decide)
  · have hgone : selfLinks.kindAt (entryPath "d" "a.c") = .error .missing := by rfl
    cases hgone.symm.trans hkind
    exact hne rfl

end SdkGlue.Sources
