import SdkGlue.Proofs.Sources.Entries
import SdkGlue.Proofs.Sources.Visit
import SdkGlue.Proofs.Store.Access

/-!
# Candidates that wait for their turn

The candidates of a directory are entries that stand in it, each once.  Whether
one of them is a source depends on what its name leads to there, and on the
length of its path.
-/

namespace SdkGlue.Sources

open Store (IsName Within)

/-- The candidate that an entry of a directory makes. -/
def candidateOf (directory : String) (e : String × Entry.Kind) : Candidate :=
  ⟨entryPath directory e.1, e.2⟩

/-- The path by which an entry of a directory is visited. -/
def pathOf (directory name : String) : Path := .ofString (entryPath directory name)

/-- Entries of an open directory that still stand, each once. -/
structure Waiting (u : Store) (directory : String) (k : Nat) (dir : Location)
    (es : List (String × Entry.Kind)) : Prop where
  opens : u.Opens directory k dir
  no_nul : Script.hasNul directory = false
  nodup : (es.map (·.1)).Nodup
  isName : ∀ e ∈ es, IsName e.1
  stands : ∀ e ∈ es, ∃ entry, u.find? (e.1 :: dir) = some entry ∧ entry.kind = e.2

variable {s u : Store} {directory suffix : String} {k : Nat} {dir : Location}
  {es : List (String × Entry.Kind)} {e : String × Entry.Kind}

namespace Waiting

theorem tail (h : Waiting u directory k dir (e :: es)) : Waiting u directory k dir es where
  opens := h.opens
  no_nul := h.no_nul
  nodup := (List.nodup_cons.mp h.nodup).2
  isName := fun d hd => h.isName d (List.mem_cons_of_mem e hd)
  stands := fun d hd => h.stands d (List.mem_cons_of_mem e hd)

/-- Removing the file in front leaves the others waiting. -/
theorem after_remove (h : Waiting u directory k dir (e :: es)) (hfile : u.IsFileIn k dir e.1) :
    Waiting (u.remove (e.1 :: dir)) directory k dir es where
  opens :=
    { ne_empty := h.opens.ne_empty
      short := h.opens.short
      entered := Store.enter_remove_of_content
        (hfile.contentIn? (Store.enter_links_le h.opens.entered)) (Nat.le_refl _) h.opens.entered }
  no_nul := h.no_nul
  nodup := h.tail.nodup
  isName := h.tail.isName
  stands := by
    intro d hd
    obtain ⟨entry, hfind, hkind⟩ := h.tail.stands d hd
    have hne : e.1 :: dir ≠ d.1 :: dir := by
      intro heq
      have hmem : d.1 ∈ es.map (·.1) := List.mem_map.mpr ⟨d, hd, rfl⟩
      rw [← List.head_eq_of_cons_eq heq] at hmem
      exact (List.nodup_cons.mp h.nodup).1 hmem
    exact ⟨entry, (Store.find?_remove_ne u hne).trans hfind, hkind⟩

/-- The name of an entry can be read off its path. -/
theorem name_pathOf (h : Waiting u directory k dir es) (he : e ∈ es) :
    (pathOf directory e.1).name = e.1 :=
  Store.name_entryPath h.opens.ne_empty (h.isName e he)

theorem kindAt_iff (h : Waiting u directory k dir es) (he : e ∈ es) :
    u.kindAt (pathOf directory e.1).text = .ok .file ↔
      (pathOf directory e.1).text.utf8ByteSize < Store.maxPath ∧ u.IsFileIn k dir e.1 := by
  rw [Store.kindAt_eq_file_iff, pathOf, h.opens.resolve_source (h.isName e he)]
  split
  · next hlong => simp [Nat.not_lt.mpr hlong]
  · next hshort => simp [Nat.lt_of_not_le hshort, Store.IsFileIn]

theorem judge_iff (h : Waiting u directory k dir es) (he : e ∈ es) :
    judge u (candidateOf directory e) = .ok true ↔
      u.IsFileIn k dir e.1 ∧
        (e.2 = .link → (entryPath directory e.1).utf8ByteSize < Store.maxPath) := by
  have hname := h.isName e he
  obtain ⟨entry, hfind, hkind⟩ := h.stands e he
  rw [← hkind]
  unfold judge candidateOf
  rw [← hkind]
  cases entry with
  | file bytes =>
      simp [Entry.kind, Store.IsFileIn, Store.walk_plain hname.plain hname.short, hfind]
  | directory =>
      simp [Entry.kind, Store.IsFileIn, Store.walk_plain hname.plain hname.short, hfind]
  | link target =>
      have hfile : u.kindAt (entryPath directory e.1) = .ok .file ↔
          (entryPath directory e.1).utf8ByteSize < Store.maxPath ∧ u.IsFileIn k dir e.1 := by
        rw [Store.kindAt_eq_file_iff, h.opens.resolve_entryPath hname]
        split
        · next hlong => simp [Nat.not_lt.mpr hlong]
        · next hshort => simp [Nat.lt_of_not_le hshort, Store.IsFileIn]
      simp only [Entry.kind, forall_const, and_comm, ← hfile]
      cases u.kindAt (entryPath directory e.1) with
      | ok kind => simp
      | error cause => cases cause <;> simp

theorem read_iff (h : Waiting u directory k dir es) (he : e ∈ es) {bytes : List UInt8} :
    u.read (pathOf directory e.1).text = .ok bytes ↔
      (pathOf directory e.1).text.utf8ByteSize < Store.maxPath ∧
        ∃ loc, u.walk .target k dir [e.1] = .ok (.entry loc (.file bytes)) := by
  rw [Store.read_eq_ok_iff, pathOf, h.opens.resolve_source (h.isName e he)]
  split
  · next hlong => simp [Nat.not_lt.mpr hlong]
  · next hshort => simp [Nat.lt_of_not_le hshort]

/-- A candidate that leads to a file is not turned down. -/
theorem judge_ne_false (h : Waiting u directory k dir es) (he : e ∈ es) {bytes : List UInt8}
    (hc : u.contentIn? dir e.1 = some bytes) : judge u (candidateOf directory e) ≠ .ok false := by
  intro hj
  have hname := h.isName e he
  have hresolve := h.opens.resolve_entryPath hname .target
  have hshort : e.2 = .link → (entryPath directory e.1).utf8ByteSize < Store.maxPath := by
    intro hlink
    apply Nat.lt_of_not_le
    intro hlong
    rw [if_pos hlong] at hresolve
    cases missing_of_judge_false hj hlink hresolve
  have hloop : u.walk .target k dir [e.1] ≠ .error .linkLoop := by
    intro hloop
    obtain ⟨entry, hfind, hkind⟩ := h.stands e he
    cases entry with
    | file b => simp [Store.walk_plain hname.plain hname.short, hfind] at hloop
    | directory => simp [Store.walk_plain hname.plain hname.short, hfind] at hloop
    | link target =>
        rw [if_neg (Nat.not_le.mpr (hshort hkind.symm)), hloop] at hresolve
        cases missing_of_judge_false hj hkind.symm hresolve
  have hfile : u.IsFileIn k dir e.1 := by
    rw [Store.contentIn?, Store.walk_more_links hloop (Store.enter_links_le h.opens.entered)] at hc
    split at hc
    · next loc b hw => exact ⟨loc, b, hw⟩
    · cases hc
  have htrue := (h.judge_iff he).mpr ⟨hfile, hshort⟩
  rw [hj] at htrue
  cases htrue

end Waiting

/-! ## Listing the sources of a directory -/

/-- The sources that a survey of candidates finds, by path. -/
def found (s : Store) (cs : List Candidate) : List Path :=
  (survey s cs).1.map fun c => .ofString c.path

/-- The sources that a listing of a directory comes to before it ends or fails. -/
def yielded (s : Store) (directory suffix : String) : List Path :=
  match ((candidates directory suffix).run s).result with
  | .ok cs => found s cs
  | .error _ => []

theorem readOnly_candidates (directory suffix : String) :
    (candidates directory suffix).ReadOnly := by
  refine Script.ReadOnly.bind (fun s => ?_) fun entries => Script.readOnly_pure _
  rw [Script.run_list]
  split <;> rfl

theorem result_candidates (directory suffix : String) (s : Store) :
    ((candidates directory suffix).run s).result =
      if Script.hasNul directory then .error .nulInPath
      else ((s.list directory).mapError (.system · directory)).map (select directory suffix) := by
  rw [candidates, Script.result_bind, Script.run_list]
  split
  · rfl
  · cases s.list directory <;> rfl

theorem result_candidates_iff {cs : List Candidate} :
    ((candidates directory suffix).run s).result = .ok cs ↔
      Script.hasNul directory = false ∧
        ∃ dir, s.resolve .target directory = .ok (.entry dir .directory) ∧
          cs = select directory suffix (s.children dir) := by
  rw [result_candidates]
  cases Script.hasNul directory with
  | true => simp
  | false =>
      cases hl : s.list directory with
      | error c =>
          have hnone : ∀ dir, s.resolve .target directory ≠ .ok (.entry dir .directory) := by
            intro dir hdir
            have hlist := Store.list_eq_ok_iff.mpr ⟨dir, hdir, rfl⟩
            rw [hl] at hlist
            cases hlist
          simp [Except.map, hnone]
      | ok entries =>
          obtain ⟨dir, hdir, rfl⟩ := Store.list_eq_ok_iff.mp hl
          simp [Except.map, hdir, eq_comm]

/-- The candidates of a directory whose entries with the suffix stand in order. -/
theorem result_candidates_of_sorted {kept : List (String × Entry.Kind)}
    (hnul : Script.hasNul directory = false)
    (hdir : s.resolve .target directory = .ok (.entry dir .directory))
    (hkept : ((s.children dir).filter fun e => hasSuffix suffix e.1) = kept)
    (hsorted : kept.Pairwise fun d e => decide (d.1 ≤ e.1) = true) :
    ((candidates directory suffix).run s).result = .ok (kept.map (candidateOf directory)) := by
  refine result_candidates_iff.mpr ⟨hnul, dir, hdir, ?_⟩
  rw [select, hkept, List.mergeSort_of_pairwise hsorted]
  rfl

theorem result_forEach {α : Type} (directory suffix : String) (f : Path → Script α) (s : Store) :
    ((forEach directory suffix f).run s).result =
      ((candidates directory suffix).run s).result >>= fun cs => ((visit f cs).run s).result := by
  rw [forEach, Script.result_bind, readOnly_candidates]

theorem store_forEach {α : Type} (directory suffix : String) (f : Path → Script α) (s : Store) :
    ((forEach directory suffix f).run s).store =
      match ((candidates directory suffix).run s).result with
      | .ok cs => ((visit f cs).run s).store
      | .error _ => s := by
  rw [forEach, Script.store_bind, readOnly_candidates]
  cases ((candidates directory suffix).run s).result <;> rfl

theorem result_list (s : Store) (directory suffix : String) :
    ((list directory suffix).run s).result =
      ((candidates directory suffix).run s).result >>= fun cs =>
        conclude (survey s cs).2 (found s cs) := by
  rw [list, result_forEach]
  congr 1
  funext cs
  rw [result_visit fun p => Script.readOnly_pure p]
  have hmap : ∀ ds : List Candidate,
      (ds.mapM fun c => ((pure (.ofString c.path) : Script Path).run s).result) =
        .ok (ds.map fun c => .ofString c.path) := by
    intro ds
    induction ds with
    | nil => rfl
    | cons d ds ih => rw [List.mapM_cons, ih]; rfl
  rw [hmap]
  rfl

/-- The entries whose name ends with the suffix, by name. -/
def chosen (suffix : String) (entries : List (String × Entry.Kind)) : List (String × Entry.Kind) :=
  (entries.filter fun e => hasSuffix suffix e.1).mergeSort fun a b => a.1 ≤ b.1

theorem select_eq (directory suffix : String) (entries : List (String × Entry.Kind)) :
    select directory suffix entries = (chosen suffix entries).map (candidateOf directory) := rfl

theorem mem_chosen_iff {entries : List (String × Entry.Kind)} :
    e ∈ chosen suffix entries ↔ e ∈ entries ∧ hasSuffix suffix e.1 = true := by
  rw [chosen, List.mem_mergeSort, List.mem_filter]

theorem nodup_chosen (s : Store) (dir : Location) (suffix : String) :
    ((chosen suffix (s.children dir)).map (·.1)).Nodup := by
  have hperm := List.mergeSort_perm ((s.children dir).filter fun e => hasSuffix suffix e.1)
    fun a b => a.1 ≤ b.1
  rw [chosen, (hperm.map (·.1)).nodup_iff]
  exact (Store.nodup_children s dir).sublist (List.filter_sublist.map _)

theorem waiting_chosen (hs : s.Lawful) (hopens : s.Opens directory k dir)
    (hnul : Script.hasNul directory = false) (suffix : String) :
    Waiting s directory k dir (chosen suffix (s.children dir)) := by
  have hfind : ∀ e ∈ chosen suffix (s.children dir),
      ∃ entry, s.find? (e.1 :: dir) = some entry ∧ entry.kind = e.2 :=
    fun e he => Store.mem_children_iff.mp (mem_chosen_iff.mp he).1
  exact
    { opens := hopens
      no_nul := hnul
      nodup := nodup_chosen s dir suffix
      isName := fun e he => (hfind e he).elim fun _ h => hs.isName h.1
      stands := hfind }

/-- The candidates of a directory are entries of it that wait for their turn. -/
theorem waiting_select (hs : s.Lawful) (hopens : s.Opens directory k dir)
    (hnul : Script.hasNul directory = false) (suffix : String) :
    ∃ es, select directory suffix (s.children dir) = es.map (candidateOf directory) ∧
      Waiting s directory k dir es ∧
      ∀ e, e ∈ es ↔ e ∈ s.children dir ∧ hasSuffix suffix e.1 = true :=
  ⟨_, select_eq directory suffix _, waiting_chosen hs hopens hnul suffix, fun _ => mem_chosen_iff⟩

/-- The candidates of a directory cannot be listed, or they wait for their turn. -/
theorem candidates_cases (hs : s.Lawful) (directory suffix : String) :
    (∃ e, ((candidates directory suffix).run s).result = .error e) ∨
      ∃ k dir es, s.resolve .target directory = .ok (.entry dir .directory) ∧
        Waiting s directory k dir es ∧
        ((candidates directory suffix).run s).result = .ok (es.map (candidateOf directory)) ∧
        ∀ e, e ∈ es ↔ e ∈ s.children dir ∧ hasSuffix suffix e.1 = true := by
  cases hc : ((candidates directory suffix).run s).result with
  | error e => exact .inl ⟨e, rfl⟩
  | ok cs =>
      obtain ⟨hnul, dir, hdir, rfl⟩ := result_candidates_iff.mp hc
      obtain ⟨k, hopens⟩ := Store.resolve_eq_directory_iff.mp hdir
      obtain ⟨es, hes, hwait, hmem⟩ := waiting_select hs hopens hnul suffix
      exact .inr ⟨k, dir, es, hdir, hwait, by rw [hes], hmem⟩

end SdkGlue.Sources
