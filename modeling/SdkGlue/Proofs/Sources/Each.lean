import SdkGlue.Proofs.Except
import SdkGlue.Proofs.Keyed
import SdkGlue.Proofs.Sources.Collect

/-!
# Scanning source by source

A scan that keeps the members of each source apart reads the sources that a
listing gives, in their order, and fails where a collection fails.  No two
sources of a directory have one path, so nothing is lost when the members are
kept by path.
-/

namespace SdkGlue

namespace Sources

variable {α : Type} {s : Store} {directory suffix : String} {f : Path → Script α}
  {found : List (Path × α)} {cs : List Candidate}

/-- Keeps what is read of a source beside its path. -/
def paired (f : Path → Script α) (path : Path) : Script (Path × α) := do
  return (path, ← f path)

theorem readOnly_paired (hf : ∀ p, (f p).ReadOnly) (p : Path) : (paired f p).ReadOnly :=
  (hf p).bind fun _ => Script.readOnly_pure _

theorem result_paired (f : Path → Script α) (p : Path) (s : Store) :
    ((paired f p).run s).result = ((f p).run s).result.map (p, ·) := by
  rw [paired, Script.result_bind_pure]

/-- Visits with and without the paths come to the same, faults included. -/
theorem result_visit_paired (hf : ∀ p, (f p).ReadOnly) (s : Store) (cs : List Candidate) :
    ((visit f cs).run s).result = ((visit (paired f) cs).run s).result.map (List.map Prod.snd) := by
  induction cs with
  | nil => rfl
  | cons c cs ih =>
      rw [run_visit_cons, run_visit_cons]
      match judge s c with
      | .ok true =>
          simp only [Script.result_bind, hf _ s, readOnly_paired hf _ s, result_paired, ih]
          cases ((f (.ofString c.path)).run s).result with
          | error e => rfl
          | ok a => cases ((visit (paired f) cs).run s).result <;> rfl
      | .ok false => exact ih
      | .error e => rfl

/-- A visit that keeps the paths gives those that a listing gives, each with what
is read of it. -/
theorem result_visit_paired_eq_ok_iff (hf : ∀ p, (f p).ReadOnly) :
    ((visit (paired f) cs).run s).result = .ok found ↔
      ((visit pure cs).run s).result = .ok (found.map Prod.fst) ∧
        ∀ e ∈ found, ((f e.1).run s).result = .ok e.2 := by
  have heach : ∀ (c : Candidate) (e : Path × α),
      ((paired f (.ofString c.path)).run s).result = .ok e ↔
        ((pure (.ofString c.path) : Script Path).run s).result = .ok e.1 ∧
          ((f e.1).run s).result = .ok e.2 := by
    rintro c ⟨p, a⟩
    rw [result_paired, map_eq_ok_iff, Script.run_pure, Except.ok.injEq]
    constructor
    · rintro ⟨a, ha, ⟨⟩⟩
      exact ⟨rfl, ha⟩
    · rintro ⟨rfl, ha⟩
      exact ⟨a, ha, rfl⟩
  have hpure : ∀ p : Path, (pure p : Script Path).ReadOnly := fun p => Script.readOnly_pure p
  rw [result_visit_eq_ok_iff (readOnly_paired hf), result_visit_eq_ok_iff hpure,
    mapM_eq_ok_iff, mapM_eq_ok_iff, and_assoc]
  apply and_congr_right
  intro _
  rw [List.forall₂_map_right_iff]
  simp only [heach]
  generalize (survey s cs).1 = sources
  induction found generalizing sources with
  | nil => simp
  | cons e found ih =>
      simp only [List.forall₂_cons_right_iff, List.forall_mem_cons, ih]
      constructor
      · rintro ⟨c, rest, ⟨hc, he⟩, ⟨hrest, hall⟩, rfl⟩
        exact ⟨⟨c, rest, hc, hrest, rfl⟩, he, hall⟩
      · rintro ⟨⟨c, rest, hc, hrest, rfl⟩, he, hall⟩
        exact ⟨c, rest, ⟨hc, he⟩, ⟨hrest, hall⟩, rfl⟩

/-! ## The scan and the collection of a directory -/

theorem scanEach_eq_ok_iff {found : List (Path × List Member)} :
    ((scanEach directory suffix).run s).result = .ok found ↔
      ((list directory suffix).run s).result = .ok (found.map Prod.fst) ∧
        ∀ e ∈ found, ((membersOf e.1).run s).result = .ok e.2 := by
  change ((forEach directory suffix (paired membersOf)).run s).result = _ ↔ _
  rw [list, result_forEach, result_forEach, bind_eq_ok_iff, bind_eq_ok_iff]
  constructor
  · rintro ⟨cs, hcs, hvisit⟩
    obtain ⟨hlist, hall⟩ := (result_visit_paired_eq_ok_iff readOnly_membersOf).mp hvisit
    exact ⟨⟨cs, hcs, hlist⟩, hall⟩
  · rintro ⟨⟨cs, hcs, hlist⟩, hall⟩
    exact ⟨cs, hcs, (result_visit_paired_eq_ok_iff readOnly_membersOf).mpr ⟨hlist, hall⟩⟩

theorem result_collect_scanEach (directory suffix : String) (s : Store) :
    ((collect directory suffix).run s).result =
      ((scanEach directory suffix).run s).result.map fun found =>
        Catalog.sdk.arrange (found.flatMap (·.2)) := by
  rw [result_collect]
  change _ = ((forEach directory suffix (paired membersOf)).run s).result.map _
  rw [result_forEach, result_forEach]
  cases ((candidates directory suffix).run s).result with
  | error e => rfl
  | ok cs =>
      rw [ok_bind, ok_bind, result_visit_paired readOnly_membersOf]
      cases ((visit (paired membersOf) cs).run s).result <;> rfl

theorem mem_sdk_of_membersOf {path : Path} {members : List Member} {m : Member}
    (h : ((membersOf path).run s).result = .ok members) (hm : m ∈ members) :
    m ∈ Catalog.sdk := by
  obtain ⟨-, bytes, -, rfl⟩ := result_membersOf_eq_ok_iff.mp h
  exact (Scan.mem_members_iff.mp hm).mem_sdk

/-! ## The paths of a listing -/

theorem survey_sublist (s : Store) (cs : List Candidate) : (survey s cs).1.Sublist cs := by
  induction cs with
  | nil => exact List.Sublist.slnil
  | cons c cs ih =>
      rw [survey]
      split
      · exact ih.cons_cons c
      · exact ih.cons c
      · exact List.nil_sublist _

/-- A listing gives paths of entries of the directory, each once. -/
theorem list_eq_ok {paths : List Path} (hs : s.Lawful)
    (h : ((list directory suffix).run s).result = .ok paths) :
    ∃ k dir es, Waiting s directory k dir es ∧
      paths.Sublist (es.map fun e => pathOf directory e.1) := by
  rw [result_list, bind_eq_ok_iff] at h
  obtain ⟨cs, hcs, hfound⟩ := h
  rcases candidates_cases hs directory suffix with ⟨e, hc⟩ | ⟨k, dir, es, -, hwait, hc, -⟩
  · rw [hc] at hcs
    cases hcs
  cases hc.symm.trans hcs
  refine ⟨k, dir, es, hwait, ?_⟩
  cases hfault : (survey s (es.map (candidateOf directory))).2 with
  | some e =>
      rw [hfault] at hfound
      cases hfound
  | none =>
      rw [hfault] at hfound
      cases hfound
      have hsub := (survey_sublist s (es.map (candidateOf directory))).map fun c =>
        Path.ofString c.path
      rw [List.map_map] at hsub
      exact hsub

theorem Waiting.nodup_paths {k : Nat} {dir : Location} {es : List (String × Entry.Kind)}
    (h : Waiting s directory k dir es) : (es.map fun e => pathOf directory e.1).Nodup := by
  have hnames : (es.map fun e => pathOf directory e.1).map Path.name = es.map Prod.fst := by
    rw [List.map_map]
    apply List.map_congr_left
    intro e he
    exact h.name_pathOf he
  apply List.Nodup.of_map Path.name
  rw [hnames]
  exact h.nodup

theorem nodup_of_list {paths : List Path} (hs : s.Lawful)
    (h : ((list directory suffix).run s).result = .ok paths) : paths.Nodup := by
  obtain ⟨k, dir, es, hwait, hsub⟩ := list_eq_ok hs h
  exact hwait.nodup_paths.sublist hsub

/-- A collection and a scan source by source fail alike, or the scan has one
entry for each path of the listing, with what the source includes, and the
members collected are those of its entries. -/
theorem collect_scanEach_cases (hs : s.Lawful) (directory suffix : String) :
    (∃ fault, ((collect directory suffix).run s).result = .error fault ∧
      ((scanEach directory suffix).run s).result = .error fault) ∨
    ∃ members found, ((collect directory suffix).run s).result = .ok members ∧
      ((scanEach directory suffix).run s).result = .ok found ∧
      ((list directory suffix).run s).result = .ok (found.map Prod.fst) ∧
      (found.map Prod.fst).Nodup ∧
      Keyed.ofPairs found = found ∧
      (∀ e ∈ found, ((membersOf e.1).run s).result = .ok e.2) ∧
      members = Catalog.sdk.arrange (found.flatMap (·.2)) ∧
      ∀ m, m ∈ members ↔ ∃ e ∈ found, m ∈ e.2 := by
  rw [result_collect_scanEach]
  cases hfound : ((scanEach directory suffix).run s).result with
  | error fault => exact .inl ⟨fault, rfl, rfl⟩
  | ok found =>
      obtain ⟨hlist, hall⟩ := scanEach_eq_ok_iff.mp hfound
      have hnodup := nodup_of_list hs hlist
      refine .inr ⟨_, found, rfl, rfl, hlist, hnodup, Keyed.ofPairs_of_nodup hnodup, hall, rfl,
        fun m => ?_⟩
      rw [Catalog.mem_arrange, List.mem_flatMap]
      constructor
      · rintro ⟨-, he⟩
        exact he
      · rintro ⟨e, he, hm⟩
        exact ⟨mem_sdk_of_membersOf (hall e he) hm, e, he, hm⟩

end Sources

end SdkGlue
