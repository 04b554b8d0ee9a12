import SdkGlue.Proofs.Scan
import SdkGlue.Proofs.Sources.Waiting

/-!
# Collecting the members that sources include

A collection that succeeds has read every entry of the directory that leads to
a file and has the suffix.  It gives the members that these files include.
-/

namespace SdkGlue.Sources

open Store (IsName Within)

variable {s : Store} {directory suffix : String} {members : List Member}

theorem readOnly_reportScan (file : String) (scan : Scan) : (reportScan file scan).ReadOnly := by
  refine Script.ReadOnly.bind ?_ fun _ => Script.readOnly_report _
  induction scan.unknown with
  | nil => exact Script.readOnly_pure ()
  | cons path rest ih => exact Script.ReadOnly.bind (Script.readOnly_report _) fun _ => ih

theorem result_reportScan (file : String) (scan : Scan) (s : Store) :
    ((reportScan file scan).run s).result = .ok () := by
  have hforM : ∀ paths : List String,
      ((paths.forM fun path => Script.report (.unknownInclude path file)).run s).result = .ok () := by
    intro paths
    induction paths with
    | nil => rfl
    | cons path rest ih =>
        change ((Script.report _ >>= fun _ => rest.forM _ : Script Unit).run s).result = _
        rw [Script.result_bind]
        exact ih
  rw [reportScan, Script.result_bind, hforM]
  rfl

theorem readOnly_membersOf (path : Path) : (membersOf path).ReadOnly := by
  refine Script.ReadOnly.bind (fun s => ?_) fun bytes =>
    (readOnly_reportScan _ _).bind fun _ => Script.readOnly_pure _
  rw [Script.run_read]
  split <;> rfl

theorem result_membersOf (path : Path) (s : Store) :
    ((membersOf path).run s).result =
      if Script.hasNul path.text then .error .nulInPath
      else ((s.read path.text).mapError (.system · path.text)).map fun bytes =>
        (Scan.ofBytes bytes).members := by
  rw [membersOf, Script.result_bind, Script.run_read]
  split
  · rfl
  · cases hread : s.read path.text with
    | error c => rfl
    | ok bytes =>
        change ((reportScan _ _ >>= fun _ => pure _ : Script (List Member)).run s).result = _
        rw [Script.result_bind, result_reportScan]
        rfl

theorem result_membersOf_eq_ok_iff {path : Path} :
    ((membersOf path).run s).result = .ok members ↔ Script.hasNul path.text = false ∧
      ∃ bytes, s.read path.text = .ok bytes ∧ (Scan.ofBytes bytes).members = members := by
  rw [result_membersOf]
  cases Script.hasNul path.text with
  | true => simp
  | false => cases s.read path.text <;> simp [Except.map]

/-- The path leads to a file with these bytes. -/
structure Holds (s : Store) (path : Path) (bytes : List UInt8) : Prop where
  noNul : Script.hasNul path.text = false
  read : s.read path.text = .ok bytes

theorem Holds.result_membersOf {path : Path} {bytes : List UInt8} (h : Holds s path bytes) :
    ((membersOf path).run s).result = .ok (Scan.ofBytes bytes).members :=
  result_membersOf_eq_ok_iff.mpr ⟨h.noNul, bytes, h.read, rfl⟩

theorem readOnly_forEach {α : Type} {f : Path → Script α} (hf : ∀ p, (f p).ReadOnly)
    (directory suffix : String) : (forEach directory suffix f).ReadOnly :=
  (readOnly_candidates directory suffix).bind fun cs => readOnly_visit hf cs

theorem readOnly_collect (directory suffix : String) : (collect directory suffix).ReadOnly :=
  (readOnly_forEach readOnly_membersOf directory suffix).bind fun _ =>
    (Script.readOnly_report _).bind fun _ => Script.readOnly_pure _

theorem result_collect (directory suffix : String) (s : Store) :
    ((collect directory suffix).run s).result =
      ((forEach directory suffix membersOf).run s).result.map fun found =>
        Catalog.sdk.arrange found.flatten := by
  rw [collect, Script.result_bind, readOnly_forEach readOnly_membersOf]
  cases ((forEach directory suffix membersOf).run s).result <;> rfl

/-- What is scanned for a candidate is the content that its name leads to. -/
theorem Waiting.content_of_membersOf {k : Nat} {dir : Location} {es : List (String × Entry.Kind)}
    {e : String × Entry.Kind} (h : Waiting s directory k dir es) (he : e ∈ es)
    (hres : ((membersOf (.ofString (candidateOf directory e).path)).run s).result = .ok members) :
    ∃ bytes, s.contentIn? dir e.1 = some bytes ∧ (Scan.ofBytes bytes).members = members := by
  obtain ⟨-, bytes, hbytes, hmembers⟩ := result_membersOf_eq_ok_iff.mp hres
  obtain ⟨-, loc, hwalk⟩ := (h.read_iff he).mp hbytes
  have hk := Store.enter_links_le h.opens.entered
  exact ⟨bytes, Store.contentIn?_of_walk hk hwalk, hmembers⟩

/-- The members collected are those that files in the directory include. -/
theorem mem_collect_iff (hs : s.Lawful)
    (h : ((collect directory suffix).run s).result = .ok members) :
    ∃ dir, s.resolve .target directory = .ok (.entry dir .directory) ∧
      ∀ m, m ∈ members ↔ ∃ name kind bytes, (name, kind) ∈ s.children dir ∧
        hasSuffix suffix name = true ∧ s.contentIn? dir name = some bytes ∧
        Scan.Includes bytes m := by
  rw [result_collect, result_forEach] at h
  rcases candidates_cases hs directory suffix with ⟨e, hc⟩ | ⟨k, dir, es, hopen, hwait, hc, hmem⟩
  · rw [hc] at h
    cases h
  rw [hc] at h
  simp only [Bind.bind, Except.bind] at h
  cases hvisit : ((visit membersOf (es.map (candidateOf directory))).run s).result with
  | error e =>
      rw [hvisit] at h
      cases h
  | ok found =>
      rw [hvisit] at h
      obtain rfl : Catalog.sdk.arrange found.flatten = members := Except.ok.inj h
      obtain ⟨hall, hread⟩ := (result_visit_eq_ok_iff readOnly_membersOf).mp hvisit
      obtain ⟨hreads, hfound⟩ := mem_of_mapM_eq_ok hread
      refine ⟨dir, hopen, fun m => ?_⟩
      rw [Catalog.mem_arrange, List.mem_flatten]
      constructor
      · rintro ⟨-, ms, hms, hm⟩
        obtain ⟨c, hcs, hres⟩ := (hfound ms).mp hms
        obtain ⟨e, he, rfl⟩ := List.mem_map.mp (survey_of_mem hcs).1
        obtain ⟨bytes, hcontent, rfl⟩ := hwait.content_of_membersOf he hres
        obtain ⟨hchild, hsuffix⟩ := (hmem e).mp he
        exact ⟨e.1, e.2, bytes, hchild, hsuffix, hcontent, Scan.mem_members_iff.mp hm⟩
      · rintro ⟨name, kind, bytes, hchild, hsuffix, hcontent, hm⟩
        have he : (name, kind) ∈ es := (hmem (name, kind)).mpr ⟨hchild, hsuffix⟩
        have hcand := List.mem_map_of_mem (f := candidateOf directory) he
        rcases survey_complete hall hcand with hfalse | ⟨-, hcs⟩
        · exact absurd hfalse (hwait.judge_ne_false he hcontent)
        · obtain ⟨ms, hres⟩ := hreads _ hcs
          obtain ⟨bytes', hcontent', rfl⟩ := hwait.content_of_membersOf he hres
          obtain rfl : bytes' = bytes := Option.some.inj (hcontent'.symm.trans hcontent)
          exact ⟨hm.mem_sdk, _, (hfound _).mpr ⟨_, hcs, hres⟩, Scan.mem_members_iff.mpr hm⟩

/-! ## Collecting in a changed store -/

theorem result_candidates_congr {t : Store} {k : Nat} {dir : Location}
    (hs : s.Opens directory k dir) (ht : t.Opens directory k dir)
    (hlist : select directory suffix (t.children dir) = select directory suffix (s.children dir)) :
    ((candidates directory suffix).run t).result =
      ((candidates directory suffix).run s).result := by
  cases hnul : Script.hasNul directory with
  | true =>
      rw [candidates, Script.result_bind, Script.result_bind, Script.run_list, Script.run_list, hnul]
      rfl
  | false =>
      have hopen := Store.resolve_eq_directory_iff.mpr ⟨k, hs⟩
      have hopen' := Store.resolve_eq_directory_iff.mpr ⟨k, ht⟩
      rw [result_candidates_iff.mpr ⟨hnul, dir, hopen, rfl⟩]
      exact result_candidates_iff.mpr ⟨hnul, dir, hopen', hlist.symm⟩

/-- Without links no candidate is one. -/
theorem Waiting.kind_ne_link {k : Nat} {dir : Location} {es : List (String × Entry.Kind)}
    {e : String × Entry.Kind} (h : Waiting s directory k dir es) (hlinks : s.Linkless)
    (he : e ∈ es) : e.2 ≠ .link := by
  intro hkind
  obtain ⟨entry, hentry, hk⟩ := h.stands e he
  rw [hkind] at hk
  cases entry <;> cases hk
  exact hlinks _ _ hentry

/-- Reading a file does not depend on what else there is. -/
theorem Waiting.read_congr {t : Store} {k : Nat} {dir : Location}
    {es : List (String × Entry.Kind)} {e : String × Entry.Kind}
    (h : Waiting s directory k dir es) (ht : t.Opens directory k dir) (he : e ∈ es)
    (hlink : e.2 ≠ .link) (hfind : t.find? (e.1 :: dir) = s.find? (e.1 :: dir)) :
    t.read (pathOf directory e.1).text = s.read (pathOf directory e.1).text := by
  have hname := h.isName e he
  have hwalk : t.walk .target k dir [e.1] = s.walk .target k dir [e.1] := by
    obtain ⟨entry, hs, hkind⟩ := h.stands e he
    rw [Store.walk_plain hname.plain hname.short (Aim.refuses_nil _),
      Store.walk_plain hname.plain hname.short (Aim.refuses_nil _), hfind, hs]
    cases entry with
    | file bytes => rfl
    | directory => simp
    | link target => exact absurd hkind.symm hlink
  unfold Store.read pathOf
  rw [h.opens.resolve_source hname, ht.resolve_source hname, hwalk]

/-- Without links a collection comes to the same where the entries of the
directory that have the suffix are the same. -/
theorem result_collect_congr {t : Store} {k : Nat} {dir : Location} (hlawful : s.Lawful)
    (hlinks : s.Linkless) (hs : s.Opens directory k dir) (ht : t.Opens directory k dir)
    (hlist : select directory suffix (t.children dir) = select directory suffix (s.children dir))
    (hsame : ∀ name, hasSuffix suffix name = true →
      t.find? (name :: dir) = s.find? (name :: dir)) :
    ((collect directory suffix).run t).result = ((collect directory suffix).run s).result := by
  have hcandidates := result_candidates_congr hs ht hlist
  rw [result_collect, result_collect, result_forEach, result_forEach, hcandidates]
  rcases candidates_cases hlawful directory suffix with
    ⟨e, hc⟩ | ⟨k', dir', es, -, hwait, hc, hmem⟩
  · rw [hc]
    rfl
  cases hs.entered.symm.trans hwait.opens.entered
  have hvisit : ((visit membersOf (es.map (candidateOf directory))).run t).result =
      ((visit membersOf (es.map (candidateOf directory))).run s).result := by
    apply result_visit_congr readOnly_membersOf
    intro c hcs
    obtain ⟨e, he, rfl⟩ := List.mem_map.mp hcs
    have hlink := hwait.kind_ne_link hlinks he
    constructor
    · unfold judge
      cases hkind : (candidateOf directory e).kind with
      | file => rfl
      | directory => rfl
      | link => exact absurd hkind hlink
    · have hread : t.read (Path.ofString (candidateOf directory e).path).text =
          s.read (Path.ofString (candidateOf directory e).path).text :=
        hwait.read_congr ht he hlink (hsame e.1 ((hmem e).mp he).2)
      rw [result_membersOf, result_membersOf, hread]
  rw [hc]
  simp only [Bind.bind, Except.bind, hvisit]

end SdkGlue.Sources
