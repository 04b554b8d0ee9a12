import SdkGlue.Proofs.Sources.Clean

/-!
# What a cleaning may take away

A cleaning takes away entries of the directory itself that bear the suffix and
lead to files, and nothing else, however it ends.  The removal of one source
leaves the directory open and the others where they were, so that every path
that is derived from the listing still names the entry it was derived from.
-/

namespace SdkGlue.Sources

open Store (Within)

variable {s u : Store} {directory suffix : String} {k : Nat} {dir : Location}
  {es : List (String × Entry.Kind)}

/-- A visit that removes takes away some of its candidates, all of them files or
links to files, whether it comes to its end or not. -/
theorem Waiting.visit_remove_gone (h : Waiting u directory k dir es) :
    let o := (visit remove (es.map (candidateOf directory))).run u
    ∃ names : List String, names.Sublist (es.map (·.1)) ∧
      o.store = u.without (names.map (· :: dir)) ∧ (∀ name ∈ names, u.IsFileIn k dir name) ∧
      ∀ units, o.result = .ok units → units.length = names.length := by
  induction es generalizing u with
  | nil =>
      refine ⟨[], List.Sublist.refl [], rfl, by simp, fun units hunits => ?_⟩
      cases hunits
      rfl
  | cons e es ih =>
      rcases hj : judge u (candidateOf directory e) with f | _ | _
      · simp only [List.map_cons, run_visit_cons, hj]
        exact ⟨[], List.nil_sublist _, rfl, by simp, nofun⟩
      · simp only [List.map_cons, run_visit_cons, hj]
        obtain ⟨names, hsub, hrest⟩ := ih h.tail
        exact ⟨names, hsub.cons e.1, hrest⟩
      · have hfile := ((h.judge_iff List.mem_cons_self).mp hj).1
        rcases Nat.lt_or_ge (pathOf directory e.1).text.utf8ByteSize Store.maxPath with hs | hl
        · obtain ⟨hres, hstore⟩ := h.visit_remove_short hj hs
          obtain ⟨names, hsub, hgone, hfiles, hcount⟩ := ih (h.after_remove hfile)
          refine ⟨e.1 :: names, hsub.cons_cons e.1, hstore.trans hgone, ?_, ?_⟩
          · intro name hname
            rcases List.mem_cons.mp hname with rfl | hname
            · exact hfile
            · exact (Within.remove u (e.1 :: dir)).isFileIn (hfiles name hname)
          · intro units hunits
            obtain ⟨-, more, rfl, hmore⟩ := h.visit_remove_eq_ok hj hunits
            simp only [List.length_cons, hcount more hmore]
        · obtain ⟨hres, hstore⟩ := h.visit_remove_long hj hl
          refine ⟨[], List.nil_sublist _, hstore, by simp, fun units hunits => ?_⟩
          cases hres.symm.trans hunits

/-- An entry of the directory that bears the suffix and leads to a file. -/
def Owned (s : Store) (directory suffix : String) (loc : Location) : Prop :=
  ∃ dir name, loc = name :: dir ∧ s.resolve .target directory = .ok (.entry dir .directory) ∧
    hasSuffix suffix name = true ∧ s.IsFileIn Store.maxLinks dir name

theorem forEach_remove_gone (hs : s.Lawful) (directory suffix : String) :
    let o := (forEach directory suffix remove).run s
    ∃ gone : List Location, o.store = s.without gone ∧ gone.Nodup ∧
      (∀ loc ∈ gone, s.find? loc ≠ none ∧ Owned s directory suffix loc) ∧
      ∀ units, o.result = .ok units → units.length = gone.length := by
  intro o
  have hresult := result_forEach directory suffix remove s
  have hstore := store_forEach directory suffix remove s
  rcases candidates_cases hs directory suffix with ⟨e, hc⟩ | ⟨k, dir, es, hdir, hwait, hc, hmem⟩
  · rw [hc] at hresult hstore
    refine ⟨[], hstore, List.nodup_nil, by simp, fun units hunits => ?_⟩
    cases hresult.symm.trans hunits
  rw [hc] at hresult hstore
  obtain ⟨names, hsub, hgone, hfiles, hcount⟩ := hwait.visit_remove_gone
  refine ⟨names.map (· :: dir), hstore.trans hgone, ?_, ?_, ?_⟩
  · refine List.Pairwise.map (· :: dir) (fun a b hab heq => ?_) (hwait.nodup.sublist hsub)
    exact hab (List.head_eq_of_cons_eq heq)
  · intro loc hloc
    obtain ⟨name, hname, rfl⟩ := List.mem_map.mp hloc
    obtain ⟨e, he, rfl⟩ := List.mem_map.mp (hsub.subset hname)
    obtain ⟨entry, hfind, -⟩ := hwait.stands e he
    have hle : k ≤ Store.maxLinks := Store.enter_links_le hwait.opens.entered
    refine ⟨by simp [hfind], dir, e.1, rfl, hdir, ((hmem e).mp he).2, ?_⟩
    exact (hfiles e.1 hname).of_le hle
  · intro units hunits
    rw [hcount units (hresult.symm.trans hunits), List.length_map]

/-- Without a directory there is nothing to do. -/
theorem run_clean_of_ne_directory (suffix : String)
    (h : ((Script.probe (Path.ofString directory).text).run s).result ≠ .ok (some .directory)) :
    ((clean directory suffix).run s).store = s ∧
      ∀ n, ((clean directory suffix).run s).result = .ok n → n = 0 := by
  rw [clean, Script.result_bind, Script.store_bind, Script.readOnly_probe]
  cases hp : ((Script.probe (Path.ofString directory).text).run s).result with
  | error e => exact ⟨rfl, fun n hn => by cases hn⟩
  | ok kind =>
      rw [hp] at h
      cases kind with
      | none => exact ⟨rfl, fun n hn => (Except.ok.inj hn).symm⟩
      | some kind =>
          cases kind with
          | directory => exact absurd rfl h
          | file => exact ⟨rfl, fun n hn => (Except.ok.inj hn).symm⟩
          | link => exact ⟨rfl, fun n hn => (Except.ok.inj hn).symm⟩

theorem clean_gone (hs : s.Lawful) (directory suffix : String) :
    let o := (clean directory suffix).run s
    ∃ gone : List Location, o.store = s.without gone ∧ gone.Nodup ∧
      (∀ loc ∈ gone, s.find? loc ≠ none ∧ Owned s directory suffix loc) ∧
      (∀ n, o.result = .ok n → n = gone.length) ∧
      (s.kindAt (Path.ofString directory).text ≠ .ok .directory → gone = []) := by
  intro o
  by_cases hprobe : ((Script.probe (Path.ofString directory).text).run s).result =
      .ok (some .directory)
  · obtain ⟨hresult, hstore⟩ := run_clean hprobe suffix
    obtain ⟨gone, hgone, hnodup, howned, hcount⟩ := forEach_remove_gone hs directory suffix
    refine ⟨gone, hstore.trans hgone, hnodup, howned, fun n hn => ?_, fun hno => ?_⟩
    · have hn := hresult.symm.trans hn
      cases hunits : ((forEach directory suffix remove).run s).result with
      | error e =>
          rw [hunits] at hn
          cases hn
      | ok units =>
          rw [hunits] at hn
          rw [← hcount units hunits]
          exact (Except.ok.inj hn).symm
    · exact absurd (Script.kindAt_of_probe hprobe) hno
  · obtain ⟨hstore, hresult⟩ := run_clean_of_ne_directory suffix hprobe
    exact ⟨[], hstore, List.nodup_nil, by simp, hresult, fun _ => rfl⟩

/-- However a cleaning ends, the entries that disappeared are entries of the
directory that bear the suffix and lead to files; everything else is as it was.
A cleaning that succeeds counts them, and without a directory there are none. -/
theorem clean_removes_owned (hs : s.Lawful) (directory suffix : String) :
    let o := (clean directory suffix).run s
    ∃ gone : List Location, o.store = s.without gone ∧ gone.Nodup ∧
      (∀ loc, loc ∈ gone ↔ s.find? loc ≠ none ∧ o.store.find? loc = none) ∧
      (∀ loc, loc ∉ gone → o.store.find? loc = s.find? loc) ∧
      (∀ loc ∈ gone, Owned s directory suffix loc) ∧
      (∀ n, o.result = .ok n → n = gone.length) ∧
      (s.kindAt directory ≠ .ok .directory ∨
          s.kindAt (Path.ofString directory).text ≠ .ok .directory →
        o.store = s ∧ ∀ n, o.result = .ok n → n = 0) := by
  intro o
  obtain ⟨gone, hleft, hnodup, howned, hcount, hnone⟩ := clean_gone hs directory suffix
  have hstood : ∀ loc ∈ gone, loc ≠ [] ∧ s.find? loc ≠ none := by
    intro loc hloc
    obtain ⟨hfind, dir, name, rfl, -⟩ := howned loc hloc
    exact ⟨by simp, hfind⟩
  refine ⟨gone, hleft, hnodup, ?_, ?_, fun loc hloc => (howned loc hloc).2, hcount, ?_⟩
  · intro loc
    rw [show o.store = _ from hleft]
    exact Store.mem_iff_of_without hstood loc
  · intro loc hloc
    rw [show o.store = _ from hleft]
    exact Store.find?_without_of_not_mem s hloc
  · intro hno
    have hempty : gone = [] := by
      rcases hno with hno | hno
      · -- An entry that is gone would have been listed under the text as it is.
        apply List.eq_nil_iff_forall_not_mem.mpr
        intro loc hloc
        obtain ⟨-, dir, name, -, hdir, -⟩ := howned loc hloc
        exact hno (Store.kindAt_eq_directory_iff.mpr ⟨dir, hdir⟩)
      · exact hnone hno
    subst hempty
    exact ⟨hleft, hcount⟩

/-- A source, a link to a file elsewhere, a directory with the suffix and a file in
it, and a link that turns in a circle. -/
def circle : Store :=
  ((((((Store.empty []).set ["d"] .directory).set ["kept"] (.file [0x61])).set ["a.c", "d"]
    (.file [])).set ["b.c", "d"] (.link "../kept")).set ["e.c", "d"] .directory).set
    ["m.c", "e.c", "d"] (.file []) |>.set ["z.c", "d"] (.link "z.c")

/-- The cleaning fails at the circle, after the source and the link are gone; the
file that the link led to stays, and so does the one that lies deeper. -/
theorem clean_removes_owned_circle :
    let o := (clean "d" ".c").run circle
    circle.Lawful ∧ o.result = .error (.system .linkLoop "d/z.c") ∧
      o.store.find? ["b.c", "d"] = none ∧ o.store.find? ["kept"] = some (.file [0x61]) ∧
      o.store.find? ["m.c", "e.c", "d"] = some (.file []) := by
  intro o
  have hs : circle.Lawful := by decide
  have hprobe : ((Script.probe (Path.ofString "d").text).run circle).result =
      .ok (some .directory) := by rfl
  have hdir : circle.resolve .target "d" = .ok (.entry ["d"] .directory) := by rfl
  have hcandidates : ((candidates "d" ".c").run circle).result =
      .ok [⟨"d/a.c", .file⟩, ⟨"d/b.c", .link⟩, ⟨"d/e.c", .directory⟩, ⟨"d/z.c", .link⟩] := by
    have hkept : (circle.children ["d"]).filter (fun e => hasSuffix ".c" e.1) =
        [("a.c", .file), ("b.c", .link), ("e.c", .directory), ("z.c", .link)] := by decide
    exact result_candidates_of_sorted (by decide) hdir hkept (by decide)
  obtain ⟨hresult, hstore⟩ := run_clean hprobe ".c"
  rw [result_forEach, hcandidates] at hresult
  rw [store_forEach, hcandidates] at hstore
  obtain ⟨gone, -, -, -, hkept, howned, -, -⟩ := clean_removes_owned hs "d" ".c"
  have hother : ∀ loc, loc.tail ≠ ["d"] → o.store.find? loc = circle.find? loc := by
    intro loc hloc
    apply hkept
    intro hmem
    obtain ⟨dir, name, rfl, hdir', -⟩ := howned loc hmem
    cases hdir.symm.trans hdir'
    exact hloc rfl
  refine ⟨hs, hresult.trans (by rfl), ?_, ?_, ?_⟩
  · exact (congrArg (Store.find? · ["b.c", "d"]) hstore).trans (by rfl)
  · exact (hother ["kept"] (by decide)).trans (by rfl)
  · exact (hother ["m.c", "e.c", "d"] (by decide)).trans (by rfl)

end SdkGlue.Sources
