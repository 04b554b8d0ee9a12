import SdkGlue.Proofs.Script
import SdkGlue.Proofs.Store.Access
import SdkGlue.Proofs.Store.Change
import SdkGlue.Sources

/-!
# Visiting sources

What a visit of candidates comes to on one store.  `survey` judges all of them
on the store as it is; a visit that only reads goes through the sources that the
survey finds, in order, and ends with the fault at which the survey stopped.
-/

namespace SdkGlue

namespace Sources

open Script

variable {α : Type} {s : Store} {c : Candidate} {cs : List Candidate} {f : Path → Script α}

/-- Whether a candidate is a source, as things stand. -/
def judge (s : Store) (c : Candidate) : Except Fault Bool :=
  match c.kind with
  | .file => .ok true
  | .directory => .ok false
  | .link =>
      match s.kindAt c.path with
      | .ok kind => .ok (kind = .file)
      | .error .missing => .ok false
      | .error cause => .error (.system cause c.path)

/-- The sources among candidates as things stand, up to the first candidate that
cannot be judged, and the fault there. -/
def survey (s : Store) : List Candidate → List Candidate × Option Fault
  | [] => ([], none)
  | c :: cs =>
      match judge s c with
      | .ok true => (c :: (survey s cs).1, (survey s cs).2)
      | .ok false => survey s cs
      | .error e => ([], some e)

/-- The outcome of a survey that stopped at a fault, or else the result. -/
def conclude (fault : Option Fault) (a : α) : Except Fault α :=
  match fault with
  | none => .ok a
  | some e => .error e

theorem run_isSource (c : Candidate) (s : Store) : (isSource c).run s = ⟨judge s c, s, []⟩ := by
  unfold isSource judge
  cases c.kind with
  | file => rfl
  | directory => rfl
  | link =>
      rw [run_ask]
      simp only [Request.run]
      cases s.kindAt c.path with
      | ok kind => rfl
      | error cause => cases cause <;> rfl

theorem run_visit_cons (f : Path → Script α) (c : Candidate) (cs : List Candidate) (s : Store) :
    (visit f (c :: cs)).run s =
      match judge s c with
      | .ok true => (f (.ofString c.path) >>= fun a => visit f cs >>= fun as => pure (a :: as)).run s
      | .ok false => (visit f cs).run s
      | .error e => ⟨.error e, s, []⟩ := by
  rw [visit, run_bind, run_isSource]
  match judge s c with
  | .ok true => simp [Outcome.andThen]
  | .ok false => simp [Outcome.andThen]
  | .error e => simp [Outcome.andThen]

theorem leaves_visit {R : Store → Store → Prop} (hrefl : ∀ s, R s s)
    (htrans : ∀ s t u, R t s → R u t → R u s) (hf : ∀ p, (f p).Leaves R)
    (cs : List Candidate) : (visit f cs).Leaves R := by
  induction cs with
  | nil => exact (readOnly_pure []).leaves hrefl
  | cons c cs ih =>
      intro s
      rw [run_visit_cons]
      split
      · exact (hf _).bind htrans
          (fun a => ih.bind htrans fun as => (readOnly_pure (a :: as)).leaves hrefl) s
      · exact ih s
      · exact hrefl s

theorem readOnly_visit (hf : ∀ p, (f p).ReadOnly) (cs : List Candidate) :
    (visit f cs).ReadOnly :=
  leaves_visit (fun _ => rfl) (fun _ _ _ h h' => h'.trans h) hf cs

/-- A visit that only reads takes the sources of the survey one after another,
and then ends as the survey did. -/
theorem result_visit (hf : ∀ p, (f p).ReadOnly) (s : Store) (cs : List Candidate) :
    ((visit f cs).run s).result =
      ((survey s cs).1.mapM fun c => ((f (.ofString c.path)).run s).result) >>=
        conclude (survey s cs).2 := by
  induction cs with
  | nil => rfl
  | cons c cs ih =>
      rw [run_visit_cons, survey]
      match judge s c with
      | .ok true =>
          simp only [result_bind, List.mapM_cons, hf _ s, ih, bind_assoc]
          congr 1
          funext a
          congr 1
          funext as
          cases (survey s cs).2 <;> rfl
      | .ok false => exact ih
      | .error e => rfl

theorem result_visit_eq_ok_iff (hf : ∀ p, (f p).ReadOnly) {as : List α} :
    ((visit f cs).run s).result = .ok as ↔
      (survey s cs).2 = none ∧
        ((survey s cs).1.mapM fun c => ((f (.ofString c.path)).run s).result) = .ok as := by
  rw [result_visit hf]
  cases (survey s cs).1.mapM fun c => ((f (.ofString c.path)).run s).result with
  | error e => simp [Bind.bind, Except.bind]
  | ok bs => cases (survey s cs).2 <;> simp [Bind.bind, Except.bind, conclude]

/-- A visit that only reads comes to the same where its candidates and what is
read of them are the same. -/
theorem result_visit_congr {t : Store} (hf : ∀ p, (f p).ReadOnly)
    (h : ∀ c ∈ cs, judge t c = judge s c ∧
      ((f (.ofString c.path)).run t).result = ((f (.ofString c.path)).run s).result) :
    ((visit f cs).run t).result = ((visit f cs).run s).result := by
  induction cs with
  | nil => rfl
  | cons c cs ih =>
      obtain ⟨hjudge, hread⟩ := h c List.mem_cons_self
      have ih := ih fun d hd => h d (List.mem_cons_of_mem c hd)
      rw [run_visit_cons, run_visit_cons, hjudge]
      match judge s c with
      | .ok true => simp only [result_bind, hf _ t, hf _ s, hread, ih, run_pure]
      | .ok false => exact ih
      | .error e => rfl

theorem mem_of_mapM_eq_ok {β γ ε : Type} {g : β → Except ε γ} {bs : List β} {cs : List γ}
    (h : bs.mapM g = .ok cs) :
    (∀ b ∈ bs, ∃ c, g b = .ok c) ∧ ∀ c, c ∈ cs ↔ ∃ b ∈ bs, g b = .ok c := by
  induction bs generalizing cs with
  | nil =>
      cases h
      simp
  | cons b bs ih =>
      rw [List.mapM_cons] at h
      cases hb : g b with
      | error e => simp [hb, Bind.bind, Except.bind] at h
      | ok c =>
          cases hbs : bs.mapM g with
          | error e => simp [hb, hbs, Bind.bind, Except.bind] at h
          | ok cs' =>
              simp only [hb, hbs, Bind.bind, Except.bind, Pure.pure, Except.pure,
                Except.ok.injEq] at h
              subst h
              obtain ⟨hall, hmem⟩ := ih hbs
              refine ⟨?_, fun d => ?_⟩
              · simpa [hb] using hall
              · simp [hb, hmem, eq_comm]

/-! ## What a survey says -/

theorem survey_of_mem {s : Store} {cs : List Candidate} {c : Candidate}
    (h : c ∈ (survey s cs).1) : c ∈ cs ∧ judge s c = .ok true := by
  induction cs with
  | nil => cases h
  | cons d cs ih =>
      rw [survey] at h
      split at h
      · next hd =>
          rcases List.mem_cons.mp h with rfl | h
          · exact ⟨List.mem_cons_self, hd⟩
          · exact ⟨List.mem_cons_of_mem d (ih h).1, (ih h).2⟩
      · exact ⟨List.mem_cons_of_mem d (ih h).1, (ih h).2⟩
      · cases h

theorem survey_complete {s : Store} {cs : List Candidate} (h : (survey s cs).2 = none)
    {c : Candidate} (hc : c ∈ cs) :
    judge s c = .ok false ∨ judge s c = .ok true ∧ c ∈ (survey s cs).1 := by
  induction cs with
  | nil => cases hc
  | cons d cs ih =>
      rw [survey] at h ⊢
      match hd : judge s d with
      | .ok true =>
          rw [hd] at h
          rcases List.mem_cons.mp hc with rfl | hc
          · exact .inr ⟨hd, List.mem_cons_self⟩
          · exact (ih h hc).imp_right fun ⟨hj, hm⟩ => ⟨hj, List.mem_cons_of_mem d hm⟩
      | .ok false =>
          rw [hd] at h
          rcases List.mem_cons.mp hc with rfl | hc
          · exact .inl hd
          · exact ih h hc
      | .error e =>
          rw [hd] at h
          cases h

theorem short_of_judge {s : Store} {c : Candidate} (h : judge s c = .ok true)
    (hlink : c.kind = .link) : c.path.utf8ByteSize < Store.maxPath := by
  cases hk : s.kindAt c.path with
  | ok kind => exact Store.short_of_kindAt hk
  | error cause => cases cause <;> simp [judge, hlink, hk] at h

theorem judge_eq_error {s : Store} {c : Candidate} {e : Fault} (h : judge s c = .error e) :
    ∃ cause, e = .system cause c.path := by
  unfold judge at h
  cases hk : c.kind with
  | file => simp [hk] at h
  | directory => simp [hk] at h
  | link =>
      cases hs : s.kindAt c.path with
      | ok kind => simp [hk, hs] at h
      | error cause =>
          refine ⟨cause, ?_⟩
          cases cause <;> simp_all

theorem missing_of_judge_false (hj : judge s c = .ok false)
    (hlink : c.kind = .link) {cause : Cause} (hr : s.resolve .target c.path = .error cause) :
    cause = .missing := by
  have hk : s.kindAt c.path = .error cause := by
    rw [Store.kindAt, hr]
    rfl
  cases cause <;> simp [judge, hlink, hk] at hj ⊢

theorem survey_fault {s : Store} {cs : List Candidate} {e : Fault}
    (h : (survey s cs).2 = some e) : ∃ c ∈ cs, judge s c = .error e := by
  induction cs with
  | nil => cases h
  | cons d cs ih =>
      rw [survey] at h
      split at h
      · exact (ih h).imp fun c ⟨hc, hj⟩ => ⟨List.mem_cons_of_mem d hc, hj⟩
      · exact (ih h).imp fun c ⟨hc, hj⟩ => ⟨List.mem_cons_of_mem d hc, hj⟩
      · next hd =>
          cases h
          exact ⟨d, List.mem_cons_self, hd⟩

/-- Where the survey finds no source, a visit does nothing before it ends. -/
theorem run_visit_of_survey_nil (f : Path → Script α) {s : Store} {cs : List Candidate}
    (h : (survey s cs).1 = []) :
    (visit f cs).run s = ⟨conclude (survey s cs).2 [], s, []⟩ := by
  induction cs with
  | nil => rfl
  | cons d cs ih =>
      rw [run_visit_cons]
      rw [survey] at h ⊢
      match hd : judge s d with
      | .ok true =>
          rw [hd] at h
          cases h
      | .ok false =>
          rw [hd] at h
          exact ih h
      | .error e => rfl

/-- Where entries are gone, a candidate is judged as before or turned down. -/
theorem judge_within {s t : Store} (h : Store.Within t s) (c : Candidate) :
    judge t c = judge s c ∨ judge t c = .ok false := by
  unfold judge
  cases c.kind with
  | file => exact .inl rfl
  | directory => exact .inl rfl
  | link =>
      rcases h.kindAt c.path with hk | hk
      · exact .inl (by rw [hk])
      · exact .inr (by rw [hk])

end Sources

end SdkGlue
