import SdkGlue.Script

/-!
# Results and stores of scripts

The parts of a run that statements speak about: its result and the store it
leaves, through sequences of scripts and through requests about a path.
-/

namespace SdkGlue

namespace Script

variable {α β : Type} {x : Script α} {s : Store}

/-- Every run leaves a store that stands in the relation to the one before. -/
def Leaves (R : Store → Store → Prop) (x : Script α) : Prop := ∀ s, R (x.run s).store s

/-- The script leaves every store as it is. -/
abbrev ReadOnly (x : Script α) : Prop := x.Leaves Eq

theorem readOnly_pure (a : α) : (pure a : Script α).ReadOnly := fun _ => rfl

theorem readOnly_report (n : Note) : (report n).ReadOnly := fun _ => rfl

theorem ReadOnly.leaves {R : Store → Store → Prop} (hrefl : ∀ s, R s s) (hx : x.ReadOnly) :
    x.Leaves R := by
  intro s
  rw [hx s]
  exact hrefl s

theorem Leaves.bind {R : Store → Store → Prop} (htrans : ∀ s t u, R t s → R u t → R u s)
    {f : α → Script β} (hx : x.Leaves R) (hf : ∀ a, (f a).Leaves R) : (x >>= f).Leaves R := by
  intro s
  rw [run_bind, Outcome.andThen]
  split
  · exact hx s
  · next a _ => exact htrans _ _ _ (hx s) (hf a _)

theorem ReadOnly.bind {f : α → Script β} (hx : x.ReadOnly) (hf : ∀ a, (f a).ReadOnly) :
    (x >>= f).ReadOnly :=
  Leaves.bind (fun _ _ _ h h' => h'.trans h) hx hf

/-- A script that goes on has the result of its second part, on the store that
the first part left. -/
theorem result_bind (f : α → Script β) (s : Store) :
    ((x >>= f).run s).result =
      (x.run s).result >>= fun a => ((f a).run (x.run s).store).result := by
  rw [run_bind, Outcome.andThen]
  split <;> simp_all [Bind.bind, Except.bind]

theorem result_bind_pure (f : α → β) (s : Store) :
    ((x >>= fun a => pure (f a)).run s).result = (x.run s).result.map f := by
  rw [result_bind]
  cases (x.run s).result <;> rfl

theorem store_bind (f : α → Script β) (s : Store) :
    ((x >>= f).run s).store =
      match (x.run s).result with
      | .ok a => ((f a).run (x.run s).store).store
      | .error _ => (x.run s).store := by
  rw [run_bind, Outcome.andThen]
  split <;> simp_all

@[simp] theorem result_report_bind (n : Note) (x : Script α) (s : Store) :
    ((report n >>= fun _ => x).run s).result = (x.run s).result := rfl

@[simp] theorem store_report_bind (n : Note) (x : Script α) (s : Store) :
    ((report n >>= fun _ => x).run s).store = (x.run s).store := rfl

@[simp] theorem run_ofExcept (r : Except Fault α) (s : Store) :
    (ofExcept r).run s = ⟨r, s, []⟩ := rfl

theorem store_onFault (x : Script α) (cleanup : Script Unit) (s : Store) :
    ((x.onFault cleanup).run s).store =
      match (x.run s).result with
      | .ok _ => (x.run s).store
      | .error _ => (cleanup.run (x.run s).store).store := by
  unfold onFault
  rw [store_bind, run_attempt]
  cases (x.run s).result with
  | ok a => rfl
  | error e =>
      change ((cleanup >>= fun _ => fail e : Script α).run (x.run s).store).store = _
      rw [store_bind]
      cases (cleanup.run (x.run s).store).result <;> rfl

/-- A script with a cleanup succeeds exactly when it does without. -/
theorem result_onFault_eq_ok_iff {cleanup : Script Unit} {a : α} :
    ((x.onFault cleanup).run s).result = .ok a ↔ (x.run s).result = .ok a := by
  unfold onFault
  rw [result_bind, run_attempt]
  cases (x.run s).result with
  | ok b => rfl
  | error e =>
      change ((cleanup >>= fun _ => fail e : Script α).run (x.run s).store).result = _ ↔ _
      rw [result_bind]
      cases (cleanup.run (x.run s).store).result with
      | ok u => exact ⟨nofun, nofun⟩
      | error e' => exact ⟨nofun, nofun⟩

/-! ## Requests about a path -/

@[simp]
theorem mapError_ok {ε ε' α : Type} (f : ε → ε') (a : α) :
    (Except.ok a : Except ε α).mapError f = .ok a := rfl

@[simp]
theorem mapError_error {ε ε' α : Type} (f : ε → ε') (e : ε) :
    (Except.error e : Except ε α).mapError f = .error (f e) := rfl

theorem run_call (path : String) (q : Request) (s : Store) :
    (call path q).run s =
      if hasNul path then ⟨.error .nulInPath, s, []⟩
      else ⟨(q.run s).1.mapError (.system · path), (q.run s).2, []⟩ := by
  unfold call
  split
  · rfl
  · rw [run_ask]
    cases (q.run s).1 <;> rfl

theorem run_list (path : String) (s : Store) :
    (call path (.list path) : Script (List (String × Entry.Kind))).run s =
      if hasNul path then ⟨.error .nulInPath, s, []⟩
      else ⟨(s.list path).mapError (.system · path), s, []⟩ :=
  run_call path (.list path) s

theorem run_read (path : String) (s : Store) :
    (call path (.read path) : Script (List UInt8)).run s =
      if hasNul path then ⟨.error .nulInPath, s, []⟩
      else ⟨(s.read path).mapError (.system · path), s, []⟩ :=
  run_call path (.read path) s

/-- A request that changes the store leaves it alone when it fails. -/
def changed (path : String) (s : Store) : Except Cause Store → Outcome Unit
  | .ok t => ⟨.ok (), t, []⟩
  | .error c => ⟨.error (.system c path), s, []⟩

theorem run_unlink (path : String) (s : Store) :
    (call path (.unlink path) : Script Unit).run s =
      if hasNul path then ⟨.error .nulInPath, s, []⟩ else changed path s (s.unlink path) := by
  apply (run_call path (.unlink path) s).trans
  congr 1
  simp only [Request.run]
  cases s.unlink path <;> rfl

theorem run_write (path : String) (bytes : List UInt8) (s : Store) :
    (call path (.write path bytes) : Script Unit).run s =
      if hasNul path then ⟨.error .nulInPath, s, []⟩
      else changed path s (s.write path bytes) := by
  apply (run_call path (.write path bytes) s).trans
  congr 1
  simp only [Request.run]
  cases s.write path bytes <;> rfl

theorem run_rename (source target : String) (s : Store) :
    (call source (.rename source target) : Script Unit).run s =
      if hasNul source then ⟨.error .nulInPath, s, []⟩
      else changed source s (s.rename source target) := by
  apply (run_call source (.rename source target) s).trans
  congr 1
  simp only [Request.run]
  cases s.rename source target <;> rfl

/-! ## Looking up a path -/

theorem readOnly_probe (path : String) : (probe path).ReadOnly := by
  intro s
  unfold probe
  split
  · rfl
  · rw [run_ask]
    simp only [Request.run]
    cases s.kindAt path with
    | ok kind => rfl
    | error cause => cases cause <;> rfl

/-- Only a path that is too long is not looked up. -/
theorem result_probe_cases (path : String) (s : Store) :
    (∃ kind, ((probe path).run s).result = .ok kind) ∨
      ((probe path).run s).result = .error (.system .nameTooLong path) := by
  unfold probe
  split
  · exact .inl ⟨none, rfl⟩
  · rw [run_ask]
    simp only [Request.run]
    cases s.kindAt path with
    | ok kind => exact .inl ⟨some kind, rfl⟩
    | error cause =>
        cases cause with
        | nameTooLong => exact .inr rfl
        | missing => exact .inl ⟨none, rfl⟩
        | notDirectory => exact .inl ⟨none, rfl⟩
        | isDirectory => exact .inl ⟨none, rfl⟩
        | linkLoop => exact .inl ⟨none, rfl⟩

theorem hasNul_of_probe {path : String} {kind : Entry.Kind}
    (h : ((probe path).run s).result = .ok (some kind)) : hasNul path = false := by
  cases hnul : hasNul path with
  | false => rfl
  | true =>
      rw [probe, if_pos hnul] at h
      cases h

theorem kindAt_of_probe {path : String} {kind : Entry.Kind}
    (h : ((probe path).run s).result = .ok (some kind)) : s.kindAt path = .ok kind := by
  rw [probe, if_neg (by simp [hasNul_of_probe h]), run_ask] at h
  simp only [Request.run] at h
  cases hkind : s.kindAt path with
  | ok k =>
      rw [hkind] at h
      cases h
      rfl
  | error cause =>
      rw [hkind] at h
      cases cause <;> cases h

end Script

end SdkGlue
