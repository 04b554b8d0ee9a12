import SdkGlue.Proofs.Store.Change

/-!
# What the operations do

Each operation resolves its paths; what it answers depends on the places found.
A written file takes the place of a file or of nothing, so that the ways through
the store stay as they are.
-/

namespace SdkGlue.Store

variable {s t : Store} {path : String}

theorem walk_of_resolve {aim : Aim} {place : Place} (h : s.resolve aim path = .ok place) :
    s.walk aim maxLinks (startOf path s.cwd) (components path) = .ok place := by
  unfold resolve at h
  split at h
  · cases h
  · split at h
    · cases h
    · exact h

theorem short_of_kindAt {kind : Entry.Kind} (h : s.kindAt path = .ok kind) :
    path.utf8ByteSize < maxPath := by
  by_cases hlen : maxPath ≤ path.utf8ByteSize
  · have hempty : path ≠ "" := by
      rintro rfl
      simp [maxPath] at hlen
    simp [kindAt, resolve, hempty, hlen, Bind.bind, Except.bind] at h
  · exact Nat.lt_of_not_le hlen

theorem kindAt_eq_ok_iff {kind : Entry.Kind} :
    s.kindAt path = .ok kind ↔
      ∃ loc e, s.resolve .target path = .ok (.entry loc e) ∧ e.kind = kind := by
  unfold kindAt
  match s.resolve .target path with
  | .error c => simp [Bind.bind, Except.bind]
  | .ok (.vacant dir name) =>
      simp [Bind.bind, Except.bind, throw, throwThe, MonadExceptOf.throw]
  | .ok (.entry loc e) =>
      simp only [Bind.bind, Except.bind, Pure.pure, Except.pure, Except.ok.injEq,
        Place.entry.injEq]
      constructor
      · intro hkind
        exact ⟨loc, e, ⟨rfl, rfl⟩, hkind⟩
      · rintro ⟨_, _, ⟨rfl, rfl⟩, hkind⟩
        exact hkind

theorem kindAt_eq_file_iff :
    s.kindAt path = .ok .file ↔
      ∃ loc bytes, s.resolve .target path = .ok (.entry loc (.file bytes)) := by
  rw [kindAt_eq_ok_iff]
  constructor
  · rintro ⟨loc, e, hr, hkind⟩
    cases e <;> cases hkind
    exact ⟨loc, _, hr⟩
  · rintro ⟨loc, bytes, hr⟩
    exact ⟨loc, .file bytes, hr, rfl⟩

theorem kindAt_eq_directory_iff :
    s.kindAt path = .ok .directory ↔
      ∃ dir, s.resolve .target path = .ok (.entry dir .directory) := by
  rw [kindAt_eq_ok_iff]
  constructor
  · rintro ⟨dir, e, hr, hkind⟩
    cases e <;> cases hkind
    exact ⟨dir, hr⟩
  · rintro ⟨dir, hr⟩
    exact ⟨dir, .directory, hr, rfl⟩

theorem list_eq_ok_iff {entries : List (String × Entry.Kind)} :
    s.list path = .ok entries ↔
      ∃ dir, s.resolve .target path = .ok (.entry dir .directory) ∧ s.children dir = entries := by
  unfold list
  match s.resolve .target path with
  | .error c => simp [Bind.bind, Except.bind]
  | .ok (.vacant dir name) =>
      simp [Bind.bind, Except.bind, throw, throwThe, MonadExceptOf.throw]
  | .ok (.entry loc (.file bytes)) =>
      simp [Bind.bind, Except.bind, throw, throwThe, MonadExceptOf.throw]
  | .ok (.entry loc (.link target)) =>
      simp [Bind.bind, Except.bind, throw, throwThe, MonadExceptOf.throw]
  | .ok (.entry loc .directory) =>
      simp [Bind.bind, Except.bind, Pure.pure, Except.pure]

theorem read_eq_ok_iff {bytes : List UInt8} :
    s.read path = .ok bytes ↔
      ∃ loc, s.resolve .target path = .ok (.entry loc (.file bytes)) := by
  unfold read
  match s.resolve .target path with
  | .error c => simp [Bind.bind, Except.bind]
  | .ok (.vacant dir name) =>
      simp [Bind.bind, Except.bind, throw, throwThe, MonadExceptOf.throw]
  | .ok (.entry loc (.file bytes)) =>
      simp [Bind.bind, Except.bind, Pure.pure, Except.pure]
  | .ok (.entry loc (.link target)) =>
      simp [Bind.bind, Except.bind, throw, throwThe, MonadExceptOf.throw]
  | .ok (.entry loc .directory) =>
      simp [Bind.bind, Except.bind, throw, throwThe, MonadExceptOf.throw]

theorem unlink_eq_ok_iff :
    s.unlink path = .ok t ↔
      ∃ loc e, s.resolve .entry path = .ok (.entry loc e) ∧ e ≠ .directory ∧ s.remove loc = t := by
  unfold unlink
  match s.resolve .entry path with
  | .error c => simp [Bind.bind, Except.bind]
  | .ok (.vacant dir name) =>
      simp [Bind.bind, Except.bind, throw, throwThe, MonadExceptOf.throw]
  | .ok (.entry loc (.file bytes)) =>
      constructor
      · intro h
        exact ⟨loc, .file bytes, rfl, by simp, Except.ok.inj h⟩
      · rintro ⟨_, _, ⟨⟩, -, rfl⟩
        rfl
  | .ok (.entry loc (.link target)) =>
      constructor
      · intro h
        exact ⟨loc, .link target, rfl, by simp, Except.ok.inj h⟩
      · rintro ⟨_, _, ⟨⟩, -, rfl⟩
        rfl
  | .ok (.entry loc .directory) =>
      simp [Bind.bind, Except.bind, throw, throwThe, MonadExceptOf.throw]

/-! ## The entry that a path names -/

/-- The entry that a path names, and where it stands; a link at the end of the
path is not followed. -/
def entryAt? (s : Store) (path : String) : Option (Location × Entry) :=
  match s.resolve .entry path with
  | .ok (.entry loc e) => some (loc, e)
  | _ => none

theorem entryAt?_eq_some_iff {loc : Location} {e : Entry} :
    s.entryAt? path = some (loc, e) ↔ s.resolve .entry path = .ok (.entry loc e) := by
  unfold entryAt?
  match s.resolve .entry path with
  | .error c => simp
  | .ok (.vacant dir name) => simp
  | .ok (.entry loc e) => simp

/-- Where nothing but removals happened, a path names the same entry or none. -/
theorem Within.entryAt? (hw : Within t s) (path : String) :
    t.entryAt? path = s.entryAt? path ∨ t.entryAt? path = none := by
  rcases hw.resolve (by simp : Aim.entry ≠ .writing) path with h | h | ⟨dir, name, h⟩
  · exact .inl (by rw [Store.entryAt?, Store.entryAt?, h])
  · exact .inr (by rw [Store.entryAt?, h])
  · exact .inr (by rw [Store.entryAt?, h])

/-- An entry that was removed is not named any more. -/
theorem entryAt?_of_unlink (h : s.unlink path = .ok t) : t.entryAt? path = none := by
  obtain ⟨loc, e, hr, he, rfl⟩ := unlink_eq_ok_iff.mp h
  rcases (Within.remove s loc).entryAt? path with hsame | hnone
  · exfalso
    rw [entryAt?_eq_some_iff.mpr hr, entryAt?_eq_some_iff] at hsame
    have hfind := find?_of_walk (walk_of_resolve hsame) he
    cases loc with
    | nil =>
        rw [find?_root, Option.some.injEq] at hfind
        exact he hfind.symm
    | cons name dir => simp at hfind
  · exact hnone

theorem unlink_eq_missing (h : s.unlink path = .error .missing) : s.entryAt? path = none := by
  unfold unlink at h
  unfold entryAt?
  match hr : s.resolve .entry path with
  | .error c => rfl
  | .ok (.vacant dir name) => rfl
  | .ok (.entry loc (.file bytes)) =>
      rw [hr] at h
      cases h
  | .ok (.entry loc (.link target)) =>
      rw [hr] at h
      cases h
  | .ok (.entry loc .directory) =>
      rw [hr] at h
      cases h

/-! ## Writing -/

/-- A file or nothing stands at the location. -/
def TakesFile (s : Store) (loc : Location) : Prop :=
  s.find? loc = none ∨ ∃ old, s.find? loc = some (.file old)

/-- A file can be written through the path, and goes to the location. -/
def Writable (s : Store) (path : String) (loc : Location) : Prop :=
  (∃ old, s.resolve .writing path = .ok (.entry loc (.file old))) ∨
    ∃ dir name, s.resolve .writing path = .ok (.vacant dir name) ∧ loc = name :: dir

theorem write_eq_ok_iff {bytes : List UInt8} :
    s.write path bytes = .ok t ↔ ∃ loc, s.Writable path loc ∧ s.set loc (.file bytes) = t := by
  unfold write Writable
  match s.resolve .writing path with
  | .error c => simp [Bind.bind, Except.bind]
  | .ok (.vacant dir name) =>
      constructor
      · intro h
        exact ⟨name :: dir, .inr ⟨dir, name, rfl, rfl⟩, Except.ok.inj h⟩
      · rintro ⟨_, ⟨_, ⟨⟩⟩ | ⟨_, _, ⟨⟩, rfl⟩, rfl⟩
        rfl
  | .ok (.entry loc (.file old)) => simp [Bind.bind, Except.bind, Pure.pure, Except.pure]
  | .ok (.entry loc (.link target)) =>
      simp [Bind.bind, Except.bind, throw, throwThe, MonadExceptOf.throw]
  | .ok (.entry loc .directory) =>
      simp [Bind.bind, Except.bind, throw, throwThe, MonadExceptOf.throw]

theorem Writable.takesFile {loc : Location} (h : s.Writable path loc) : s.TakesFile loc := by
  rcases h with ⟨old, hr⟩ | ⟨dir, name, hr, rfl⟩
  · exact .inr ⟨old, find?_of_walk (walk_of_resolve hr) (by simp)⟩
  · exact .inl (find?_of_walk_vacant (walk_of_resolve hr))

theorem TakesFile.ne_nil {loc : Location} (h : s.TakesFile loc) : loc ≠ [] := by
  rintro rfl
  rcases h with hnone | ⟨old, hfile⟩
  · cases hnone
  · cases hfile

theorem TakesFile.kind_eq {loc : Location} {e : Entry} (h : s.TakesFile loc)
    (he : s.find? loc = some e) : e.kind = .file := by
  rcases h with hnone | ⟨old, hfile⟩
  · rw [hnone] at he
    cases he
  · rw [hfile] at he
    cases he
    rfl

theorem find?_set (s : Store) {loc : Location} (hloc : loc ≠ []) (e : Entry) (l : Location) :
    (s.set loc e).find? l = if loc = l then some e else s.find? l := by
  obtain ⟨name, dir, rfl⟩ := List.exists_cons_of_ne_nil hloc
  exact find?_set_cons s name dir e l

theorem TakesFile.keepsWays_set {loc : Location} (h : s.TakesFile loc) (bytes : List UInt8) :
    KeepsWays s (s.set loc (.file bytes)) := by
  intro l e hl he
  have hne : loc ≠ l := by
    rintro rfl
    exact he (h.kind_eq hl)
  rw [find?_set s h.ne_nil, if_neg hne, hl]

theorem TakesFile.keepsWays_remove {loc : Location} (h : s.TakesFile loc) :
    KeepsWays s (s.remove loc) := by
  intro l e hl he
  have hne : loc ≠ l := by
    rintro rfl
    exact he (h.kind_eq hl)
  rw [find?_remove_ne s hne, hl]

/-! ## Moving -/

/-- The store with an entry moved to a place. -/
def moveTo (s : Store) (loc : Location) (e : Entry) : Place → Except Cause Store
  | .entry _ .directory => .error .isDirectory
  | .entry loc' _ => .ok (if loc = loc' then s else (s.remove loc).set loc' e)
  | .vacant dir name => .ok ((s.remove loc).set (name :: dir) e)

theorem rename_of_source {source target : String} {loc : Location} {e : Entry}
    (hsource : s.resolve .entry source = .ok (.entry loc e)) (he : e ≠ .directory) :
    s.rename source target = s.resolve .entry target >>= s.moveTo loc e := by
  unfold rename
  rw [hsource]
  cases e with
  | directory => exact absurd rfl he
  | file bytes => rfl
  | link target' => rfl

theorem rename_eq_ok_iff {source target : String} :
    s.rename source target = .ok t ↔
      ∃ loc e place, s.resolve .entry source = .ok (.entry loc e) ∧ e ≠ .directory ∧
        s.resolve .entry target = .ok place ∧ s.moveTo loc e place = .ok t := by
  constructor
  · intro h
    have hsource : ∃ loc e, s.resolve .entry source = .ok (.entry loc e) ∧ e ≠ .directory := by
      unfold rename at h
      match hr : s.resolve .entry source with
      | .error c =>
          rw [hr] at h
          cases h
      | .ok (.vacant dir name) =>
          rw [hr] at h
          cases h
      | .ok (.entry loc .directory) =>
          rw [hr] at h
          cases h
      | .ok (.entry loc (.file bytes)) => exact ⟨loc, .file bytes, rfl, by simp⟩
      | .ok (.entry loc (.link target')) => exact ⟨loc, .link target', rfl, by simp⟩
    obtain ⟨loc, e, hsource, he⟩ := hsource
    rw [rename_of_source hsource he] at h
    cases htarget : s.resolve .entry target with
    | error c =>
        rw [htarget] at h
        cases h
    | ok place =>
        rw [htarget] at h
        exact ⟨loc, e, place, hsource, he, rfl, h⟩
  · rintro ⟨loc, e, place, hsource, he, htarget, hmove⟩
    rw [rename_of_source hsource he, htarget]
    exact hmove

end SdkGlue.Store
