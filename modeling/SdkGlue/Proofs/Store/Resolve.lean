import SdkGlue.Proofs.Path.Components
import SdkGlue.Proofs.Store.Access

/-!
# Resolving path texts

A path in normal form resolves in two steps: its directory is entered, and its
name is looked at there.  A text that names a directory may be spelled in any
way; what counts is the directory that its components lead to.
-/

namespace SdkGlue.Store

variable {s t : Store} {aim : Aim} {k : Nat} {dir : Location} {p : Path} {path : String}

theorem rootOf_eq_relative_iff (l : List Char) :
    Path.rootOf l = .relative ↔ l.head? ≠ some '/' := by
  match l with
  | [] => simp [Path.rootOf]
  | c :: l =>
      by_cases hc : c = '/'
      · subst hc
        unfold Path.rootOf
        split <;> simp_all
      · simp [Path.rootOf, hc]

theorem startOf_eq (path : String) (dir : Location) :
    startOf path dir = if (Path.ofString path).root = .relative then dir else [] := by
  simp only [startOf, Path.ofString, rootOf_eq_relative_iff, ite_not]

theorem startOf_text (hp : p.Normal) (dir : Location) :
    startOf p.text dir = if p.root = .relative then dir else [] := by
  rw [startOf_eq, Path.ofString_text hp]

/-- The location from which a path starts. -/
def base (s : Store) (p : Path) : Location := if p.root = .relative then s.cwd else []

/-- The directory that holds the last part of a path, with the links left. -/
def parent (s : Store) (p : Path) : Except Cause (Nat × Location) :=
  s.enter maxLinks (s.base p) p.parts.dropLast

theorem enter_pieces (s : Store) (n : Nat) (loc : Location) (root : Path.Root)
    (rest : List String) : s.enter n loc (root.pieces ++ rest) = s.enter n loc rest := by
  cases root <;> simp [Path.Root.pieces, enter_stay]

/-- A path without slashes that is longer than a name may be leads nowhere. -/
theorem resolve_of_long (hslash : '/' ∉ path.toList) (hlong : maxName < path.utf8ByteSize) :
    s.resolve aim path = .error .nameTooLong := by
  have hplain : IsPlain path := by
    refine ⟨?_, ?_, ?_⟩ <;>
      · rintro rfl
        exact absurd hlong (by decide)
  rw [resolve, if_neg hplain.1]
  split
  · rfl
  · rw [components_of_not_mem hslash, walk_long hplain hlong (Aim.refuses_nil aim)]

theorem resolve_text (s : Store) (aim : Aim) (hp : p.Normal) (h : p.parts ≠ []) :
    s.resolve aim p.text =
      if maxPath ≤ p.text.utf8ByteSize then .error .nameTooLong
      else (s.parent p).bind fun r => s.walk aim r.1 r.2 [p.name] := by
  have hname : p.name ≠ "" := by
    intro hn
    simpa [hn, isStep] using (hp.name h).1
  rw [resolve, if_neg hp.text_ne_empty, Path.components_text hp h, startOf_text hp,
    walk_append s aim _ _ _ (by simp [hname]), enter_pieces]
  rfl

/-- A path in normal form that names a place in a directory. -/
structure Names (s : Store) (p : Path) (k : Nat) (dir : Location) : Prop where
  normal : p.Normal
  ne_nil : p.parts ≠ []
  short : p.text.utf8ByteSize < maxPath
  parent : s.parent p = .ok (k, dir)
  plain : IsPlain p.name
  name_short : p.name.utf8ByteSize ≤ maxName

namespace Names

theorem resolve (h : s.Names p k dir) (aim : Aim) :
    s.resolve aim p.text = s.walk aim k dir [p.name] := by
  rw [resolve_text s aim h.normal h.ne_nil, if_neg (Nat.not_le.mpr h.short), h.parent]
  rfl

/-- What the path names itself, a link at its end not followed. -/
theorem resolve_entry (h : s.Names p k dir) :
    s.resolve .entry p.text =
      match s.find? (p.name :: dir) with
      | none => .ok (.vacant dir p.name)
      | some e => .ok (.entry (p.name :: dir) e) := by
  rw [h.resolve, walk_plain h.plain h.name_short (Aim.refuses_nil _)]
  match s.find? (p.name :: dir) with
  | none => rfl
  | some .directory => simp
  | some (.file bytes) => rfl
  | some (.link target) => rfl

theorem entryAt?_eq (h : s.Names p k dir) :
    s.entryAt? p.text = (s.find? (p.name :: dir)).map (p.name :: dir, ·) := by
  rw [entryAt?, h.resolve_entry]
  cases s.find? (p.name :: dir) <;> rfl

/-- The path names the same place where all ways are kept. -/
theorem of_keepsWays (h : s.Names p k dir) (hk : KeepsWays s t) (hcwd : t.cwd = s.cwd) :
    t.Names p k dir where
  normal := h.normal
  ne_nil := h.ne_nil
  short := h.short
  parent := by
    have hparent := h.parent
    unfold Store.parent base at hparent ⊢
    rw [hcwd]
    exact hk.enter hparent
  plain := h.plain
  name_short := h.name_short

end Names

/-- A path without parts leads to a directory. -/
theorem resolve_of_parts_eq_nil (s : Store) (aim : Aim) (h : p.parts = []) :
    ∃ dir, s.resolve aim p.text = .ok (.entry dir .directory) := by
  cases hroot : p.root with
  | relative => exact ⟨s.cwd, by simp [Path.text, hroot, h]; cases aim <;> rfl⟩
  | slash => exact ⟨[], by simp [Path.text, hroot, h]; cases aim <;> rfl⟩
  | doubleSlash => exact ⟨[], by simp [Path.text, hroot, h]; cases aim <;> rfl⟩

/-- Where the directory is there, a path that does not name a directory has a place. -/
theorem names_of_parent (hp : p.Normal) (hne : p.parts ≠ [])
    (hshort : p.text.utf8ByteSize < maxPath) (hname : p.name.utf8ByteSize ≤ maxName)
    (hparent : s.parent p = .ok (k, dir))
    (h : ∀ loc, s.entryAt? p.text ≠ some (loc, .directory)) : s.Names p k dir := by
  have hstep : p.name ≠ "" ∧ p.name ≠ "." := by simpa [isStep] using (hp.name hne).1
  have hup : p.name ≠ ".." := by
    intro hup
    have hr : s.resolve .entry p.text = .ok (.entry dir.tail .directory) := by
      rw [resolve_text s .entry hp hne, if_neg (Nat.not_le.mpr hshort), hparent, hup]
      simp only [Except.bind, walk_up, walk_nil]
    exact h dir.tail (entryAt?_eq_some_iff.mpr hr)
  exact ⟨hp, hne, hshort, hparent, ⟨hstep.1, hstep.2, hup⟩, hname⟩

/-- A path that resolves has a place, unless its last part goes up. -/
theorem names_of_resolve {place : Place} (hp : p.Normal) (hne : p.parts ≠ [])
    (hplain : IsPlain p.name) (h : s.resolve aim p.text = .ok place) :
    ∃ k dir, s.Names p k dir := by
  rw [resolve_text s aim hp hne] at h
  split at h
  · cases h
  · next hshort =>
      cases hparent : s.parent p with
      | error c =>
          rw [hparent] at h
          cases h
      | ok r =>
          have hname : p.name.utf8ByteSize ≤ maxName := by
            apply Nat.le_of_not_lt
            intro hlong
            simp only [hparent, Except.bind, walk_long hplain hlong (Aim.refuses_nil _)] at h
            cases h
          exact ⟨r.1, r.2, hp, hne, Nat.lt_of_not_le hshort, hparent, hplain, hname⟩

/-- A text that opens a directory, with the links left after it. -/
structure Opens (s : Store) (path : String) (k : Nat) (dir : Location) : Prop where
  ne_empty : path ≠ ""
  short : path.utf8ByteSize < maxPath
  entered : s.enter maxLinks (startOf path s.cwd) (components path) = .ok (k, dir)

theorem Opens.of_keepsWays (h : s.Opens path k dir) (hk : KeepsWays s t) (hcwd : t.cwd = s.cwd) :
    t.Opens path k dir where
  ne_empty := h.ne_empty
  short := h.short
  entered := by
    rw [hcwd]
    exact hk.enter h.entered

theorem resolve_eq_directory_iff :
    s.resolve .target path = .ok (.entry dir .directory) ↔ ∃ k, s.Opens path k dir := by
  unfold resolve
  constructor
  · intro h
    split at h
    · cases h
    · next hne =>
        split at h
        · cases h
        · next hlen =>
            obtain ⟨k, hk⟩ := walk_target_directory_iff.mp h
            exact ⟨k, hne, Nat.lt_of_not_le hlen, hk⟩
  · rintro ⟨k, hne, hlen, hk⟩
    rw [if_neg hne, if_neg (Nat.not_le.mpr hlen)]
    exact walk_target_directory_iff.mpr ⟨k, hk⟩

end SdkGlue.Store
