import Mathlib.Data.List.Infix
import SdkGlue.Proofs.Store.Resolve

/-!
# Ways without links

The way to the end of a path is straight when no directory on it is a link.  It
then depends on directories alone, so what is removed elsewhere leaves it open,
also when a link was removed.
-/

namespace SdkGlue

open Store (maxPath)

namespace Path

/-- The path without its last part. -/
def parent (p : Path) : Path := ⟨p.root, p.parts.dropLast⟩

variable {p : Path}

theorem Normal.parent (hp : p.Normal) : p.parent.Normal :=
  fun part hpart => hp part (List.dropLast_subset _ hpart)

theorem utf8ByteSize_intercalate_le (init rest : List String) :
    ("/".intercalate init).utf8ByteSize ≤ ("/".intercalate (init ++ rest)).utf8ByteSize := by
  induction init with
  | nil => simp
  | cons part init ih =>
      by_cases hrest : init ++ rest = []
      · obtain ⟨rfl, rfl⟩ := List.append_eq_nil_iff.mp hrest
        simp
      · rw [List.cons_append, String.intercalate_cons_of_ne_nil hrest]
        by_cases hinit : init = []
        · subst hinit
          simp only [String.intercalate_singleton, String.utf8ByteSize_append]
          omega
        · rw [String.intercalate_cons_of_ne_nil hinit]
          simp only [String.utf8ByteSize_append]
          omega

/-- The beginning of a path is no longer than the path. -/
theorem utf8ByteSize_text_le (hp : p.Normal) (hne : p.parts ≠ []) {init : List String}
    (h : init <+: p.parts) :
    (Path.mk p.root init).text.utf8ByteSize ≤ p.text.utf8ByteSize := by
  obtain ⟨rest, hrest⟩ := h
  have htext : p.text = p.root.text ++ "/".intercalate p.parts := by
    rw [text, if_neg fun h => hne h.2]
  by_cases hdot : p.root = .relative ∧ init = []
  · have hname : p.name.utf8ByteSize ≠ 0 := by
      intro hzero
      have hstep := (hp.name hne).1
      rw [String.utf8ByteSize_eq_zero_iff.mp hzero] at hstep
      cases hstep
    have hlast := congrArg String.utf8ByteSize (text_eq_front (parts_eq_append_name hne))
    simp only [String.utf8ByteSize_append] at hlast
    have hone : (Path.mk p.root init).text.utf8ByteSize = 1 := by
      rw [text, if_pos hdot]
      rfl
    omega
  · have hinit : (Path.mk p.root init).text = p.root.text ++ "/".intercalate init := by
      rw [text, if_neg hdot]
    have hle := utf8ByteSize_intercalate_le init rest
    rw [htext, hinit, ← hrest]
    simp only [String.utf8ByteSize_append]
    omega

end Path

namespace Store

variable {s : Store} {p : Path} {path : String} {n k : Nat} {loc dir gone : Location}
  {front : List String} {r : Nat × Location}

/-- The kind of the entry that a path names; a link at its end is not followed. -/
def entryKind? (s : Store) (path : String) : Option Entry.Kind :=
  (s.entryAt? path).map fun e => e.2.kind

theorem Names.entryKind?_eq (h : s.Names p k dir) :
    s.entryKind? p.text = (s.find? (p.name :: dir)).map Entry.kind := by
  rw [entryKind?, h.entryAt?_eq]
  cases s.find? (p.name :: dir) <;> rfl

theorem Names.entryKind?_eq_directory_iff (h : s.Names p k dir) :
    s.entryKind? p.text = some .directory ↔ s.find? (p.name :: dir) = some .directory := by
  rw [h.entryKind?_eq]
  cases s.find? (p.name :: dir) with
  | none => simp
  | some e => cases e <;> simp [Entry.kind]

theorem Names.takesFile_iff (h : s.Names p k dir) :
    s.TakesFile (p.name :: dir) ↔
      s.entryKind? p.text ≠ some .directory ∧ s.entryKind? p.text ≠ some .link := by
  rw [h.entryKind?_eq, TakesFile]
  cases s.find? (p.name :: dir) with
  | none => simp
  | some e => cases e <;> simp [Entry.kind]

/-- No directory on the way to the end of the path is a link. -/
def Straight (s : Store) (p : Path) : Prop :=
  ∀ init, init <+: p.parts.dropLast → s.entryKind? (Path.mk p.root init).text ≠ some .link

instance (s : Store) (p : Path) : Decidable (s.Straight p) :=
  decidable_of_iff (∀ init ∈ p.parts.dropLast.inits,
    s.entryKind? (Path.mk p.root init).text ≠ some .link) (by simp [Straight, List.mem_inits])

/-- A walk that meets no link does not notice a removal, unless a directory is
gone. -/
theorem enter_remove (hgone : s.find? gone ≠ some .directory)
    (hstraight : ∀ init name rest k dir target, front = init ++ name :: rest → IsPlain name →
      name.utf8ByteSize ≤ maxName → s.enter n loc init = .ok (k, dir) →
        s.find? (name :: dir) ≠ some (.link target))
    (h : s.enter n loc front = .ok r) : (s.remove gone).enter n loc front = .ok r := by
  induction n, loc, front using walk_induction s with
  | nil n loc => simpa using h
  | stay n loc name front hs ih =>
      rw [enter_stay hs] at h ⊢
      refine ih (fun init name' rest k dir target hfront hp hl hi => ?_) h
      exact hstraight (name :: init) name' rest k dir target (by rw [hfront]; rfl) hp hl
        (by rw [enter_stay hs, hi])
  | up n loc front ih =>
      rw [enter_up] at h ⊢
      refine ih (fun init name' rest k dir target hfront hp hl hi => ?_) h
      exact hstraight (".." :: init) name' rest k dir target (by rw [hfront]; rfl) hp hl
        (by rw [enter_up, hi])
  | long n loc name front hp hl => simp [enter_long hp hl] at h
  | missing n loc name front hp hl hf => simp [enter_plain hp hl, hf] at h
  | file n loc name front bytes hp hl hf => simp [enter_plain hp hl, hf] at h
  | down n loc name front hp hl hf ih =>
      have hne : gone ≠ name :: loc := by
        rintro rfl
        exact hgone hf
      have hkept := (find?_remove_ne s hne).trans hf
      simp only [enter_plain hp hl, hf, hkept] at h ⊢
      refine ih (fun init name' rest k dir target hfront hp' hl' hi => ?_) h
      exact hstraight (name :: init) name' rest k dir target (by rw [hfront]; rfl) hp' hl'
        (by simp only [enter_plain hp hl, hf, hi])
  | loop loc name front target hp hl hf => simp [enter_plain hp hl, hf] at h
  | follow n loc name front target hp hl hf ih =>
      exact absurd hf (hstraight [] name front _ _ target rfl hp hl enter_nil)

/-- A straight way stays open when something else than a directory is removed. -/
theorem Straight.parent_remove (h : s.Straight p) (hp : p.Normal)
    (hshort : p.text.utf8ByteSize < maxPath) (hgone : s.find? gone ≠ some .directory)
    (hparent : s.parent p = .ok r) : (s.remove gone).parent p = .ok r := by
  refine enter_remove hgone ?_ hparent
  intro init name rest k dir target hfront hplain hlen henter hlink
  have hinit : init ++ [name] <+: p.parts.dropLast := ⟨rest, by simp [hfront]⟩
  have hnames : s.Names ⟨p.root, init ++ [name]⟩ k dir :=
    { normal := fun part hpart => hp part (List.dropLast_subset _ (List.IsPrefix.subset hinit hpart))
      ne_nil := by simp
      short := by
        have hne : p.parts ≠ [] := by
          intro hnil
          rw [hnil] at hfront
          simp at hfront
        refine Nat.lt_of_le_of_lt (Path.utf8ByteSize_text_le hp hne ?_) hshort
        exact hinit.trans (List.dropLast_prefix _)
      parent := by
        rw [parent, List.dropLast_concat]
        exact henter
      plain := by simpa [Path.name] using hplain
      name_short := by simpa [Path.name] using hlen }
  have hkind := hnames.entryKind?_eq
  simp only [Path.name, List.getLast?_concat, Option.getD_some, hlink, Option.map_some] at hkind
  exact h _ hinit hkind

/-- The text of a path without its last part opens the directory that holds it. -/
theorem resolve_parent_iff (hp : p.Normal) (hne : p.parts ≠ [])
    (hshort : p.text.utf8ByteSize < maxPath) :
    s.resolve .target p.parent.text = .ok (.entry dir .directory) ↔
      ∃ k, s.parent p = .ok (k, dir) := by
  have htext : p.parent.text.utf8ByteSize < maxPath :=
    Nat.lt_of_le_of_lt (Path.utf8ByteSize_text_le hp hne (List.dropLast_prefix _)) hshort
  have henter : s.enter maxLinks (startOf p.parent.text s.cwd) (components p.parent.text) =
      s.parent p := by
    rw [← enter_filter, ← Path.parts_ofString, Path.ofString_text hp.parent,
      startOf_text hp.parent]
    rfl
  rw [resolve_eq_directory_iff]
  constructor
  · rintro ⟨k, hopens⟩
    exact ⟨k, henter.symm.trans hopens.entered⟩
  · rintro ⟨k, hparent⟩
    exact ⟨k, hp.parent.text_ne_empty, htext, henter.trans hparent⟩

end Store

end SdkGlue
