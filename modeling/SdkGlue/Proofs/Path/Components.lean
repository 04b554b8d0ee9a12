import SdkGlue.Path
import SdkGlue.Proofs.Store.Enter
import SdkGlue.Proofs.Text.Split

/-!
# Components of path texts

The text of a path is taken apart again when it is resolved.  For a path in
normal form its components are the parts, after some empty ones that its root
leaves; the last part stands alone at the end.
-/

namespace SdkGlue

namespace Store

theorem components_append_slash (front rest : String) :
    components (front ++ "/" ++ rest) = components front ++ components rest := by
  simp [components, Text.splitOn_append_cons]

theorem components_of_not_mem {name : String} (h : '/' ∉ name.toList) :
    components name = [name] := by
  simp [components, Text.splitOn_of_not_mem h]

@[simp] theorem components_empty : components "" = [""] := rfl

theorem mem_of_mem_components {path piece : String} {c : Char} (h : piece ∈ components path)
    (hc : c ∈ piece.toList) : c ∈ path.toList := by
  obtain ⟨q, hq, rfl⟩ := List.mem_map.mp h
  exact Text.mem_of_mem_splitOn hq (by simpa using hc)

theorem mem_components_of_mem {path : String} {c : Char} (h : c ∈ path.toList) :
    c = '/' ∨ ∃ piece ∈ components path, c ∈ piece.toList := by
  rcases Text.mem_splitOn_of_mem '/' h with rfl | ⟨piece, hpiece, hc⟩
  · exact .inl rfl
  · exact .inr ⟨String.ofList piece, List.mem_map_of_mem hpiece, by simpa using hc⟩

theorem not_mem_of_mem_components {path piece : String} (h : piece ∈ components path) :
    '/' ∉ piece.toList := by
  obtain ⟨q, hq, rfl⟩ := List.mem_map.mp h
  simpa using Text.not_mem_of_mem_splitOn hq

end Store

namespace Path

open Store (components isStep)

/-- The parts of a path are components that take a walk further. -/
def Normal (p : Path) : Prop := ∀ part ∈ p.parts, isStep part = true ∧ '/' ∉ part.toList

/-- The text in front of the last part. -/
def front (root : Root) (init : List String) : String :=
  root.text ++ String.join (init.map (· ++ "/"))

/-- The empty components that a root leaves. -/
def Root.pieces : Root → List String
  | .relative => []
  | .slash => [""]
  | .doubleSlash => ["", ""]

theorem isPart_eq (piece : List Char) : isPart piece = isStep (String.ofList piece) := by
  have hdot : String.ofList piece = "." ↔ piece = ['.'] := by
    rw [← String.toList_inj]; simp
  by_cases h : piece = [] <;> by_cases h' : piece = ['.'] <;>
    simp [isPart, isStep, h, h', hdot]

theorem parts_ofString (s : String) : (ofString s).parts = (components s).filter isStep := by
  simp only [ofString, components, List.filter_map]
  congr 1
  exact List.filter_congr fun piece _ => isPart_eq piece

theorem normal_ofString (s : String) : (ofString s).Normal := by
  intro part hpart
  rw [parts_ofString, List.mem_filter] at hpart
  exact ⟨hpart.2, Store.not_mem_of_mem_components hpart.1⟩

theorem Normal.join {p q : Path} (hp : p.Normal) (hq : q.Normal) : (p.join q).Normal := by
  intro part hpart
  unfold Path.join at hpart
  split at hpart
  · rcases List.mem_append.mp hpart with h | h
    · exact hp part h
    · exact hq part h
  · exact hq part hpart

theorem parts_eq_append_name {p : Path} (h : p.parts ≠ []) :
    p.parts = p.parts.dropLast ++ [p.name] := by
  rw [name, List.getLast?_eq_some_getLast h, Option.getD_some, List.dropLast_concat_getLast h]

theorem Normal.name {p : Path} (hp : p.Normal) (h : p.parts ≠ []) :
    isStep p.name = true ∧ '/' ∉ p.name.toList := by
  apply hp
  rw [parts_eq_append_name h]
  simp

theorem intercalate_append_singleton (init : List String) (name : String) :
    "/".intercalate (init ++ [name]) = String.join (init.map (· ++ "/")) ++ name := by
  induction init with
  | nil => simp
  | cons part init ih =>
      rw [List.cons_append, String.intercalate_cons_of_ne_nil (by simp), ih]
      simp [String.append_assoc]

theorem text_eq_front {p : Path} {init : List String} {name : String}
    (h : p.parts = init ++ [name]) : p.text = front p.root init ++ name := by
  simp [text, h, intercalate_append_singleton, front, String.append_assoc]

theorem Normal.text_ne_empty {p : Path} (hp : p.Normal) : p.text ≠ "" := by
  by_cases hne : p.parts = []
  · cases hroot : p.root <;> simp [text, hroot, hne, Root.text]
  · rw [text_eq_front (parts_eq_append_name hne)]
    intro hempty
    have hname : p.name = "" := (by simpa using congrArg String.toList hempty : _ ∧ _).2
    simpa [hname, isStep] using (hp.name hne).1

theorem components_front (root : Root) {init : List String} {name : String}
    (hinit : ∀ part ∈ init, '/' ∉ part.toList) (hname : '/' ∉ name.toList) :
    components (front root init ++ name) = root.pieces ++ init ++ [name] := by
  have hrest : components (String.join (init.map (· ++ "/")) ++ name) = init ++ [name] := by
    induction init with
    | nil => simpa using Store.components_of_not_mem hname
    | cons part init ih =>
        have hpart := Store.components_of_not_mem (hinit part List.mem_cons_self)
        have ih := ih fun q hq => hinit q (List.mem_cons_of_mem part hq)
        rw [List.map_cons, String.join_cons, String.append_assoc, Store.components_append_slash,
          ih, hpart]
        rfl
  cases root with
  | relative => simpa [front, Root.text, Root.pieces] using hrest
  | slash =>
      have h := Store.components_append_slash "" (String.join (init.map (· ++ "/")) ++ name)
      simpa [front, Root.text, Root.pieces, hrest, String.append_assoc] using h
  | doubleSlash =>
      have h := Store.components_append_slash "/" (String.join (init.map (· ++ "/")) ++ name)
      have h₂ : components "/" = ["", ""] := by decide
      simpa [front, Root.text, Root.pieces, hrest, h₂, String.append_assoc] using h

theorem components_text {p : Path} (hp : p.Normal) (h : p.parts ≠ []) :
    components p.text = p.root.pieces ++ p.parts.dropLast ++ [p.name] := by
  rw [text_eq_front (parts_eq_append_name h)]
  refine components_front p.root (fun part hpart => ?_) (hp.name h).2
  exact (hp part (List.dropLast_subset _ hpart)).2

theorem rootOf_append (root : Root) {rest : List Char} (h : rest.head? ≠ some '/') :
    rootOf (root.text.toList ++ rest) = root := by
  match rest with
  | [] => cases root <;> rfl
  | c :: rest =>
      have hc : c ≠ '/' := by simpa using h
      cases root <;> simp [Root.text, rootOf, hc]

theorem rootOf_text {p : Path} (hp : p.Normal) : rootOf p.text.toList = p.root := by
  unfold text
  split
  · next hdot =>
      rw [hdot.1]
      rfl
  · rw [String.toList_append]
    apply rootOf_append
    match hparts : p.parts with
    | [] => simp
    | part :: parts =>
        obtain ⟨hstep, hsep⟩ := hp part (by simp [hparts])
        have hne : part.toList ≠ [] := by
          intro h
          simp [isStep, String.toList_eq_nil_iff.mp h] at hstep
        obtain ⟨c, cs, hc⟩ := List.exists_cons_of_ne_nil hne
        have hslash : c ≠ '/' := by
          rintro rfl
          exact hsep (by simp [hc])
        by_cases hlast : parts = []
        · simp [hlast, hc, hslash]
        · simp [String.intercalate_cons_of_ne_nil hlast, hc, hslash]

/-- Reading the text of a path in normal form gives the path back. -/
theorem ofString_text {p : Path} (hp : p.Normal) : ofString p.text = p := by
  have hroot : (ofString p.text).root = p.root := rootOf_text hp
  have hparts : (ofString p.text).parts = p.parts := by
    rw [parts_ofString]
    by_cases hne : p.parts = []
    · cases hr : p.root <;> simp [text, hr, hne, Root.text] <;> decide
    · have hpieces : p.root.pieces.filter isStep = [] := by cases p.root <;> rfl
      have hkept : p.parts.filter isStep = p.parts :=
        List.filter_eq_self.mpr fun part hpart => (hp part hpart).1
      rw [components_text hp hne, List.append_assoc, ← parts_eq_append_name hne,
        List.filter_append, hpieces, hkept, List.nil_append]
  cases hq : ofString p.text
  rw [hq] at hroot hparts
  cases p
  cases hroot
  cases hparts
  rfl

/-- A text without slashes is the text of its path, unless it is blank as one. -/
theorem text_ofString_of_not_mem {s : String} (hslash : '/' ∉ s.toList)
    (hstep : isStep s = true) : (ofString s).text = s := by
  have hroot : (ofString s).root = .relative := by
    simp only [ofString, rootOf]
    split <;> simp_all
  have hparts : (ofString s).parts = [s] := by
    rw [parts_ofString, Store.components_of_not_mem hslash, List.filter_cons_of_pos hstep,
      List.filter_nil]
  simp [text, hroot, hparts, Root.text]

/-- A character of a path's text is a slash, the dot of the empty path, or a
character of a part. -/
theorem mem_text {p : Path} {c : Char} (h : c ∈ p.text.toList) :
    c = '/' ∨ c = '.' ∨ ∃ part ∈ p.parts, c ∈ part.toList := by
  unfold text at h
  split at h
  · exact .inr (.inl (by simpa using h))
  · rw [String.toList_append, List.mem_append] at h
    rcases h with h | h
    · exact .inl (by cases hr : p.root <;> simp_all [Root.text])
    · exact (Text.mem_intercalate h).imp (by simp) .inr

end Path

end SdkGlue
