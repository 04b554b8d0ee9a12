import SdkGlue.Layout
import SdkGlue.Proofs.Path.Components

/-!
# Where a layout puts things

A path text is made of pieces between slashes.  A path keeps the pieces that are
neither empty nor `.`, and of the slashes in front what tells one kind of root from
another.  What a layout says is put behind the project, unless it begins with a
slash: then the project makes no difference.
-/

namespace SdkGlue

namespace Path

variable {s : String} {pieces : List String}

/-! ## Pieces -/

/-- A text cut at all its slashes. -/
structure CutsInto (s : String) (pieces : List String) : Prop where
  ne_nil : pieces ≠ []
  joined : "/".intercalate pieces = s
  not_mem : ∀ piece ∈ pieces, '/' ∉ piece.toList

theorem cutsInto_components (s : String) : CutsInto s (Store.components s) where
  ne_nil := by simpa [Store.components] using Text.splitOn_ne_nil '/' s.toList
  joined := by
    rw [← String.toList_inj, String.toList_intercalate, Store.components, List.map_map]
    simpa using Text.intercalate_splitOn '/' s.toList
  not_mem := fun _ => Store.not_mem_of_mem_components

/-- There is one way to cut a text. -/
theorem CutsInto.eq_components (h : CutsInto s pieces) : pieces = Store.components s := by
  obtain ⟨init, name, rfl⟩ : ∃ init name, pieces = init ++ [name] :=
    ⟨_, _, (List.dropLast_concat_getLast h.ne_nil).symm⟩
  have hinit : ∀ piece ∈ init, '/' ∉ piece.toList := fun piece hpiece =>
    h.not_mem piece (List.mem_append_left _ hpiece)
  have htext : front .relative init ++ name = s := by
    rw [← h.joined, intercalate_append_singleton]
    simp [front, Root.text]
  rw [← htext, components_front .relative hinit (h.not_mem name (by simp))]
  rfl

/-- The pieces that a path keeps; `..` is one of them. -/
def steps (pieces : List String) : List String :=
  pieces.filter fun piece => piece ≠ "" ∧ piece ≠ "."

theorem CutsInto.parts_ofString (h : CutsInto s pieces) : (ofString s).parts = steps pieces := by
  rw [Path.parts_ofString, ← h.eq_components, steps]
  apply List.filter_congr
  intro piece _
  simp [Store.isStep]

/-! ## Slashes in front -/

def slashes (s : String) : Nat := (s.toList.takeWhile (· = '/')).length

/-- Two slashes in front stay two; otherwise they come to one, where there are any. -/
def keptSlashes : Nat → Nat
  | 0 => 0
  | 2 => 2
  | _ => 1

def Root.slashes : Root → Nat
  | .relative => 0
  | .slash => 1
  | .doubleSlash => 2

theorem slashes_rootOf (l : List Char) :
    (rootOf l).slashes = keptSlashes (l.takeWhile (· = '/')).length := by
  -- the third slash decides, and none behind it counts
  match l with
  | [] => rfl
  | [c] => by_cases hc : c = '/' <;> simp [rootOf, hc, Root.slashes, keptSlashes]
  | c :: d :: l =>
      by_cases hc : c = '/'
      · by_cases hd : d = '/'
        · cases l with
          | nil => simp [rootOf, hc, hd, Root.slashes, keptSlashes]
          | cons e l =>
              by_cases he : e = '/' <;> simp [rootOf, hc, hd, he, Root.slashes, keptSlashes]
        · simp [rootOf, hc, hd, Root.slashes, keptSlashes]
      · simp [rootOf, hc, Root.slashes, keptSlashes]

theorem keptSlashes_eq_zero_iff {n : Nat} : keptSlashes n = 0 ↔ n = 0 := by
  unfold keptSlashes
  split <;> simp_all

theorem root_ofString_eq_relative_iff : (ofString s).root = .relative ↔ slashes s = 0 := by
  have hzero : ∀ root : Root, root = .relative ↔ root.slashes = 0 := by
    rintro (_ | _ | _) <;> simp [Root.slashes]
  rw [hzero, ofString, slashes_rootOf, keptSlashes_eq_zero_iff]
  rfl

/-- The text of a path with so many slashes in front of its parts. -/
def spelled (slashes : Nat) (parts : List String) : String :=
  if slashes = 0 ∧ parts = [] then "."
  else String.ofList (List.replicate slashes '/') ++ "/".intercalate parts

theorem text_eq_spelled {r : Path} (h : r.root = (ofString s).root) :
    r.text = spelled (keptSlashes (slashes s)) r.parts := by
  have hkept : keptSlashes (slashes s) = r.root.slashes := by
    rw [h, ofString, slashes_rootOf, slashes]
  rw [hkept]
  obtain ⟨root, parts⟩ := r
  cases root <;> simp [text, spelled, Root.text, Root.slashes]

end Path

namespace Layout

open SdkGlue.Path (CutsInto keptSlashes slashes spelled steps)

/-- The path `r` is where the text `c` points from the project at the text `p`. -/
structure PointsTo (p c : String) (r : Path) : Prop where
  relative : slashes c = 0 → ∃ ps cs, CutsInto p ps ∧ CutsInto c cs ∧
    r.parts = steps ps ++ steps cs ∧ r.text = spelled (keptSlashes (slashes p)) r.parts
  absolute : slashes c ≠ 0 → r = Path.ofString c ∧ ∃ cs, CutsInto c cs ∧
    r.parts = steps cs ∧ r.text = spelled (keptSlashes (slashes c)) r.parts
  fixed : (Path.ofString r.text).text = r.text

theorem pointsTo_join (p c : String) : PointsTo p c ((Path.ofString p).join (.ofString c)) where
  relative := by
    intro hc
    have hp := Path.cutsInto_components p
    have hcut := Path.cutsInto_components c
    rw [Path.join_relative (Path.root_ofString_eq_relative_iff.mpr hc)]
    refine ⟨_, _, hp, hcut, ?_, Path.text_eq_spelled rfl⟩
    rw [hp.parts_ofString, hcut.parts_ofString]
  absolute := by
    intro hc
    have hcut := Path.cutsInto_components c
    rw [Path.join_absolute (mt Path.root_ofString_eq_relative_iff.mp hc)]
    exact ⟨rfl, _, hcut, hcut.parts_ofString, Path.text_eq_spelled rfl⟩
  fixed := by
    rw [Path.ofString_text ((Path.normal_ofString p).join (Path.normal_ofString c))]

/-- The two paths of a layout point behind the project, or stand alone where they begin
with a slash; the text of what they point to is read as the same path again. -/
theorem places_exact (l : Layout) (project : String) :
    PointsTo project l.sourceDir (l.sourcesOf (.ofString project)) ∧
      PointsTo project l.gluePath (l.glueOf (.ofString project)) :=
  ⟨pointsTo_join project l.sourceDir, pointsTo_join project l.gluePath⟩

example : (Layout.glueOf ⟨".", ".././/x/", ".c"⟩ (.ofString "///a/./b//")).text = "/a/b/../x" := by
  decide

end Layout

end SdkGlue
