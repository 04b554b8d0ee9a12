import SdkGlue.Proofs.Store.Entries
import SdkGlue.Proofs.Store.Resolve
import SdkGlue.Sources

/-!
# Paths of directory entries

The path of an entry is the text of its directory with the name behind it.  It
leads to that entry whichever way the directory is spelled, as it is and in
normal form; only the two lengths differ.
-/

namespace SdkGlue

namespace Store

variable {s : Store} {aim : Aim} {k : Nat} {dir : Location} {directory name : String}

theorem components_entryPath (hdir : directory ≠ "") (hname : '/' ∉ name.toList) :
    ∃ front, components (Sources.entryPath directory name) = front ++ [name] ∧
      front.filter isStep = (components directory).filter isStep := by
  unfold Sources.entryPath
  rw [if_neg hdir]
  split
  · next hlast =>
      obtain ⟨init, hinit⟩ := List.getLast?_eq_some_iff.mp hlast
      have hd : directory = String.ofList init ++ "/" ++ "" := by
        rw [← String.toList_inj]
        simpa using hinit
      refine ⟨components (String.ofList init), ?_, ?_⟩
      · rw [hd, String.append_empty, components_append_slash, components_of_not_mem hname]
      · rw [hd, components_append_slash, components_empty, List.filter_append]
        simp [isStep]
  · exact ⟨components directory,
      by rw [components_append_slash, components_of_not_mem hname], rfl⟩

theorem root_entryPath (hdir : directory ≠ "") (name : String) :
    (Path.ofString (Sources.entryPath directory name)).root = .relative ↔
      (Path.ofString directory).root = .relative := by
  have hne : directory.toList ≠ [] := fun h => hdir (String.toList_eq_nil_iff.mp h)
  have hhead : (Sources.entryPath directory name).toList.head? = directory.toList.head? := by
    unfold Sources.entryPath
    rw [if_neg hdir]
    obtain ⟨c, cs, hc⟩ := List.exists_cons_of_ne_nil hne
    split <;> simp [hc]
  simp only [Path.ofString, rootOf_eq_relative_iff, hhead]

/-- The normal form of an entry's path has the parts of the directory, and the
name behind them. -/
theorem parts_entryPath (hdir : directory ≠ "") (hname : IsName name) :
    (Path.ofString (Sources.entryPath directory name)).parts =
      (components directory).filter isStep ++ [name] := by
  obtain ⟨front, hcomp, hfront⟩ := components_entryPath hdir hname.no_slash
  rw [Path.parts_ofString, hcomp, List.filter_append, hfront]
  simp [hname.isStep]

theorem name_entryPath (hdir : directory ≠ "") (hname : IsName name) :
    (Path.ofString (Sources.entryPath directory name)).name = name := by
  simp [Path.name, parts_entryPath hdir hname]

/-- The normal form of an entry's path holds no NUL when the directory's text
holds none. -/
theorem hasNul_entryPath (hdir : directory ≠ "") (hnul : Script.hasNul directory = false)
    (hname : IsName name) :
    Script.hasNul (Path.ofString (Sources.entryPath directory name)).text = false := by
  simp only [Script.hasNul, List.contains_eq_mem, decide_eq_false_iff_not] at hnul ⊢
  intro hc
  rcases Path.mem_text hc with h | h | ⟨part, hpart, h⟩
  · exact absurd h (by decide)
  · exact absurd h (by decide)
  · rw [parts_entryPath hdir hname, List.mem_append, List.mem_filter, List.mem_singleton] at hpart
    rcases hpart with ⟨hpart, -⟩ | rfl
    · exact hnul (mem_of_mem_components hpart h)
    · exact hname.no_nul h

theorem Opens.resolve_entryPath (h : s.Opens directory k dir) (hname : IsName name) (aim : Aim) :
    s.resolve aim (Sources.entryPath directory name) =
      if maxPath ≤ (Sources.entryPath directory name).utf8ByteSize then .error .nameTooLong
      else s.walk aim k dir [name] := by
  obtain ⟨front, hcomp, hfront⟩ := components_entryPath h.ne_empty hname.no_slash
  have hne : Sources.entryPath directory name ≠ "" := by
    intro he
    have hlast := congrArg List.getLast? hcomp
    simp only [he, components_empty, List.getLast?_singleton, List.getLast?_concat,
      Option.some.injEq] at hlast
    exact hname.plain.1 hlast.symm
  have henter : s.enter maxLinks (startOf directory s.cwd) front = .ok (k, dir) := by
    rw [← enter_filter, hfront, enter_filter, h.entered]
  have hstart : startOf (Sources.entryPath directory name) s.cwd = startOf directory s.cwd := by
    simp only [startOf_eq, root_entryPath h.ne_empty]
  rw [resolve, if_neg hne, hcomp, hstart, walk_append s aim _ _ _ (by simp [hname.plain.1]), henter]
  rfl

theorem Opens.parent_entryPath (h : s.Opens directory k dir) (hname : IsName name) :
    s.parent (Path.ofString (Sources.entryPath directory name)) = .ok (k, dir) := by
  rw [parent, base, parts_entryPath h.ne_empty hname, List.dropLast_concat, enter_filter]
  simp only [root_entryPath h.ne_empty, ← startOf_eq]
  exact h.entered

theorem Opens.resolve_source (h : s.Opens directory k dir) (hname : IsName name) :
    s.resolve aim (Path.ofString (Sources.entryPath directory name)).text =
      if maxPath ≤ (Path.ofString (Sources.entryPath directory name)).text.utf8ByteSize then
        .error .nameTooLong
      else s.walk aim k dir [name] := by
  rw [resolve_text s aim (Path.normal_ofString _) (by simp [parts_entryPath h.ne_empty hname]),
    h.parent_entryPath hname, name_entryPath h.ne_empty hname]
  rfl

end Store

end SdkGlue
