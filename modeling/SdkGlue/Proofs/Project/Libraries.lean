import SdkGlue.Proofs.Glue.Tokens
import SdkGlue.Proofs.Project.Generate

/-!
# The libraries that a regeneration links

The words of a regenerated glue text are the libraries behind the members that
the sources of the project include: none is missing, none is there for another
reason, and each is there once.
-/

namespace SdkGlue.Project

open Sources (hasSuffix)

variable {s : Store} {project : Path} {layout : Layout} {g : Generated}

/-- A library is linked exactly when a file that stands in the source directory
with the suffix, links followed, includes a member that needs it.  The text is
the template around these libraries, each once and with one space behind it. -/
theorem mem_tokens_generate_iff (hs : s.Lawful)
    (h : ((generate project layout).run s).result = .ok g) :
    ∃ dir, s.resolve .target (layout.sourcesOf project).text = .ok (.entry dir .directory) ∧
      (∀ library, library ∈ Glue.tokens g.content ↔
        ∃ name kind bytes m, (name, kind) ∈ s.children dir ∧
          hasSuffix layout.suffix name = true ∧ s.contentIn? dir name = some bytes ∧
          Scan.Includes bytes m ∧ m.library = library) ∧
      (Glue.tokens g.content).Nodup ∧
      g.content = Glue.opening ++ String.join ((Glue.tokens g.content).map (· ++ " ")) ++
        Glue.closing ∧
      Glue.tokens g.content = g.libraries := by
  obtain ⟨hcollect, -, hg⟩ := generate_eq_ok_iff.mp h
  have hcontent : g.content = Glue.ofMembers g.members := congrArg Generated.content hg
  have htokens : Glue.tokens g.content = g.libraries := by
    rw [hcontent, Glue.tokens_ofMembers, Generated.libraries]
  obtain ⟨dir, hdir, hmem⟩ := Sources.mem_collect_iff hs hcollect
  refine ⟨dir, hdir, fun library => ?_, ?_, ?_, htokens⟩
  · rw [htokens, Generated.libraries, Catalog.mem_linked_iff]
    constructor
    · rintro ⟨m, -, hm, rfl⟩
      obtain ⟨name, kind, bytes, hchild, hsuffix, hbytes, hin⟩ := (hmem m).mp hm
      exact ⟨name, kind, bytes, m, hchild, hsuffix, hbytes, hin, rfl⟩
    · rintro ⟨name, kind, bytes, m, hchild, hsuffix, hbytes, hin, rfl⟩
      have hm := (hmem m).mpr ⟨name, kind, bytes, hchild, hsuffix, hbytes, hin⟩
      exact ⟨m, hin.mem_sdk, hm, rfl⟩
  · rw [htokens]
    exact Catalog.nodup_linked _ _
  · rw [htokens, hcontent]
    rfl

/-- The text of a source; its second include stands behind a type definition. -/
def sourceText : List Char := "#include <spi>\ntypedef x\n#include <adc>".toList

/-- A project with one source. -/
def oneSource : Store :=
  ((Store.empty []).set ["d"] .directory).set ["m.c", "d"] (.file (Text.Utf8.encode sourceText))

/-- The source is read up to its type definition. -/
theorem mem_tokens_generate_oneSource :
    oneSource.Lawful ∧ ∃ g,
      ((generate (.ofString ".") ⟨"d", "glue", ".c"⟩).run oneSource).result = .ok g ∧
      "hardware_spi" ∈ Glue.tokens g.content := by
  have hs : oneSource.Lawful := by decide
  have hcandidates : ((Sources.candidates "d" ".c").run oneSource).result =
      .ok [⟨"d/m.c", .file⟩] := by
    have hkept : (oneSource.children ["d"]).filter (fun e => hasSuffix ".c" e.1) =
        [("m.c", .file)] := by decide
    exact Sources.result_candidates_of_sorted (by decide) (by rfl) hkept (List.pairwise_singleton _ _)
  have hcollected : collected (.ofString ".") ⟨"d", "glue", ".c"⟩ oneSource =
      .ok [⟨"spi", "hardware_spi"⟩] := by
    have hdirectory : (Layout.sourcesOf ⟨"d", "glue", ".c"⟩ (.ofString ".")).text = "d" := by decide
    rw [collected, hdirectory, Sources.result_collect, Sources.result_forEach, hcandidates]
    rfl
  have hwritten : (written (.ofString ".") ⟨"d", "glue", ".c"⟩ [⟨"spi", "hardware_spi"⟩]
      oneSource).result = .ok (.ofString "glue") := by rfl
  have hg : ((generate (.ofString ".") ⟨"d", "glue", ".c"⟩).run oneSource).result =
      .ok ⟨[⟨"spi", "hardware_spi"⟩], Layout.glueOf ⟨"d", "glue", ".c"⟩ (.ofString "."),
        Glue.ofMembers [⟨"spi", "hardware_spi"⟩]⟩ :=
    generate_eq_ok_iff.mpr ⟨hcollected, ⟨_, hwritten⟩, rfl⟩
  obtain ⟨dir, hdir, hmem, -⟩ := mem_tokens_generate_iff hs hg
  have hd : oneSource.resolve .target (Layout.sourcesOf ⟨"d", "glue", ".c"⟩ (.ofString ".")).text =
      .ok (.entry ["d"] .directory) := by rfl
  obtain ⟨rfl, -⟩ := Place.entry.inj (Except.ok.inj (hd.symm.trans hdir))
  have hlines : Text.lines (Text.Utf8.decodeLossy (Text.Utf8.encode sourceText)) =
      [] ++ "#include <spi>".toList :: ["typedef x".toList, "#include <adc>".toList] := by
    decide +kernel
  have hin : Scan.Includes (Text.Utf8.encode sourceText) ⟨"spi", "hardware_spi"⟩ :=
    ⟨_, _, _, "spi".toList, hlines, by decide, by decide, by rfl⟩
  have hspi := (hmem "hardware_spi").mpr ⟨"m.c", .file, Text.Utf8.encode sourceText,
    ⟨"spi", "hardware_spi"⟩, by decide, by rfl, by rfl, hin, rfl⟩
  exact ⟨hs, _, hg, hspi⟩

end SdkGlue.Project
