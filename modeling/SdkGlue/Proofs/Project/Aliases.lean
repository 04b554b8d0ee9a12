import SdkGlue.Proofs.Catalog.Order
import SdkGlue.Proofs.Glue.Tokens
import SdkGlue.Proofs.Sources.Collect

/-!
# Members that need one library

The glue names libraries, not members.  Where the sources of two directories
need the same libraries, the two texts link the same ones; the members through
which the library of `stdio` is needed decide only whether it stands in front
of that of `multicore` or behind it.
-/

namespace SdkGlue.Project

open Catalog (multicore sdk stdio)

variable {s t : Store} {directory directory' suffix suffix' : String} {as bs : List Member}

theorem mem_sdk_of_collect {m : Member}
    (h : ((Sources.collect directory suffix).run s).result = .ok as) (hm : m ∈ as) : m ∈ sdk := by
  rw [Sources.result_collect] at h
  cases hfound : ((Sources.forEach directory suffix Sources.membersOf).run s).result with
  | error e =>
      rw [hfound] at h
      cases h
  | ok found =>
      rw [hfound] at h
      cases h
      exact (Catalog.mem_arrange.mp hm).1

theorem mem_linked_collect_iff {library : String}
    (h : ((Sources.collect directory suffix).run s).result = .ok as) :
    library ∈ sdk.linked as ↔ ∃ m ∈ as, m.library = library :=
  Catalog.mem_linked_iff_of_subset fun _ => mem_sdk_of_collect h

theorem ofMembers_eq_iff :
    Glue.ofMembers as = Glue.ofMembers bs ↔ sdk.linked as = sdk.linked bs := by
  constructor
  · intro h
    rw [← Glue.tokens_ofMembers, ← Glue.tokens_ofMembers, h]
  · exact congrArg Glue.ofLibraries

/-- Sources that need the same libraries have glue texts with the same words, each
of them once, and apart from the library of `stdio` in the same order.  The texts are
the same exactly when `multicore` is not needed or both or neither need `stdio`. -/
theorem glue_eq_iff_of_same_libraries
    (has : ((Sources.collect directory suffix).run s).result = .ok as)
    (hbs : ((Sources.collect directory' suffix').run t).result = .ok bs)
    (hsame : ∀ library, (∃ m ∈ as, m.library = library) ↔ ∃ m ∈ bs, m.library = library) :
    (Glue.tokens (Glue.ofMembers as)).Nodup ∧ (Glue.tokens (Glue.ofMembers bs)).Nodup ∧
      (Glue.tokens (Glue.ofMembers as)).Perm (Glue.tokens (Glue.ofMembers bs)) ∧
      (Glue.tokens (Glue.ofMembers as)).filter (· != stdio.library) =
        (Glue.tokens (Glue.ofMembers bs)).filter (· != stdio.library) ∧
      (Glue.ofMembers as = Glue.ofMembers bs ↔ (multicore ∈ as → (stdio ∈ as ↔ stdio ∈ bs))) := by
  have hmem : ∀ library, library ∈ sdk.linked as ↔ library ∈ sdk.linked bs := by
    intro library
    rw [mem_linked_collect_iff has, mem_linked_collect_iff hbs, hsame]
  rw [Glue.tokens_ofMembers, Glue.tokens_ofMembers, ofMembers_eq_iff]
  have hnodup := Catalog.nodup_linked sdk
  refine ⟨hnodup as, hnodup bs, ?_, Catalog.filter_linked_sdk hmem, Catalog.linked_sdk_eq_iff hmem⟩
  exact (List.perm_ext_iff_of_nodup (hnodup as) (hnodup bs)).mpr hmem

/-- A project with one source. -/
def withSource (bytes : List UInt8) : Store :=
  ((Store.empty []).set ["d"] .directory).set ["a.c", "d"] (.file bytes)

theorem result_collect_withSource (bytes : List UInt8) :
    ((Sources.collect "d" ".c").run (withSource bytes)).result =
      .ok (sdk.arrange (Scan.ofBytes bytes).members) := by
  have hcandidates : ((Sources.candidates "d" ".c").run (withSource bytes)).result =
      .ok [⟨"d/a.c", .file⟩] := by
    have hkept : ((withSource bytes).children ["d"]).filter (fun e => Sources.hasSuffix ".c" e.1) =
        [("a.c", .file)] := by
      change [("a.c", Entry.Kind.file)].filter _ = _
      decide
    exact Sources.result_candidates_of_sorted (by decide) (by rfl) hkept
      (List.pairwise_singleton _ _)
  have hread : ((Sources.membersOf (.ofString "d/a.c")).run (withSource bytes)).result =
      .ok (Scan.ofBytes bytes).members :=
    Sources.result_membersOf_eq_ok_iff.mpr ⟨by decide, bytes, by rfl, rfl⟩
  have hvisit : ((Sources.visit Sources.membersOf [⟨"d/a.c", .file⟩]).run
      (withSource bytes)).result = .ok [(Scan.ofBytes bytes).members] := by
    refine (Sources.result_visit_eq_ok_iff Sources.readOnly_membersOf).mpr ⟨rfl, ?_⟩
    simp only [Sources.survey, Sources.judge, List.mapM_cons, List.mapM_nil, hread]
    rfl
  rw [Sources.result_collect, Sources.result_forEach, hcandidates]
  simp only [Bind.bind, Except.bind, hvisit, Except.map, List.flatten_singleton]

/-- A source that includes the given names. -/
def including (names : List String) : List UInt8 :=
  Text.Utf8.encode (names.flatMap fun name => "#include <".toList ++ name.toList ++ ">\n".toList)

/-- Without `multicore` it does not matter which member needs the library. -/
theorem glue_eq_of_stdio_of_gpio : ∃ as bs,
    ((Sources.collect "d" ".c").run (withSource (including ["stdio", "adc"]))).result = .ok as ∧
      ((Sources.collect "d" ".c").run (withSource (including ["gpio", "adc"]))).result = .ok bs ∧
      as ≠ bs ∧ Glue.ofMembers as = Glue.ofMembers bs := by
  have has : ((Sources.collect "d" ".c").run (withSource (including ["stdio", "adc"]))).result =
      .ok [stdio, ⟨"adc", "hardware_adc"⟩] := by
    rw [result_collect_withSource]
    exact congrArg Except.ok (by decide +kernel)
  have hbs : ((Sources.collect "d" ".c").run (withSource (including ["gpio", "adc"]))).result =
      .ok [⟨"gpio", "pico_stdlib"⟩, ⟨"adc", "hardware_adc"⟩] := by
    rw [result_collect_withSource]
    exact congrArg Except.ok (by decide +kernel)
  have hsame : ∀ library, (∃ m ∈ [stdio, ⟨"adc", "hardware_adc"⟩], m.library = library) ↔
      ∃ m ∈ [(⟨"gpio", "pico_stdlib"⟩ : Member), ⟨"adc", "hardware_adc"⟩], m.library = library := by
    simp
  obtain ⟨-, -, -, -, hiff⟩ := glue_eq_iff_of_same_libraries has hbs hsame
  exact ⟨_, _, has, hbs, by decide, hiff.mpr fun h => absurd h (by decide)⟩

/-- With `multicore` in between, the texts differ though the libraries are the
same. -/
theorem glue_ne_of_stdio_of_gpio : ∃ as bs,
    ((Sources.collect "d" ".c").run (withSource (including ["multicore", "stdio"]))).result =
        .ok as ∧
      ((Sources.collect "d" ".c").run (withSource (including ["multicore", "gpio"]))).result =
        .ok bs ∧
      (∀ library, (∃ m ∈ as, m.library = library) ↔ ∃ m ∈ bs, m.library = library) ∧
      Glue.ofMembers as ≠ Glue.ofMembers bs := by
  refine ⟨[stdio, multicore], [multicore, ⟨"gpio", "pico_stdlib"⟩], ?_, ?_, ?_, ?_⟩
  · rw [result_collect_withSource]
    exact congrArg Except.ok (by decide +kernel)
  · rw [result_collect_withSource]
    exact congrArg Except.ok (by decide +kernel)
  · intro library
    simp [or_comm]
  · rw [Ne, ofMembers_eq_iff]
    decide

end SdkGlue.Project
