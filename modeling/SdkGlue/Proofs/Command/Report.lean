import SdkGlue.Command.Report
import SdkGlue.Proofs.Catalog.Keys
import SdkGlue.Proofs.Command.Host
import SdkGlue.Proofs.Text.Split

/-!
# The texts of reports

All texts of reports but paths and names of sources come from the catalog and the
commands themselves.  They are plain, so no more can be wrong with a report than with
the paths and names in it.
-/

namespace SdkGlue

namespace Command

variable {s t front : String}

instance (s : String) : Decidable (Tagless s) := inferInstanceAs (Decidable ('[' ∉ s.toList))

theorem tagless_append : Tagless (s ++ t) ↔ Tagless s ∧ Tagless t := by
  rw [Tagless, String.toList_append, List.mem_append, not_or]
  rfl

/-- A text of plain characters without a colon, which may stand in front of any other. -/
def IsBland (s : String) : Prop := ∀ c ∈ s.toList, IsPlainChar c ∧ c ≠ ':'

instance (s : String) : Decidable (IsBland s) :=
  inferInstanceAs (Decidable (∀ c ∈ s.toList, IsPlainChar c ∧ c ≠ ':'))

theorem isBland_toString (n : Nat) : IsBland (toString n) := by
  intro c hc
  rw [Nat.toString_eq_repr, Nat.toList_repr] at hc
  have hdigit := Nat.isDigit_of_mem_toDigits (by decide) (by decide) hc
  have hdigit : 48 ≤ c.toNat ∧ c.toNat ≤ 57 := by
    simpa [Char.isDigit, UInt32.le_iff_toNat_le] using hdigit
  refine ⟨⟨?_, by omega, ?_⟩, ?_⟩
  · rintro rfl
    exact absurd hdigit (by decide)
  · simp only [List.mem_cons, List.not_mem_nil, or_false]
    omega
  · rintro rfl
    exact absurd hdigit (by decide)

/-! ## Texts behind others -/

/-- A plain text behind plain characters, as long as there are no more colons. -/
theorem IsPlain.append (ht : IsPlain t) (hs : ∀ c ∈ s.toList, IsPlainChar c) (hne : t ≠ "")
    (hcolons : s.toList.count ':' + t.toList.count ':' ≤ 1) : IsPlain (s ++ t) where
  chars := by
    rw [String.toList_append, List.forall_mem_append]
    exact ⟨hs, ht.chars⟩
  colons := by rwa [String.toList_append, List.count_append]
  trimmed := by
    rw [String.toList_append, List.getLast?_append_of_ne_nil _ (by simpa using hne)]
    exact ht.trimmed

/-- A text in front of others that is no markup and no part of it. -/
structure IsFront (front : String) : Prop where
  no_bracket : '[' ∉ front.toList
  no_slash : front.toList.getLast? ≠ some '\\'

theorem getLast?_append_ne {front rest : List Char} (hfront : front.getLast? ≠ some '\\')
    (hrest : rest.getLast? ≠ some '\\') : (front ++ rest).getLast? ≠ some '\\' := by
  rw [List.getLast?_append]
  cases hlast : rest.getLast? with
  | none => exact hfront
  | some c =>
      rw [hlast] at hrest
      exact hrest

theorem ClosesNothing.append (h : ClosesNothing s) (hfront : IsFront front) :
    ClosesNothing (front ++ s) := by
  obtain ⟨before, name, back, hs, hbefore, hlast, hopen, hclose, hback⟩ := h
  refine ⟨front.toList ++ before, name, back, ?_, ?_, getLast?_append_ne hfront.no_slash hlast,
    hopen, hclose, hback⟩
  · rw [String.toList_append, hs]
    simp only [List.append_assoc]
  · rw [List.mem_append, not_or]
    exact ⟨hfront.no_bracket, hbefore⟩

theorem OpensIn.append (h : OpensIn s t) (hfront : IsFront front) :
    OpensIn (front ++ s) (front ++ t) := by
  obtain ⟨before, name, back, hs, ht, hlast, hname⟩ := h
  refine ⟨front.toList ++ before, name, back, ?_, ?_, getLast?_append_ne hfront.no_slash hlast,
    hname⟩
  · rw [String.toList_append, hs]
    simp only [List.append_assoc]
  · rw [String.toList_append, ht, List.append_assoc]

/-! ## Words -/

/-- A plain text that may stand in a list of others. -/
structure IsWord (s : String) : Prop where
  plain : IsPlain s
  no_colon : ':' ∉ s.toList
  ne_empty : s ≠ ""

instance (s : String) : Decidable (IsWord s) :=
  decidable_of_iff (IsPlain s ∧ ':' ∉ s.toList ∧ s ≠ "")
    ⟨fun h => ⟨h.1, h.2.1, h.2.2⟩, fun h => ⟨h.1, h.2, h.3⟩⟩

theorem IsWord.append (ht : IsWord t) (hs : IsBland s) : IsWord (s ++ t) where
  plain := by
    apply ht.plain.append (fun c hc => (hs c hc).1) ht.ne_empty
    rw [List.count_eq_zero.mpr fun hmem => (hs _ hmem).2 rfl, List.count_eq_zero.mpr ht.no_colon]
    decide
  no_colon := by
    rw [String.toList_append, List.mem_append, not_or]
    exact ⟨fun hmem => (hs _ hmem).2 rfl, ht.no_colon⟩
  ne_empty := by simp [ht.ne_empty]

theorem IsWord.isBland (h : IsWord s) : IsBland s := fun c hc =>
  ⟨h.plain.chars c hc, fun heq => h.no_colon (heq ▸ hc)⟩

theorem isBland_space : IsBland " " := by decide

theorem isBland_comma : IsBland ", " := by decide

theorem isWord_intercalate {between : String} {parts : List String}
    (hbetween : IsBland between) (hne : parts ≠ [])
    (hparts : ∀ part ∈ parts, IsWord part) : IsWord (between.intercalate parts) := by
  induction parts with
  | nil => exact absurd rfl hne
  | cons part parts ih =>
      rw [List.forall_mem_cons] at hparts
      by_cases hrest : parts = []
      · subst hrest
        simpa using hparts.1
      · rw [String.intercalate_cons_of_ne_nil hrest]
        apply (ih hrest hparts.2).append
        rw [IsBland, String.toList_append, List.forall_mem_append]
        exact ⟨hparts.1.isBland, hbetween⟩

theorem isWord_orElse {between substitute : String} {parts : List String}
    (hbetween : IsBland between) (hsubstitute : IsWord substitute)
    (hparts : ∀ part ∈ parts, IsWord part) :
    IsWord (orElse substitute (between.intercalate parts)) := by
  unfold orElse
  split
  · exact hsubstitute
  · next hne =>
      apply isWord_intercalate hbetween _ hparts
      rintro rfl
      exact hne rfl

theorem isWord_sdk : ∀ m ∈ Catalog.sdk, IsWord m.name ∧ IsWord m.library := by
  decide

theorem isWord_of_mem_linked {ms : List Member} :
    ∀ library ∈ Catalog.sdk.linked ms, IsWord library := by
  intro library hlibrary
  obtain ⟨m, hm, -, rfl⟩ := Catalog.mem_linked_iff.mp hlibrary
  exact (isWord_sdk m hm).2

/-! ## Lines -/

/-- The line that a report on a regeneration begins with. -/
def libraryLine (libraries : List String) : String :=
  if libraries.isEmpty then "No SDK libraries detected"
  else s!"Linking {libraries.length} libraries: " ++ " ".intercalate libraries

/-- The line that a report on sources ends with. -/
def summary (count : Nat) (links : List String) : String :=
  let shown := orElse "(none)" (" ".intercalate links)
  s!"{count} files, links: {shown}"

theorem generatedReport_eq (g : Project.Generated) :
    generatedReport g = [.line (libraryLine g.libraries), .line s!"Wrote {g.output.text}"] := rfl

theorem scanReport_eq (directory : Path) (found : List (Path × List Member)) :
    scanReport directory found =
      [.table (scanTable directory found), .line (summary found.length (scanLinks found))] := rfl

/-- A count between two texts of the commands, and words at the end. -/
theorem isPlain_counted (before after : String) {word : String} (count : Nat) (hword : IsWord word)
    (hchars : ∀ c ∈ before.toList ++ after.toList, IsPlainChar c)
    (hcolons : (before.toList ++ after.toList).count ':' ≤ 1) :
    IsPlain (before ++ toString count ++ after ++ word) := by
  have hcount := isBland_toString count
  rw [List.forall_mem_append] at hchars
  rw [List.count_append] at hcolons
  apply hword.plain.append _ hword.ne_empty
  · rw [String.toList_append, String.toList_append, List.count_append, List.count_append,
      List.count_eq_zero.mpr fun hmem => (hcount _ hmem).2 rfl,
      List.count_eq_zero.mpr hword.no_colon]
    omega
  · simp only [String.toList_append, List.forall_mem_append]
    exact ⟨⟨hchars.1, fun c hc => (hcount c hc).1⟩, hchars.2⟩

theorem isPlain_libraryLine (ms : List Member) :
    IsPlain (libraryLine (Catalog.sdk.linked ms)) := by
  unfold libraryLine
  split
  · decide
  · next hne =>
      have hword : IsWord (" ".intercalate (Catalog.sdk.linked ms)) :=
        isWord_intercalate isBland_space (by simpa using hne) isWord_of_mem_linked
      exact isPlain_counted "Linking " " libraries: " _ hword (by decide)
        (by decide)

theorem isPlain_summary (count : Nat) (ms : List Member) :
    IsPlain (summary count (Catalog.sdk.linked ms)) := by
  have hword : IsWord (orElse "(none)" (" ".intercalate (Catalog.sdk.linked ms))) :=
    isWord_orElse isBland_space (by decide) isWord_of_mem_linked
  exact isPlain_counted "" " files, links: " count hword (by decide) (by decide)

theorem isShownAs_wrote {path shown : String} (h : IsShownAs path shown) (hne : shown ≠ "") :
    IsShownAs s!"Wrote {path}" s!"Wrote {shown}" := by
  have hcolons : "Wrote ".toList.count ':' = 0 := by decide
  have hplain : IsPlain ("Wrote " ++ shown) := by
    apply h.1.append (by decide) hne
    rw [hcolons, Nat.zero_add]
    exact h.1.colons
  refine ⟨hplain, ?_⟩
  rcases h.2 with rfl | hopens
  · exact .inl rfl
  · exact .inr (hopens.append ⟨by decide, by decide⟩)

theorem tagless_cleanReport (removed : Nat) : Tagless s!"Removed {removed} generated sources" :=
  tagless_append.mpr ⟨tagless_append.mpr ⟨by decide, fun hmem =>
    (isBland_toString removed _ hmem).1.1 rfl⟩, by decide⟩

/-! ## Tables -/

theorem tagless_catalogTable : ∀ s ∈ (catalogTable Catalog.sdk).texts, Tagless s := by
  decide

theorem isWord_memberNames (ms : List Member) : IsWord (memberNames ms) := by
  rw [memberNames]
  refine isWord_orElse isBland_comma (by decide) fun name hname => ?_
  obtain ⟨m, hm, rfl⟩ := List.mem_map.mp hname
  exact (isWord_sdk m (Catalog.mem_arrange.mp hm).1).1

theorem isWord_memberLinks (ms : List Member) : IsWord (memberLinks ms) := by
  rw [memberLinks]
  exact isWord_orElse isBland_space (by decide) isWord_of_mem_linked

theorem tagless_scanTable {directory : Path} {found : List (Path × List Member)}
    (hdirectory : Tagless directory.text) (hnames : ∀ e ∈ found, Tagless e.1.name) :
    ∀ s ∈ (scanTable directory found).texts, Tagless s := by
  have htitle : Tagless s!"Generated sources in {directory.text}" :=
    tagless_append.mpr ⟨by decide, hdirectory⟩
  have hcolumn : ∀ (header : String) (word : Path × List Member → String), Tagless header →
      (∀ e ∈ found, Tagless (word e)) → ∀ cell ∈ header :: found.map word, Tagless cell := by
    intro header word hheader hword
    rw [List.forall_mem_cons, List.forall_mem_map]
    exact ⟨hheader, hword⟩
  intro s hs
  rcases List.mem_cons.mp hs with rfl | hs
  · exact htitle
  obtain ⟨c, hc, hs⟩ := List.mem_flatMap.mp hs
  rcases List.mem_cons.mp hc with rfl | hc
  · exact hcolumn "File" _ (by decide) hnames s hs
  rcases List.mem_cons.mp hc with rfl | hc
  · exact hcolumn "Libraries" _ (by decide)
      (fun e _ => (isWord_memberNames e.2).plain.tagless) s hs
  · rw [List.mem_singleton.mp hc] at hs
    exact hcolumn "Links" _ (by decide)
      (fun e _ => (isWord_memberLinks e.2).plain.tagless) s hs

/-- The table of sources with what is shown of their names. -/
def shownTable (directory : Path) (found : List (Path × List Member)) (names : List String) :
    Table where
  title := (scanTable directory found).title
  columns :=
    [⟨"File", names⟩, ⟨"Libraries", found.map fun e => memberNames e.2⟩,
     ⟨"Links", found.map fun e => memberLinks e.2⟩]

theorem isShownAs_scanTable {directory : Path} {found : List (Path × List Member)}
    {names : List String} (h : List.Forall₂ (fun e name => IsShownAs e.1.name name) found names) :
    (scanTable directory found).IsShownAs (shownTable directory found names) where
  title := rfl
  columns := by
    have hwords : ∀ word : List Member → String, (∀ ms, IsWord (word ms)) →
        List.Forall₂ IsShownAs (found.map fun e => word e.2) (found.map fun e => word e.2) := by
      intro word hword
      rw [List.forall₂_same, List.forall_mem_map]
      exact fun e _ => ⟨(hword e.2).plain, .inl rfl⟩
    have hheaders : ∀ header ∈ ["File", "Libraries", "Links"],
        IsPlain header ∧ header.toList.any Char.isAlpha := by
      decide
    simp only [List.forall_mem_cons] at hheaders
    obtain ⟨⟨hfile, hfile'⟩, ⟨hlibraries, hlibraries'⟩, ⟨hlinks, hlinks'⟩, -⟩ := hheaders
    refine .cons ?_ (.cons ?_ (.cons ?_ .nil))
    · exact ⟨rfl, hfile, hfile', List.forall₂_map_left_iff.mpr h⟩
    · exact ⟨rfl, hlibraries, hlibraries', hwords _ isWord_memberNames⟩
    · exact ⟨rfl, hlinks, hlinks', hwords _ isWord_memberLinks⟩

/-- A row shows a name, and the members and libraries of its source. -/
theorem rows_shownTable (directory : Path) {found : List (Path × List Member)}
    {names : List String} (h : found.length = names.length) :
    (shownTable directory found names).rows =
      (found.zip names).map fun e => [e.2, memberNames e.1.2, memberLinks e.1.2] := by
  have hfound : (found.zip names).map (fun e => e.1) = found :=
    List.map_fst_zip (Nat.le_of_eq h)
  have hnames : (found.zip names).map (fun e => e.2) = names :=
    List.map_snd_zip (Nat.le_of_eq h.symm)
  have hcolumn : ∀ word : List Member → String, (found.zip names).map (fun e => word e.1.2) =
      found.map fun e => word e.2 := by
    intro word
    conv_rhs => rw [← hfound, List.map_map]
    rfl
  have hrows := Table.rows_of_columns (shownTable directory found names).title
    (List.cons_ne_nil ("File", fun e : (Path × List Member) × String => e.2)
      [("Libraries", fun e => memberNames e.1.2), ("Links", fun e => memberLinks e.1.2)])
    (found.zip names)
  simp only [List.map_cons, List.map_nil, hnames, hcolumn] at hrows
  exact hrows

end Command

end SdkGlue
