import SdkGlue.Proofs.Command.Host
import SdkGlue.Proofs.Markup.Dialect
import SdkGlue.Proofs.Markup.Plain

/-!
# What the screen does

The screen is a host that is safe, and with an ordinary dialect it shows plain texts as
they are.
-/

namespace SdkGlue

variable {d : Markup.Dialect}

/-! ## Texts -/

namespace Command

theorem isDropped_of_isPlainChar {c : Char} (h : IsPlainChar c) : Markup.isDropped c = false := by
  obtain ⟨-, hlow, -⟩ := h
  simp only [Markup.isDropped, List.mem_cons, List.not_mem_nil, or_false, decide_eq_false_iff_not]
  omega

theorem endsLine_of_isPlainChar {c : Char} (h : IsPlainChar c) : Text.endsLine c = false := by
  obtain ⟨-, hlow, hnone⟩ := h
  by_contra hends
  simp only [Text.endsLine, Bool.not_eq_false, Bool.and_eq_true, Bool.or_eq_true,
    decide_eq_true_eq, Text.Ranges.contains_iff, Text.blankRanges] at hends
  simp only [List.mem_cons, List.not_mem_nil, or_false, not_or] at hnone
  obtain ⟨⟨⟨r, hr, hcontains⟩, hother⟩, hends⟩ := hends
  simp only [List.mem_cons, List.not_mem_nil, or_false, not_or] at hr hother
  rcases hr with rfl | rfl | rfl | rfl | rfl | rfl | rfl | rfl | rfl | rfl <;>
    simp only at hcontains <;> omega

theorem IsPlain.isLine {s : String} (h : IsPlain s) : Text.IsLine s.toList where
  shown := by
    intro c hc
    refine ⟨?_, endsLine_of_isPlainChar (h.chars c hc)⟩
    rintro rfl
    exact absurd (h.chars _ hc).2.1 (by decide)
  trimmed := Text.trimEnd_eq_self h.trimmed

theorem IsPlain.filter_eq {s : String} (h : IsPlain s) :
    s.toList.filter (!Markup.isDropped ·) = s.toList := by
  rw [List.filter_eq_self]
  intro c hc
  rw [isDropped_of_isPlainChar (h.chars c hc)]
  rfl

theorem IsPlain.plain_eq (hd : d.IsOrdinary) {s : String} (h : IsPlain s) :
    Markup.plain d s = .ok s.toList := by
  rw [Markup.plain_of_not_mem d h.tagless, hd.pictures_eq _ h.colons, h.filter_eq]

theorem IsShownAs.plain_eq (hd : d.IsOrdinary) {s t : String} (h : IsShownAs s t) :
    Markup.plain d s = .ok t.toList := by
  obtain ⟨ht, rfl | ⟨front, name, back, hs, htext, hlast, hne, hlower⟩⟩ := h
  · exact ht.plain_eq hd
  have hopen : '[' ∉ t.toList := ht.tagless
  have hcolons := ht.colons
  rw [htext, List.mem_append, not_or] at hopen
  rw [htext, List.count_append] at hcolons
  have hmem : ∀ c ∈ name, c ≠ '[' ∧ c ≠ ']' ∧ c ≠ '/' ∧ c ≠ '=' := by
    intro c hc
    refine ⟨?_, ?_, ?_, ?_⟩ <;>
    · rintro rfl
      exact absurd (hlower _ hc) (by decide)
  have hbody : Markup.IsTagBody name := by
    obtain ⟨c, rest, rfl⟩ := List.exists_cons_of_ne_nil hne
    refine ⟨?_, fun h => (hmem _ h).1 rfl, fun h => (hmem _ h).2.1 rfl⟩
    simp [Markup.startsTag, hlower c List.mem_cons_self]
  have hhead : name.head? ≠ some '/' := fun heq => (hmem _ (List.mem_of_mem_head? heq)).2.2.1 rfl
  obtain ⟨style, hstyle⟩ := hd.exists_style name hlower
  have htag : d.openTag name = .ok ⟨style, []⟩ := by
    have hname : name.takeWhile (· != '=') = name :=
      List.takeWhile_eq_self_iff.mpr fun c hc => by simp [(hmem c hc).2.2.2]
    have hnone : name.drop (name.length + 1) = [] := List.drop_eq_nil_of_le (Nat.le_succ _)
    simp [Markup.Dialect.openTag, Markup.Dialect.readStyle, hname, hnone, hstyle, Except.mapError]
  rw [Markup.plain_of_opening d hopen.1 hlast hbody hhead htag hopen.2 hs,
    hd.pictures_eq front (by omega), hd.pictures_eq back (by omega), hd.pictures_eq [] (by simp),
    List.nil_append, ← htext, ht.filter_eq]

theorem ClosesNothing.plain_eq (d : Markup.Dialect) {s : String} (h : ClosesNothing s) :
    ∃ e, Markup.plain d s = .error e := by
  obtain ⟨front, name, back, hs, hfront, hlast, hopen, hclose, hback⟩ := h
  exact Markup.error_of_closing d hfront hlast hopen hclose hback hs

end Command

/-! ## Printing -/

theorem forall_of_forall₂ {α β : Type} {R : α → β → Prop} {p : β → Prop} {as : List α}
    {bs : List β} (h : List.Forall₂ R as bs) (hp : ∀ a b, R a b → p b) : ∀ b ∈ bs, p b := by
  induction h with
  | nil => exact nofun
  | cons hab _ ih => exact List.forall_mem_cons.mpr ⟨hp _ _ hab, ih⟩

namespace Table

theorem renderLine_eq (s : String) :
    renderLine d s = (Markup.plain d s).map fun t => ofLines (Text.screenLines t) := by
  rw [renderLine]
  cases Markup.plain d s <;> rfl

theorem renderLine_of_plain_eq {s t : String} (h : Markup.plain d s = .ok t.toList)
    (ht : Text.IsLine t.toList) : renderLine d s = .ok (t ++ "\n") := by
  rw [renderLine_eq, h]
  change Except.ok (ofLines (Text.screenLines t.toList)) = _
  rw [ht.screenLines_eq, ofLines, List.flatMap_singleton, String.ofList_append,
    String.ofList_toList]

/-- A table is printed when nothing is wrong with its cells and its title. -/
theorem render_of_cells {t : Table} {columns : List (List (List Char))}
    (h : List.Forall₂ (fun c contents =>
      (c.header :: c.cells).mapM (Markup.plain d) = .ok contents) t.columns columns) :
    t.render d = (Markup.plain d t.title).map fun title => ofLines (layOut title columns) := by
  rw [render, mapM_eq_ok_iff.mpr h]
  cases Markup.plain d t.title <;> rfl

theorem Column.IsShownAs.mapM_eq (hd : d.IsOrdinary) {c shown : Column} (h : c.IsShownAs shown) :
    (c.header :: c.cells).mapM (Markup.plain d) = .ok shown.contents := by
  have hheader : Markup.plain d c.header = .ok shown.header.toList := by
    rw [h.header]
    exact h.plain.plain_eq hd
  rw [mapM_eq_ok_iff, contents, List.forall₂_map_right_iff]
  exact .cons hheader (h.cells.imp fun _ _ hcell => hcell.plain_eq hd)

theorem Column.IsShownAs.holdsLines {c shown : Column} (h : c.IsShownAs shown) :
    shown.HoldsLines := by
  rw [HoldsLines, List.forall_mem_cons]
  exact ⟨h.plain.isLine, forall_of_forall₂ h.cells fun _ _ hcell => hcell.1.isLine⟩

end Table

namespace Command

/-! ## The host -/

theorem line_screen (s : String) : (Host.screen d).line s = Table.renderLine d s := rfl

theorem table_screen (t : Table) : (Host.screen d).table t = t.render d := rfl

theorem isSafe_screen (d : Markup.Dialect) : (Host.screen d).IsSafe where
  reads _ _ _ := rfl
  line_of_tagless s h := by
    rw [line_screen, Table.renderLine_eq, Markup.plain_of_not_mem d h]
    exact ⟨_, rfl⟩
  table_of_tagless t h := by
    have hcells : ∀ c ∈ t.columns, (c.header :: c.cells).mapM (Markup.plain d) =
        .ok ((c.header :: c.cells).map fun cell =>
          (d.pictures cell.toList).filter (!Markup.isDropped ·)) := by
      intro c hc
      apply mapM_of_forall_ok
      intro cell hcell
      exact Markup.plain_of_not_mem d
        (h cell (List.mem_cons_of_mem _ (List.mem_flatMap.mpr ⟨c, hc, hcell⟩)))
    rw [table_screen, Table.render_of_cells (mapM_eq_ok_iff.mp (mapM_of_forall_ok hcells)),
      Markup.plain_of_not_mem d (h t.title List.mem_cons_self)]
    exact ⟨_, rfl⟩
  line_of_closing s h := by
    obtain ⟨e, he⟩ := h.plain_eq d
    rw [line_screen, Table.renderLine_eq, he]
    exact ⟨e, rfl⟩
  table_of_closing t _ h := by
    obtain ⟨e, he⟩ := h.plain_eq d
    rw [table_screen, Table.render]
    cases t.columns.mapM fun c => (c.header :: c.cells).mapM (Markup.plain d) with
    | error e' => exact ⟨e', rfl⟩
    | ok columns =>
        rw [ok_bind, he]
        exact ⟨e, rfl⟩

theorem showsPlain_screen (hd : d.IsOrdinary) : (Host.screen d).ShowsPlain Table.Fits where
  line_of_shown s t h := Table.renderLine_of_plain_eq (h.plain_eq hd) h.1.isLine
  rows_of_shown t u shown h hfits hshown := by
    have hcontents : List.Forall₂ (fun (c : Table.Column) contents =>
        (c.header :: c.cells).mapM (Markup.plain d) = .ok contents)
        t.columns (u.columns.map Table.Column.contents) := by
      rw [List.forall₂_map_right_iff]
      exact h.columns.imp fun _ _ hcolumn => hcolumn.mapM_eq hd
    rw [table_screen, Table.render_of_cells hcontents] at hshown
    obtain ⟨title, -, rfl⟩ := map_eq_ok_iff.mp hshown
    exact Table.showsRows_layOut hfits
      (forall_of_forall₂ h.columns fun _ _ hcolumn => hcolumn.holdsLines) title

end Command

end SdkGlue
