import SdkGlue.Proofs.Json.Number
import SdkGlue.Proofs.Json.Text
import SdkGlue.Proofs.Keyed

/-!
# Reading back JSON texts

The text of a value is read as that value, whatever follows it in a document.  An
object keeps its entries in their order, since no two of them have one name, and the
depth that the reader allows for is never more than what the text is long enough
for.
-/

namespace SdkGlue.Json

/-- A value that is written without loss: its objects have distinct names, and its
integers are short enough to be read. -/
inductive IsPlain : Value → Prop
  | null : IsPlain .null
  | bool (b : Bool) : IsPlain (.bool b)
  | int (n : Int) (h : (Nat.toDigits 10 n.natAbs).length ≤ maxDigits) : IsPlain (.int n)
  | text (s : String) : IsPlain (.text s)
  | list (items : List Value) (h : ∀ v ∈ items, IsPlain v) : IsPlain (.list items)
  | table (fields : Value.Fields) (hkeys : (Keyed.keys fields).Nodup)
      (h : ∀ e ∈ fields, IsPlain e.2) : IsPlain (.table fields)

/-- The text of the value is read as the value wherever it stands; twice its length
is as deep as the reader has to go. -/
def ReadsBack (ascii : Bool) (v : Value) : Prop :=
  ∀ n rest, 2 * (writeValue ascii v).length ≤ n → Follows rest →
    readValue n (writeValue ascii v ++ rest) = .ok (v, rest)

variable {ascii : Bool} {v : Value} {n : Nat} {rest : List Char}

/-! ## Scalars -/

theorem readsBack_of_succ (hne : writeValue ascii v ≠ [])
    (h : ∀ n rest, 2 * (writeValue ascii v).length ≤ n + 1 → Follows rest →
      readValue (n + 1) (writeValue ascii v ++ rest) = .ok (v, rest)) : ReadsBack ascii v := by
  intro n rest hn hrest
  have hlength := List.length_pos_iff.mpr hne
  cases n with
  | zero => omega
  | succ n => exact h n rest hn hrest

theorem readsBack_null : ReadsBack ascii .null :=
  readsBack_of_succ (by simp [writeValue]) fun _ _ _ _ => rfl

theorem readsBack_bool (b : Bool) : ReadsBack ascii (.bool b) := by
  refine readsBack_of_succ ?_ fun _ _ _ _ => ?_
  · cases b <;> simp [writeValue]
  · cases b <;> rfl

theorem readsBack_text (s : String) : ReadsBack ascii (.text s) := by
  refine readsBack_of_succ (by simp [writeValue, writeText]) fun n rest _ _ => ?_
  rw [writeValue, writeText, List.append_assoc, List.singleton_append, List.cons_append, readValue,
    readString_chars, ok_bind]
  rfl

theorem ne_of_isDigit {c d : Char} (hc : c.isDigit = true) (hd : d.isDigit = false) : c ≠ d := by
  rintro rfl
  cases hd.symm.trans hc

/-- No word begins with a digit, or with a sign and a digit. -/
theorem word?_eq_none {c : Char} (h : c.isDigit = true) (s : List Char) :
    word? (c :: s) = none ∧ word? ('-' :: c :: s) = none := by
  have hne : ∀ d : Char, d.isDigit = false → (d == c) = false := fun d hd =>
    beq_eq_false_iff_ne.mpr (ne_of_isDigit h hd).symm
  constructor
  · simp [word?, words, List.find?, List.isPrefixOf, hne]
  · simp [word?, words, List.find?, List.isPrefixOf, hne]

/-- An integer is written as digits, perhaps behind a sign. -/
theorem writeValue_int (ascii : Bool) (i : Int) :
    ∃ c cs, writeValue ascii (.int i) = (if i < 0 then ['-'] else []) ++ c :: cs ∧
      Nat.toDigits 10 i.natAbs = c :: cs ∧ c.isDigit = true := by
  obtain ⟨c, cs, hcs, hdigit⟩ := exists_toDigits i.natAbs
  refine ⟨c, cs, ?_, hcs, hdigit⟩
  rw [writeValue, toList_toString, hcs]

theorem readsBack_int {i : Int} (h : (Nat.toDigits 10 i.natAbs).length ≤ maxDigits) :
    ReadsBack ascii (.int i) := by
  obtain ⟨c, cs, htext, hcs, hdigit⟩ := writeValue_int ascii i
  refine readsBack_of_succ (by rw [htext]; simp) fun n rest _ hrest => ?_
  have hnumber := readNumber_int h hrest
  rw [toList_toString, hcs] at hnumber
  rw [htext, ← hnumber]
  split
  · rw [List.append_assoc, List.singleton_append, List.cons_append, readValue,
      (word?_eq_none hdigit _).2]
    all_goals exact nofun
  · rw [List.nil_append, List.cons_append, readValue, (word?_eq_none hdigit _).1]
    · exact nofun
    all_goals
      intro r hr
      cases hr
      cases hdigit

/-! ## Arrays and objects -/

/-- The text of a value begins with no blank or byte order mark, and not as an array
ends. -/
theorem IsPlain.head (ascii : Bool) (h : IsPlain v) :
    ∃ c cs, writeValue ascii v = c :: cs ∧ isSpace c = false ∧ c ≠ ']' ∧ c ≠ '\ufeff' := by
  cases h with
  | null => exact ⟨'n', _, rfl, rfl, by decide, by decide⟩
  | bool b =>
      cases b with
      | false => exact ⟨'f', _, rfl, rfl, by decide, by decide⟩
      | true => exact ⟨'t', _, rfl, rfl, by decide, by decide⟩
  | int i _ =>
      obtain ⟨c, cs, htext, -, hdigit⟩ := writeValue_int ascii i
      rw [htext]
      split
      · exact ⟨'-', _, rfl, rfl, by decide, by decide⟩
      · have hne : ∀ d : Char, d.isDigit = false → c ≠ d := fun d => ne_of_isDigit hdigit
        refine ⟨c, cs, rfl, ?_, hne _ rfl, hne _ rfl⟩
        simp [isSpace, hne]
  | text s => exact ⟨'"', _, rfl, rfl, by decide, by decide⟩
  | list items _ =>
      cases items with
      | nil => exact ⟨'[', _, rfl, rfl, by decide, by decide⟩
      | cons v items => exact ⟨'[', _, rfl, rfl, by decide, by decide⟩
  | table fields _ _ =>
      cases fields with
      | nil => exact ⟨'\x7b', _, rfl, rfl, by decide, by decide⟩
      | cons e fields => exact ⟨'\x7b', _, rfl, rfl, by decide, by decide⟩

theorem IsPlain.skip (ascii : Bool) (h : IsPlain v) (s : List Char) :
    skip (writeValue ascii v ++ s) = writeValue ascii v ++ s := by
  obtain ⟨c, cs, hcs, hspace, -, -⟩ := h.head ascii
  rw [hcs, List.cons_append, skip_cons hspace]

/-- The items of an array are read one by one up to its closing bracket. -/
theorem readItems_writeItems {items : List Value}
    (h : ∀ w ∈ v :: items, IsPlain w ∧ ReadsBack ascii w)
    (hn : 2 * (writeValue ascii v ++ writeItems ascii items).length ≤ n) (rest : List Char) :
    readItems n (writeValue ascii v ++ writeItems ascii items ++ rest) =
      .ok (v :: items, rest) := by
  induction items generalizing v n with
  | nil =>
      have hlast := (h v List.mem_cons_self).2
      rw [writeItems] at hn ⊢
      simp only [List.length_append, List.length_singleton] at hn
      cases n with
      | zero => omega
      | succ n =>
          have hread := hlast n (']' :: rest) (by omega) (follows_cons (by simp) _)
          rw [List.append_assoc, List.singleton_append, readItems, hread, ok_bind]
          simp only [skip_cons (c := ']') rfl]
          rfl
  | cons w items ih =>
      obtain ⟨-, hfirst⟩ := h v List.mem_cons_self
      obtain ⟨hw, -⟩ := h w (List.mem_cons_of_mem _ List.mem_cons_self)
      rw [writeItems] at hn ⊢
      simp only [List.append_assoc, List.cons_append, List.nil_append] at hn ⊢
      simp only [List.length_append, List.length_cons] at hn
      cases n with
      | zero => omega
      | succ n =>
          have hread := hfirst n (',' :: ' ' :: (writeValue ascii w ++ (writeItems ascii items ++ rest)))
            (by omega) (follows_cons (by simp) _)
          have hmore := ih (v := w) (n := n) (fun x hx => h x (List.mem_cons_of_mem _ hx))
            (by rw [List.length_append]; omega)
          rw [List.append_assoc] at hmore
          rw [readItems, hread, ok_bind]
          simp only [skip_cons (c := ',') rfl, skip_space, hw.skip ascii, hmore]
          rfl

/-- The text of an entry. -/
def entryText (ascii : Bool) (key : String) (v : Value) : List Char :=
  writeText ascii key ++ ':' :: ' ' :: writeValue ascii v

theorem writeEntries_cons (ascii : Bool) (k : String) (v : Value) (more : Value.Fields) :
    writeEntries ascii ((k, v) :: more) =
      ',' :: ' ' :: (entryText ascii k v ++ writeEntries ascii more) := by
  simp [writeEntries, entryText]

theorem writeValue_table_cons (ascii : Bool) (k : String) (v : Value) (more : Value.Fields) :
    writeValue ascii (.table ((k, v) :: more)) =
      '\x7b' :: (entryText ascii k v ++ writeEntries ascii more) := by
  simp [writeValue, entryText]

/-- An entry with a new name is put behind those that are there; then the object
goes on behind a comma, or ends. -/
theorem readEntries_entryText {fields : Value.Fields} {k : String} {c : Char} (hplain : IsPlain v)
    (hread : ReadsBack ascii v) (hnew : k ∉ Keyed.keys fields)
    (hn : 2 * (writeValue ascii v).length ≤ n) (hc : c = ',' ∨ c = '\x7d') :
    readEntries (n + 1) fields (entryText ascii k v ++ c :: rest) =
      if c = ',' then readEntries n (fields ++ [(k, v)]) (skip rest)
      else .ok (fields ++ [(k, v)], rest) := by
  have hrest : Follows (c :: rest) := follows_cons (by rcases hc with rfl | rfl <;> simp) _
  simp only [entryText, writeText, List.append_assoc, List.cons_append, List.nil_append]
  rw [readEntries, readString_chars, ok_bind]
  simp only [skip_cons (c := ':') rfl, skip_space, hplain.skip ascii, hread n _ hn hrest, ok_bind,
    hrest.skip, Keyed.put_of_not_mem hnew]
  rcases hc with rfl | rfl <;> rfl

/-- The entries of an object are read one by one up to its closing brace, each
behind those that are there. -/
theorem readEntries_writeEntries {front more : Value.Fields} {k : String}
    (hkeys : (Keyed.keys (front ++ (k, v) :: more)).Nodup)
    (h : ∀ e ∈ (k, v) :: more, IsPlain e.2 ∧ ReadsBack ascii e.2)
    (hn : 2 * (entryText ascii k v ++ writeEntries ascii more).length ≤ n) :
    readEntries n front (entryText ascii k v ++ (writeEntries ascii more ++ rest)) =
      .ok (front ++ (k, v) :: more, rest) := by
  induction more generalizing front k v n with
  | nil =>
      obtain ⟨hplain, hread⟩ : IsPlain v ∧ ReadsBack ascii v := h (k, v) List.mem_cons_self
      have hnew := Keyed.not_mem_keys_of_nodup hkeys
      simp only [List.length_append, entryText, List.length_cons] at hn
      cases n with
      | zero => omega
      | succ n =>
          rw [writeEntries, List.singleton_append,
            readEntries_entryText hplain hread hnew (by omega) (.inr rfl), if_neg (by decide)]
  | cons e more ih =>
      obtain ⟨key, w⟩ := e
      obtain ⟨hplain, hread⟩ : IsPlain v ∧ ReadsBack ascii v := h (k, v) List.mem_cons_self
      have hnew := Keyed.not_mem_keys_of_nodup hkeys
      rw [List.append_cons] at hkeys
      rw [writeEntries_cons] at hn ⊢
      simp only [List.length_append, entryText, List.length_cons] at hn
      cases n with
      | zero => omega
      | succ n =>
          have hmore := ih (n := n) hkeys (fun e he => h e (List.mem_cons_of_mem _ he))
            (by simp only [List.length_append, entryText, List.length_cons]; omega)
          rw [List.cons_append, List.cons_append, List.append_assoc,
            readEntries_entryText hplain hread hnew (by omega) (.inl rfl), if_pos rfl, skip_space]
          rw [← List.append_cons] at hmore
          exact hmore

theorem readsBack_list {items : List Value} (h : ∀ w ∈ items, IsPlain w ∧ ReadsBack ascii w) :
    ReadsBack ascii (.list items) := by
  cases items with
  | nil => exact readsBack_of_succ (by simp [writeValue]) fun _ _ _ _ => rfl
  | cons v items =>
      refine readsBack_of_succ (by simp [writeValue]) fun n rest hn _ => ?_
      have hv := (h v List.mem_cons_self).1
      obtain ⟨c, cs, hcs, -, hclose, -⟩ := hv.head ascii
      rw [writeValue, List.cons_append] at hn ⊢
      have hbound : 2 * (writeValue ascii v ++ writeItems ascii items).length ≤ n := by
        rw [List.length_cons] at hn
        omega
      have hread := readItems_writeItems h hbound rest
      rw [List.cons_append, readValue, List.append_assoc, hv.skip ascii]
      rw [List.append_assoc, hcs, List.cons_append] at hread
      rw [hcs, List.cons_append]
      split
      · next heq => exact absurd (List.cons.inj heq).1 hclose
      · rw [hread]
        rfl

theorem readsBack_table {fields : Value.Fields} (hkeys : (Keyed.keys fields).Nodup)
    (h : ∀ e ∈ fields, IsPlain e.2 ∧ ReadsBack ascii e.2) : ReadsBack ascii (.table fields) := by
  cases fields with
  | nil => exact readsBack_of_succ (by simp [writeValue]) fun _ _ _ _ => rfl
  | cons e fields =>
      obtain ⟨k, v⟩ := e
      refine readsBack_of_succ (by simp [writeValue_table_cons]) fun n rest hn _ => ?_
      rw [writeValue_table_cons] at hn ⊢
      have hread : readEntries n [] (entryText ascii k v ++ (writeEntries ascii fields ++ rest)) =
          .ok ((k, v) :: fields, rest) := by
        refine readEntries_writeEntries hkeys h ?_
        rw [List.length_cons] at hn
        omega
      rw [List.cons_append, List.append_assoc, readValue]
      change (readEntries n [] (entryText ascii k v ++ (writeEntries ascii fields ++ rest)) >>=
        fun _ => _) = _
      rw [hread]
      rfl

theorem IsPlain.readsBack (ascii : Bool) (h : IsPlain v) : ReadsBack ascii v := by
  induction h with
  | null => exact readsBack_null
  | bool b => exact readsBack_bool b
  | int i hi => exact readsBack_int hi
  | text s => exact readsBack_text s
  | list items hitems ih => exact readsBack_list fun w hw => ⟨hitems w hw, ih w hw⟩
  | table fields hkeys hfields ih => exact readsBack_table hkeys fun e he => ⟨hfields e he, ih e he⟩

/-- A value that is written without loss is read from its own text. -/
theorem decode_writeValue (h : IsPlain v) : decode (writeValue ascii v) = .ok v := by
  obtain ⟨c, cs, hcs, -, -, hmark⟩ := h.head ascii
  have hread := h.readsBack ascii (2 * (writeValue ascii v).length + 2) [] (by omega) nofun
  rw [List.append_nil] at hread
  have hdocument : readDocument (writeValue ascii v) = .ok v := by
    have hskip := h.skip ascii []
    rw [List.append_nil] at hskip
    rw [readDocument, hskip, hread]
    · rfl
    · intro s hs
      exact hmark (List.cons.inj (hcs.symm.trans hs)).1
  rw [decode, hdocument]
  rfl

/-! ## Characters of the text -/

/-- No character of the text is a control. -/
def IsPrinted (s : List Char) : Prop := ∀ c ∈ s, 0x20 ≤ c.toNat

theorem IsPrinted.append {s t : List Char} (hs : IsPrinted s) (ht : IsPrinted t) :
    IsPrinted (s ++ t) := fun c hc => (List.mem_append.mp hc).elim (hs c) (ht c)

theorem isPrinted_unitEscape (n : Nat) : IsPrinted (unitEscape n) := by
  have hdigit : ∀ k < 16, 0x20 ≤ (Text.hexDigit k).toNat := by decide
  intro c hc
  rw [unitEscape, hex_four] at hc
  simp only [List.mem_cons, List.not_mem_nil, or_false] at hc
  rcases hc with rfl | rfl | rfl | rfl | rfl | rfl
  · decide
  · decide
  all_goals exact hdigit _ (Nat.mod_lt _ (by decide))

theorem isPrinted_writeChar (ascii : Bool) (c : Char) : IsPrinted (writeChar ascii c) := by
  rcases writeChar_cases ascii c with ⟨letter, hletter, -, hc⟩ | ⟨-, hc⟩ | ⟨-, -, hc⟩ |
    ⟨-, -, hlow, -, hc⟩
  · have hprinted : 0x20 ≤ letter.toNat := by
      unfold simpleEscape? at hletter
      split at hletter <;> first | decide | cases hletter
    simp [hc, IsPrinted, hprinted]
  · rw [hc]
    exact isPrinted_unitEscape _
  · rw [hc]
    exact (isPrinted_unitEscape _).append (isPrinted_unitEscape _)
  · simp [hc, IsPrinted, hlow]

theorem isPrinted_writeText (ascii : Bool) (s : String) : IsPrinted (writeText ascii s) := by
  intro c hc
  simp only [writeText, List.mem_append, List.mem_cons, List.mem_flatMap, List.not_mem_nil,
    or_false] at hc
  rcases hc with (rfl | ⟨d, -, hd⟩) | rfl
  · decide
  · exact isPrinted_writeChar ascii d c hd
  · decide

theorem isPrinted_writeItems {items : List Value}
    (h : ∀ w ∈ items, IsPrinted (writeValue ascii w)) : IsPrinted (writeItems ascii items) := by
  induction items with
  | nil => simp [writeItems, IsPrinted]
  | cons w items ih =>
      rw [List.forall_mem_cons] at h
      rw [writeItems]
      exact (IsPrinted.append (by simp [IsPrinted]) h.1).append (ih h.2)

theorem isPrinted_entryText (k : String) (h : IsPrinted (writeValue ascii v)) :
    IsPrinted (entryText ascii k v) :=
  (isPrinted_writeText ascii k).append (IsPrinted.append (s := [':', ' ']) (by simp [IsPrinted]) h)

theorem isPrinted_writeEntries {fields : Value.Fields}
    (h : ∀ e ∈ fields, IsPrinted (writeValue ascii e.2)) : IsPrinted (writeEntries ascii fields) := by
  induction fields with
  | nil => simp [writeEntries, IsPrinted]
  | cons e fields ih =>
      obtain ⟨k, w⟩ := e
      rw [List.forall_mem_cons] at h
      rw [writeEntries_cons]
      exact IsPrinted.append (s := [',', ' ']) (by simp [IsPrinted])
        ((isPrinted_entryText k h.1).append (ih h.2))

/-- The text of a value stands on one line, without controls. -/
theorem IsPlain.isPrinted (h : IsPlain v) : IsPrinted (writeValue ascii v) := by
  induction h with
  | null => simp [writeValue, IsPrinted]
  | bool b => cases b <;> simp [writeValue, IsPrinted]
  | int i _ =>
      rw [writeValue, toList_toString]
      refine IsPrinted.append (by split <;> simp [IsPrinted]) fun c hc => ?_
      have hdigit := isDigit_toDigits i.natAbs c hc
      simp only [Char.isDigit, Bool.and_eq_true, decide_eq_true_eq] at hdigit
      exact Nat.le_trans (by decide) (UInt32.le_iff_toNat_le.mp hdigit.1)
  | text s => exact isPrinted_writeText ascii s
  | list items _ ih =>
      cases items with
      | nil => simp [writeValue, IsPrinted]
      | cons w items =>
          rw [List.forall_mem_cons] at ih
          rw [writeValue]
          exact (IsPrinted.append (s := ['[']) (by simp [IsPrinted]) ih.1).append
            (isPrinted_writeItems ih.2)
  | table fields _ _ ih =>
      cases fields with
      | nil => simp [writeValue, IsPrinted]
      | cons e fields =>
          obtain ⟨k, w⟩ := e
          rw [List.forall_mem_cons] at ih
          rw [writeValue_table_cons]
          exact IsPrinted.append (s := ['\x7b']) (by simp [IsPrinted])
            ((isPrinted_entryText k ih.1).append (isPrinted_writeEntries ih.2))

end SdkGlue.Json
