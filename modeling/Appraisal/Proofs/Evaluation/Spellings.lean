import Appraisal.Proofs.Address.Keys
import Appraisal.Proofs.Address.Printing
import Appraisal.Proofs.Evaluation.Locality
import Appraisal.Proofs.Evaluation.Lookup
import Appraisal.Proofs.Evaluation.Reordering

/-!
# No spelling shows in a look-up

Three readers meet in a look-up. The sheet in front of a reference is cut off at the last
exclamation mark and trimmed, the rest is read as an address, and the cells were kept under their
references without marks and in upper case. For a reference that spells an address they agree: the
key is that of the address, whichever way it is spelled.

* `splitSheet_spelled`, `refKey?_spelled` — **a spelled reference stands for the key of its
  address**;
* `Spelling.SameCell` — spellings that differ in marks, case, zeros or apostrophes only;
* `PlainlySpelled`, `lastCaptured?` — captured references that are kept under the key of their cell,
  and the last entry for a cell; `cell?_of_lastCaptured?` — **it is the one that is found**;
* `Workbook.lookup_respelled` — look-ups do not depend on how references are spelled.
-/

namespace Appraisal

open Appraisal.Text Appraisal.Formula

/-! ## 1. Spelled references -/

section Spelled

variable {s t : Spelling} {ref : String} {a : Address}

/-- The name of a sheet is what stands in front of the exclamation mark, without apostrophes. -/
theorem SheetPrefix.Sound.exists_front {p : SheetPrefix} (hp : p.Sound isCaseLetter)
    {name : List Char} (hname : p.name? = some name) :
    ∃ front, p.text = front ++ ['!'] ∧ trim (· == '\x27') front = name ∧
      (∀ c, front.head? = some c → isBlank c = false) ∧
      ∀ c, front.getLast? = some c → isBlank c = false := by
  cases p with
  | absent => cases hname
  | bare name' =>
    cases hname
    have hchar : ∀ c ∈ name, isBlank c = false := fun c hc =>
      isBlank_of_isWord (isWord_of_isNameChar (hp.2 c hc))
    exact ⟨name, rfl, trim_free hp.not_mem_bare, fun c hc => hchar c (List.mem_of_head? hc),
      fun c hc => hchar c (List.mem_of_getLast? hc)⟩
  | quoted name' =>
    cases hname
    refine ⟨'\x27' :: (name ++ ['\x27']), by simp [SheetPrefix.text], trim_quoted hp.1 hp.2,
      fun c hc => ?_, fun c hc => ?_⟩
    · cases hc
      rfl
    · rw [← List.cons_append, List.getLast?_concat] at hc
      cases hc
      rfl

/-- **The sheet of a spelled reference is cut off by its name**, and what is left is the cell,
    blanks at its ends aside. -/
theorem splitSheet_spelled (hs : s.Sound isCaseLetter) (href : strip ref.toList = s.text) :
    (splitSheet ref).1 = s.sheet.name?.map String.ofList ∧
      strip (splitSheet ref).2.toList = s.cell.text := by
  have hmark : '!' ∉ s.cell.text := fun hmem => (hs.cell.word _ hmem).2.1 rfl
  have hblank : ∀ blanks : List Char, (∀ c ∈ blanks, isBlank c = true) → '!' ∉ blanks :=
    fun blanks hblanks hmem => absurd (hblanks _ hmem) (by decide)
  have hbare : (⟨.absent, s.cell⟩ : Spelling).Sound isCaseLetter := ⟨trivial, hs.cell⟩
  obtain ⟨left, right, hsplit, hleft, hright⟩ := exists_strip ref.toList
  rw [href, Spelling.text] at hsplit
  cases hname : s.sheet.name? with
  | none =>
    have habsent : s.sheet.text = [] := by
      rw [SheetPrefix.name?_eq_none_iff.mp hname]
      rfl
    have hcut : cutLast '!' ref.toList = none := by
      rw [cutLast_eq_none_iff, hsplit, habsent]
      simp [hmark, hblank left hleft, hblank right hright]
    unfold splitSheet
    rw [hcut]
    refine ⟨rfl, ?_⟩
    show strip ref.toList = s.cell.text
    rw [href, Spelling.text, habsent, List.nil_append]
  | some name =>
    obtain ⟨front, hfront, htrim, hfirst, hlast⟩ := hs.sheet.exists_front hname
    have hcut : cutLast '!' ref.toList = some (left ++ front, s.cell.text ++ right) := by
      rw [cutLast_eq_some_iff, hsplit, hfront]
      exact ⟨by simp, by simp [hmark, hblank right hright]⟩
    have hsheet : strip (left ++ front) = front := by
      have hstrip := strip_between hleft (List.forall_mem_nil _) hfirst hlast
      rwa [List.append_nil] at hstrip
    have hcell : strip (s.cell.text ++ right) = s.cell.text :=
      strip_between (List.forall_mem_nil _) hright hbare.ends.1
        hbare.ends.2
    unfold splitSheet
    rw [hcut]
    refine ⟨?_, ?_⟩
    · show some (String.ofList (trim _ (strip (left ++ front)))) = some (String.ofList name)
      rw [hsheet, htrim]
    · show strip (String.ofList (s.cell.text ++ right)).toList = s.cell.text
      rw [String.toList_ofList, hcell]

/-- The sheet in front of a cell is the only thing that the address has from it. -/
theorem Address.ofSpelling?_sheet (s : Spelling) :
    Address.ofSpelling? s = (Address.ofSpelling? ⟨.absent, s.cell⟩).map fun a =>
      { a with sheet := s.sheet.name?.map String.ofList } := by
  unfold Address.ofSpelling?
  simp only
  split <;> rfl

/-- **A spelled reference stands for the key of its address**, on whatever sheet it is read. -/
theorem refKey?_spelled (hs : s.Sound Char.isAlpha) (href : strip ref.toList = s.text)
    (sheet : String) : refKey? sheet ref = (Address.ofSpelling? s).map (·.key sheet) := by
  have hbare : (⟨.absent, s.cell⟩ : Spelling).Sound Char.isAlpha := ⟨trivial, hs.cell⟩
  obtain ⟨hsheet, hcell⟩ := splitSheet_spelled hs.mono href
  rw [refKey?, Address.read?_of_strip hbare hcell, hsheet, Address.ofSpelling?_sheet s,
    Option.map_map]
  rfl

/-- The spellings are of the same cell: their sheets have the same name, bare or between
    apostrophes, their letters differ in case at most, their digits write the same row, and they may
    have any marks. -/
structure Spelling.SameCell (s t : Spelling) : Prop where
  sheet : s.sheet.name? = t.sheet.name?
  letters : upper s.cell.letters = upper t.cell.letters
  row : digitsValue s.cell.digits = digitsValue t.cell.digits

instance (s t : Spelling) : Decidable (s.SameCell t) :=
  decidable_of_iff (s.sheet.name? = t.sheet.name? ∧ upper s.cell.letters = upper t.cell.letters ∧
      digitsValue s.cell.digits = digitsValue t.cell.digits)
    ⟨fun ⟨hsheet, hletters, hrow⟩ => ⟨hsheet, hletters, hrow⟩,
      fun h => ⟨h.sheet, h.letters, h.row⟩⟩

/-- Spellings of the same cell stand for the same key. -/
theorem Spelling.SameCell.key_eq (h : s.SameCell t) (sheet : String) :
    (Address.ofSpelling? s).map (·.key sheet) = (Address.ofSpelling? t).map (·.key sheet) := by
  have hcolumn : Column.number s.cell.letters = Column.number t.cell.letters := by
    rw [Column.number, Column.number, h.letters]
  unfold Address.ofSpelling?
  simp only [h.row, hcolumn, h.sheet]
  split <;> rfl

end Spelled

/-! ## 2. Captured references -/

/-- An ASCII text that spells a cell without a sheet and without zeros in front of its row: since
    there is no sheet, its first digit is the first one of the row. -/
structure PlainlySpelled (text : String) : Prop where
  ascii : IsAscii text
  spelled : ∃ a, Address.read? text = some a ∧ a.sheet = none
  row : text.toList.find? Char.isDigit ≠ some '0'

instance (text : String) : Decidable (PlainlySpelled text) :=
  decidable_of_iff (IsAscii text ∧ (∃ a ∈ Address.read? text, a.sheet = none) ∧
      text.toList.find? Char.isDigit ≠ some '0')
    ⟨fun ⟨hascii, hspelled, hrow⟩ => ⟨hascii, hspelled, hrow⟩,
      fun h => ⟨h.ascii, h.spelled, h.row⟩⟩

/-- The ASCII digits of a spelled cell without a sheet are those of its row. -/
theorem filter_isDigit_spelled {s : Spelling} {text : String} (hascii : IsAscii text)
    (hs : s.Sound Char.isAlpha) (habsent : s.sheet = .absent) (htext : strip text.toList = s.text) :
    text.toList.filter Char.isDigit = s.cell.digits := by
  have hnone : ∀ cs : List Char, (∀ c ∈ cs, c.isDigit = false) → cs.filter Char.isDigit = [] :=
    fun cs hcs => List.filter_eq_nil_iff.mpr fun c hc => by rw [hcs c hc]; decide
  have hnot : ∀ {c : Char}, isDigit c = false → c.isDigit = false := by
    intro c hc
    rw [Bool.eq_false_iff]
    intro hdigit
    rw [isDigit, digitValue?_of_isDigit hdigit] at hc
    cases hc
  have hblank : ∀ blanks : List Char, (∀ c ∈ blanks, isBlank c = true) →
      blanks.filter Char.isDigit = [] := fun blanks hblanks =>
    hnone blanks fun c hc => hnot (isDigit_of_isBlank (hblanks c hc))
  have hletters : s.cell.letters.filter Char.isDigit = [] := hnone _ fun c hc =>
    hnot (isDigit_of_isCaseLetter (isCaseLetter_of_isAlpha (hs.cell.letters c hc)))
  have hmark : ∀ mark, (markText mark).filter Char.isDigit = [] := by decide
  obtain ⟨left, right, hsplit, hleft, hright⟩ := exists_strip text.toList
  have hmem : ∀ d ∈ s.cell.digits, d ∈ text.toList := by
    intro d hd
    rw [hsplit, htext]
    simp [Spelling.text, CellSpelling.text, hd]
  have hdigits : s.cell.digits.filter Char.isDigit = s.cell.digits :=
    List.filter_eq_self.mpr fun d hd =>
      isDigit_of_ascii (hs.cell.digits d hd) (hascii d (hmem d hd))
  rw [hsplit, htext, Spelling.text, habsent]
  simp only [SheetPrefix.text, CellSpelling.text, List.filter_append, hblank left hleft,
    hblank right hright, hletters, hmark, hdigits, List.nil_append, List.append_nil]

/-- **A cell that is plainly spelled is kept under its bare reference.** -/
theorem PlainlySpelled.bareReference_eq {text : String} {a : Address} (h : PlainlySpelled text)
    (ha : Address.read? text = some a) : bareReference text = a.plain := by
  have hsheet : a.sheet = none := by
    obtain ⟨b, hb, hsheet⟩ := h.spelled
    cases ha.symm.trans hb
    exact hsheet
  obtain ⟨s, hs, htext, hspelled⟩ := Address.read?_iff.mp ha
  have habsent := Address.absent_of_ofSpelling? hspelled hsheet
  have hfilter := filter_isDigit_spelled h.ascii hs habsent htext
  have hdigits : ∀ d ∈ s.cell.digits, d.isDigit = true := fun d hd =>
    (List.mem_filter.mp (hfilter.symm ▸ hd)).2
  have hzero : Free (· == '0') s.cell.digits := by
    intro d hd
    have hrow := h.row
    rw [← List.head?_filter, hfilter, hd] at hrow
    exact beq_eq_false_iff_ne.mpr fun hzero => hrow (congrArg some hzero)
  have hcell : strip text.toList = s.cell.text := by
    rw [htext, Spelling.text, habsent]
    rfl
  rw [bareReference_of_strip hs.mono.cell hcell, plain_ofSpelling hs hspelled,
    repr_digitsValue hdigits (Address.ofSpelling?_eq_some hspelled).1, hzero.dropWhile, bareCell]

/-- Whether the entry is for a cell of the column and the row. -/
def denotes (column row : Int) (e : String × Value) : Bool :=
  (Address.read? e.1).any fun a => a.column == column && a.row == row

/-- The last of the entries that are for a cell of the column and the row. -/
def lastCaptured? (entries : List (String × Value)) (column row : Int) : Option (String × Value) :=
  entries.reverse.find? (denotes column row)

/-- The captured cells of a sheet: those of the last entry of its name, none where there is none. -/
def capturedCells (data : Value) (name : String) : List (String × Value) :=
  match data with
  | .mapping entries =>
    ((entries.reverse.find? (·.1 == name)).bind fun e => cellEntries? e.2).getD []
  | _ => []

section Captured

variable {w : Workbook} {data : Value} {a : Address} {sheet : String}

theorem cell?_key (w : Workbook) (a : Address) (sheet : String) :
    w.cell? (a.key sheet) =
      ((w.snapshot.sheets.get? (a.sheetOn sheet)).bind (·.cells.get? a.plain)).map
        (Prod.mk (a.sheetOn sheet)) := by
  have hplain : bareReference a.plain = a.plain := bareReference_plain a.column a.row
  simp only [Workbook.cell?, Address.splitKey?_key, Option.bind_eq_bind, Option.bind_some,
    Snapshot.cell?, Sheet.cell?, hplain]
  cases (w.snapshot.sheets.get? (a.sheetOn sheet)).bind (·.cells.get? a.plain) <;> rfl

/-- Among entries that are plainly spelled, those under the key of a cell are those for its column
    and its row. -/
theorem denotes_eq {e : String × Value} (he : PlainlySpelled e.1) (ha : a.Proper) :
    (bareReference e.1 == a.plain) = denotes a.column a.row e := by
  obtain ⟨b, hb, -⟩ := he.spelled
  have hproper : b.Proper := by
    obtain ⟨s, hs, -, hspelled⟩ := Address.read?_iff.mp hb
    exact Address.proper_ofSpelling hs hspelled
  have hiff : b.plain = a.plain ↔ b.column = a.column ∧ b.row = a.row := by
    refine ⟨fun h => plainReference_inj hproper.1 hproper.2 ha.1 ha.2 h, ?_⟩
    rintro ⟨hcolumn, hrow⟩
    rw [Address.plain, Address.plain, hcolumn, hrow]
  rw [he.bareReference_eq hb, denotes, hb, Option.any_some, Bool.eq_iff_iff, Bool.and_eq_true,
    beq_iff_eq, beq_iff_eq, beq_iff_eq]
  exact hiff

theorem find?_key_eq {entries : List (String × Value)}
    (h : ∀ e ∈ entries, PlainlySpelled e.1) (ha : a.Proper) :
    entries.reverse.find? (bareReference ·.1 == a.plain) =
      lastCaptured? entries a.column a.row := by
  have hall : ∀ e ∈ entries.reverse, (bareReference e.1 == a.plain) = denotes a.column a.row e :=
    fun e he => denotes_eq (h e (List.mem_reverse.mp he)) ha
  rw [lastCaptured?, ← List.head?_filter, ← List.head?_filter, List.filter_congr hall]

/-- **The cell that is found is the last one that was captured for its column and its row**, where
    all references of the sheet are plainly spelled; and none is found where none was captured. -/
theorem cell?_of_lastCaptured? (hdata : Snapshot.ofValue data = .ok w.snapshot) (ha : a.Proper)
    (hplain : ∀ e ∈ capturedCells data (a.sheetOn sheet), PlainlySpelled e.1) :
    (∀ e, lastCaptured? (capturedCells data (a.sheetOn sheet)) a.column a.row = some e →
      ∃ c, Cell.ofValue (a.sheetOn sheet) (bareReference e.1) e.2 = .ok c ∧
        w.cell? (a.key sheet) = some (a.sheetOn sheet, c)) ∧
    (lastCaptured? (capturedCells data (a.sheetOn sheet)) a.column a.row = none →
      w.cell? (a.key sheet) = none) := by
  cases data with
  | scalar | list => cases hdata
  | mapping entries =>
    obtain ⟨hsheet, hnosheet⟩ :=
      get?_keepAll (Snapshot.ofValue_mapping_iff.mp hdata) (a.sheetOn sheet)
    rw [cell?_key]
    cases hlast : entries.reverse.find? (·.1 == a.sheetOn sheet) with
    | none =>
      have hcaptured : capturedCells (.mapping entries) (a.sheetOn sheet) = [] := by
        simp only [capturedCells, hlast, Option.bind_none, Option.getD_none]
      rw [hcaptured, hnosheet hlast]
      exact ⟨nofun, fun _ => rfl⟩
    | some p =>
      obtain ⟨sh, hsh, hget⟩ := hsheet p hlast
      have hbeq := List.find?_some hlast
      have hname : p.1 = a.sheetOn sheet := eq_of_beq hbeq
      rw [hname] at hsh
      obtain ⟨cells, hcells, hkept, -⟩ := Sheet.exists_of_ofValue hsh
      have hcaptured : capturedCells (.mapping entries) (a.sheetOn sheet) = cells := by
        simp only [capturedCells, hlast, Option.bind_some, hcells, Option.getD_some]
      rw [hcaptured] at hplain ⊢
      rw [Sheet.cellsOf_eq] at hkept
      obtain ⟨hfound, hnone⟩ := get?_keepAll hkept a.plain
      rw [find?_key_eq hplain ha] at hfound hnone
      rw [hget, Option.bind_some]
      refine ⟨fun e he => ?_, fun he => ?_⟩
      · obtain ⟨c, hc, hcell⟩ := hfound e he
        exact ⟨c, hc, by rw [hcell]; rfl⟩
      · rw [hnone he]
        rfl

end Captured

/-! ## 3. Look-ups -/

namespace Workbook

section Lookups

variable {ref : String} {a : Address}

/-- **A reference that spells an address is looked up under the key of the address.** -/
theorem cellValue_of_read? (w : Workbook) (h : Address.read? ref = some a) (sheet : String) :
    w.cellValue sheet ref = w.resolve (a.key sheet) := by
  obtain ⟨s, hs, href, hspelled⟩ := Address.read?_iff.mp h
  rw [cellValue_eq, refKey?_spelled hs href, hspelled]
  rfl

/-- Spellings of the same cell are looked up alike, also where they stand for none. -/
theorem cellValue_sameCell (w : Workbook) {s t : Spelling} (hs : s.Sound Char.isAlpha)
    (ht : t.Sound Char.isAlpha) (h : s.SameCell t) (sheet : String) {ref ref' : String}
    (href : strip ref.toList = s.text) (href' : strip ref'.toList = t.text) :
    w.cellValue sheet ref = w.cellValue sheet ref' := by
  rw [cellValue_eq, cellValue_eq, refKey?_spelled hs href, refKey?_spelled ht href', h.key_eq]

end Lookups

/-- **No spelling shows in a look-up.** A reference that spells an address is looked up under the
    key of the address, so that its own sheet goes before the given one and all references to one
    cell are looked up alike, in whichever way they spell it. And where the references of the sheet
    were captured plainly spelled, the cell under the key is the one built from the last entry for
    the column and the row. -/
theorem lookup_respelled (w : Workbook) :
    (∀ sheet ref a, Address.read? ref = some a →
      w.cellValue sheet ref = w.resolve (a.key sheet) ∧ a.sheetOn sheet = a.sheet.getD sheet ∧
        ∀ sheet' ref' b, Address.read? ref' = some b → a.sheetOn sheet = b.sheetOn sheet' →
          a.column = b.column → a.row = b.row → w.cellValue sheet ref = w.cellValue sheet' ref') ∧
    (∀ s t : Spelling, s.Sound Char.isAlpha → t.Sound Char.isAlpha → s.SameCell t →
      ∀ sheet (ref ref' : String), strip ref.toList = s.text → strip ref'.toList = t.text →
        w.cellValue sheet ref = w.cellValue sheet ref') ∧
    ∀ data, Snapshot.ofValue data = .ok w.snapshot → ∀ sheet ref a, Address.read? ref = some a →
      (∀ e ∈ capturedCells data (a.sheetOn sheet), PlainlySpelled e.1) →
      (∀ e, lastCaptured? (capturedCells data (a.sheetOn sheet)) a.column a.row = some e →
        ∃ c, Cell.ofValue (a.sheetOn sheet) (bareReference e.1) e.2 = .ok c ∧
          w.cell? (a.key sheet) = some (a.sheetOn sheet, c)) ∧
      (lastCaptured? (capturedCells data (a.sheetOn sheet)) a.column a.row = none →
        w.cell? (a.key sheet) = none) := by
  refine ⟨fun sheet ref a h => ⟨w.cellValue_of_read? h sheet, ?_, ?_⟩, ?_, ?_⟩
  · have hnamed := Address.read?_named h
    unfold Address.sheetOn
    cases hsheet : a.sheet with
    | none => rfl
    | some name =>
      have hne : name ≠ "" := fun hempty => hnamed (hsheet.trans (congrArg some hempty))
      exact if_neg hne
  · intro sheet' ref' b h' hsheet hcolumn hrow
    rw [w.cellValue_of_read? h, w.cellValue_of_read? h', Address.key_congr hsheet hcolumn hrow]
  · exact fun s t hs ht hsame sheet ref ref' href href' =>
      w.cellValue_sameCell hs ht hsame sheet href href'
  · intro data hdata sheet ref a h hplain
    obtain ⟨s, hs, -, hspelled⟩ := Address.read?_iff.mp h
    exact cell?_of_lastCaptured? hdata (Address.proper_ofSpelling hs hspelled) hplain

/-- A captured sheet with two entries for one cell. -/
def recapturedCell : Value :=
  .mapping [("My S", .mapping [("cells", .mapping
    [("B2", .whole 1), ("$b$2", .whole 7), (" C10", .whole 3)])])]

theorem lookup_respelled_recapturedCell :
    let a : Address := ⟨some "My S", 2, 2, false, true⟩
    ∃ w : Workbook, Snapshot.ofValue recapturedCell = .ok w.snapshot ∧
      w.cellValue "T" "'My S'!B$002 " = w.resolve (a.key "T") ∧
      w.cellValue "My S" "b2" = w.cellValue "T" "'My S'!B$002 " ∧
      w.cellValue "T" " 'My S'!$b2" = w.cellValue "T" "'My S'!B$002 " ∧
      ∃ c, Cell.ofValue "My S" "B2" (.whole 7) = .ok c ∧
        w.cell? (a.key "T") = some ("My S", c) := by
  obtain ⟨s, hs, -⟩ : ∃ s ∈ (Snapshot.ofValue recapturedCell).toOption, True := by decide
  obtain ⟨hkey, hsame, hlast⟩ := lookup_respelled ⟨s, .standard, false⟩
  have hread : Address.read? "'My S'!B$002 " = some ⟨some "My S", 2, 2, false, true⟩ := by decide
  have hread' : Address.read? "b2" = some ⟨none, 2, 2, false, false⟩ := by decide
  have hspelled : (⟨.quoted "My S".toList, ⟨true, ['b'], false, ['2']⟩⟩ : Spelling).Sound
      Char.isAlpha :=
    ⟨⟨by decide, by decide⟩, ⟨by decide, by decide, List.all_eq_true.mp (by decide), by decide,
      List.all_eq_true.mp (by decide)⟩⟩
  have hspelled' : (⟨.quoted "My S".toList, ⟨false, ['B'], true, ['0', '0', '2']⟩⟩ :
      Spelling).Sound Char.isAlpha :=
    ⟨⟨by decide, by decide⟩, ⟨by decide, by decide, List.all_eq_true.mp (by decide), by decide,
      List.all_eq_true.mp (by decide)⟩⟩
  have hplain : ∀ e ∈ capturedCells recapturedCell "My S", PlainlySpelled e.1 := by decide
  refine ⟨_, eq_ok_of_toOption hs, (hkey "T" _ _ hread).1,
    (hkey "My S" _ _ hread').2.2 "T" _ _ hread rfl rfl rfl,
    hsame _ _ hspelled hspelled' (by decide) "T" _ _ (by decide) (by decide), ?_⟩
  exact (hlast _ (eq_ok_of_toOption hs) "T" _ _ hread hplain).1 ("$b$2", .whole 7) rfl

end Workbook

end Appraisal
