import Appraisal.Proofs.Address.Rectangle
import Appraisal.Proofs.Address.Rendered

/-!
# Addresses are printed and read back

A printed address has its sheet as it is called, an exclamation mark, and its cell. It is read back
as long as the sheet has a bare name and the column has no more than three letters; which letters
the column has is seen from the end of the text, whatever stands in front of them.

* `Address.Legible`, `Address.bareSpelling` — the addresses whose text spells them, and how;
* `columnRun` — the letters of the column that a text ends with; `Unread` — a text that neither
  reader takes, and `unread_of_columnRun` — **more than three such letters are not read**;
* `reducedReference` — a reference without everything that may be left out of it;
* `Address.printing` — **legible addresses are read back, later columns are not, and what is read is
  the reduced reference**.
-/

namespace Appraisal

open Appraisal.Text Appraisal.Formula

/-! ## 1. Legible addresses -/

namespace Address

/-- A cell of a column up to ZZZ, on a sheet whose name can stand bare if it names one. -/
structure Legible (a : Address) : Prop where
  column_pos : 1 ≤ a.column
  column_le : a.column ≤ 18278
  row_pos : 1 ≤ a.row
  sheet : ∀ name, a.sheet = some name →
    name ≠ "" ∧ ∀ c ∈ name.toList, isNameChar Char.isAlpha c = true

/-- The parts that an address is printed with: its sheet stands bare. -/
def bareSpelling (a : Address) : Spelling where
  sheet :=
    match a.sheet with
    | some name => .bare name.toList
    | none => .absent
  cell := a.spelling.cell

theorem toList_mark (absolute : Bool) : (mark absolute).toList = markText absolute := by
  cases absolute <;> rfl

/-- What an address is printed with in front of its cell. -/
def sheetText (a : Address) : List Char :=
  match a.sheet with
  | some name => if name = "" then [] else name.toList ++ ['!']
  | none => []

theorem eq_of_mem_getLast?_sheetText (a : Address) :
    ∀ c, a.sheetText.getLast? = some c → c = '!' := by
  intro c hc
  unfold sheetText at hc
  split at hc
  · split at hc
    · cases hc
    · rw [List.getLast?_concat] at hc
      exact (Option.some.inj hc).symm
  · cases hc

/-- **An address of a column that exists is printed** with its sheet, its marks, the letters of its
    column and the digits of its row. -/
theorem written_eq {a : Address} (h : 1 ≤ a.column) :
    a.written = .ok (String.ofList (a.sheetText ++ markText a.columnAbsolute ++
      (Column.letters a.column.toNat ++ (markText a.rowAbsolute ++ (toString a.row).toList)))) := by
  have hletters : Column.lettersOf a.column = .ok (String.ofList (Column.letters a.column.toNat)) :=
    if_neg (by omega)
  unfold written sheetText
  rw [hletters]
  refine congrArg Except.ok (String.toList_inj.mp ?_)
  cases a.sheet with
  | none => simp [toList_mark]
  | some name => by_cases hempty : name = "" <;> simp [hempty, toList_mark]

section Legible

variable {a : Address}

theorem Legible.writable (h : a.Legible) : a.Writable where
  column_pos := h.column_pos
  column_le := h.column_le
  row_pos := h.row_pos
  sheet name hname :=
    ⟨(h.sheet name hname).1, fun hquote => absurd ((h.sheet name hname).2 _ hquote) (by decide)⟩

theorem Legible.sound (h : a.Legible) : a.bareSpelling.Sound Char.isAlpha where
  sheet := by
    have hsheet := h.sheet
    unfold bareSpelling
    cases hname : a.sheet with
    | none => trivial
    | some name =>
      obtain ⟨hne, hchars⟩ := hsheet name hname
      exact ⟨fun hnil => hne (String.toList_eq_nil_iff.mp hnil), hchars⟩
  cell := h.writable.sound.cell

theorem Legible.ofSpelling? (h : a.Legible) : Address.ofSpelling? a.bareSpelling = some a := by
  have hname : a.bareSpelling.sheet.name? = a.spelling.sheet.name? := by
    unfold bareSpelling spelling
    cases a.sheet <;> rfl
  have hquoted := h.writable.ofSpelling?
  unfold Address.ofSpelling? at hquoted ⊢
  rwa [hname]

/-- A legible address is printed with its bare spelling. -/
theorem Legible.written (h : a.Legible) : a.written = .ok (String.ofList a.bareSpelling.text) := by
  have hrow : (toString a.row).toList = a.row.toNat.repr.toList :=
    toList_toString_row (by have := h.row_pos; omega)
  have hsheet : a.bareSpelling.sheet.text = a.sheetText := by
    unfold bareSpelling sheetText
    cases hname : a.sheet with
    | none => rfl
    | some name => exact (if_neg (h.sheet name hname).1).symm
  rw [written_eq h.column_pos, hrow, Spelling.text, hsheet, List.append_assoc]
  exact congrArg (fun cell => Except.ok (String.ofList (a.sheetText ++ cell))) (by
    simp [bareSpelling, spelling, CellSpelling.text])

/-- **A legible address is read back from its text.** -/
theorem Legible.read?_text (h : a.Legible) :
    read? (String.ofList a.bareSpelling.text) = some a := by
  rw [read?_of_strip h.sound (by rw [String.toList_ofList, h.sound.mono.strip_text]),
    h.ofSpelling?]

/-- **The row and the column of a bare reference are read back from it.** -/
theorem Legible.rowColumnToA1 (h : a.Legible) :
    ∃ ref, Appraisal.rowColumnToA1 a.row a.column = .ok ref ∧
      a1ToRowColumn ref = .ok (a.row.toNat, a.column.toNat) := by
  have hsound := h.writable.sound
  have hspelled := h.writable.ofSpelling?
  have hrow : digitsValue a.spelling.cell.digits = a.row.toNat := digitsValue_repr _
  have hcolumn : Column.number a.spelling.cell.letters = a.column.toNat := Column.number_letters _
  have hplain : a.plain = String.ofList (bareCell a.spelling.cell) := by
    rw [plain_ofSpelling hsound hspelled, hrow]
    rfl
  refine ⟨a.plain, a1_eq_plain ⟨h.column_pos, h.row_pos⟩, ?_⟩
  have hpos := (ofSpelling?_eq_some hspelled).1
  rw [hplain, a1ToRowColumn_bareCell hsound.mono.cell (hsound.cell.namesCell hpos), hrow, hcolumn]

end Legible

end Address

/-! ## 2. Columns of more than three letters -/

/-- The letters of the column in front of the row that a text ends with, the last one first. -/
def columnRun (cs : List Char) : List Char :=
  ((cs.reverse.dropWhile isDigit).dropWhile (· == '$')).takeWhile Char.isAlpha

section ColumnRun

variable {front letters digits : List Char} {text : String}

theorem columnRun_eq (hfront : Free Char.isAlpha front.reverse) (hne : letters ≠ [])
    (hletters : ∀ c ∈ letters, c.isAlpha = true) (mark : Bool)
    (hdigits : ∀ d ∈ digits, isDigit d = true) :
    columnRun (front ++ (letters ++ (markText mark ++ digits))) = letters.reverse := by
  have hname : ∀ c ∈ letters.reverse, c.isAlpha = true := fun c hc =>
    hletters c (List.mem_reverse.mp hc)
  have hrow : ∀ d ∈ digits.reverse, isDigit d = true := fun d hd =>
    hdigits d (List.mem_reverse.mp hd)
  have hbegin : ∀ {p : Char → Bool}, (∀ c, c.isAlpha = true → p c = false) →
      Free p (letters.reverse ++ front.reverse) := fun hp =>
    Free.append (fun c hc => hp c (hname c (List.mem_of_head? hc)))
      (fun hnil => hne (List.reverse_eq_nil_iff.mp hnil))
  have hletter : Free isDigit (letters.reverse ++ front.reverse) := hbegin fun c hc =>
    isDigit_of_isCaseLetter (isCaseLetter_of_isAlpha hc)
  have hmark : Free (· == '$') (letters.reverse ++ front.reverse) := hbegin fun c hc =>
    beq_eq_false_iff_ne.mpr (ne_of_isCaseLetter (isCaseLetter_of_isAlpha hc) (by decide))
  have hreverse : (front ++ (letters ++ (markText mark ++ digits))).reverse =
      digits.reverse ++ ((markText mark).reverse ++ (letters.reverse ++ front.reverse)) := by
    simp
  unfold columnRun
  rw [hreverse]
  cases mark with
  | false =>
    show List.takeWhile _ (((digits.reverse ++ (letters.reverse ++ front.reverse)).dropWhile
      _).dropWhile _) = _
    rw [dropWhile_run hrow hletter, hmark.dropWhile, takeWhile_run hname hfront]
  | true =>
    have hstop : Free isDigit ('$' :: (letters.reverse ++ front.reverse)) := free_cons (by decide)
    show List.takeWhile _ (((digits.reverse ++ '$' :: (letters.reverse ++ front.reverse)).dropWhile
      _).dropWhile _) = _
    rw [dropWhile_run hrow hstop, List.dropWhile_cons_of_pos rfl, hmark.dropWhile,
      takeWhile_run hname hfront]

/-- In front of a row with a sign there is no column. -/
theorem columnRun_sign (hdigits : ∀ d ∈ digits, isDigit d = true) :
    columnRun (front ++ '-' :: digits) = [] := by
  have hrow : ∀ d ∈ digits.reverse, isDigit d = true := fun d hd =>
    hdigits d (List.mem_reverse.mp hd)
  have hstop : Free isDigit ('-' :: front.reverse) := free_cons (by decide)
  have hreverse : (front ++ '-' :: digits).reverse = digits.reverse ++ '-' :: front.reverse := by
    simp
  unfold columnRun
  rw [hreverse, dropWhile_run hrow hstop]
  rfl

/-- A sheet in front of a cell is nothing, or ends with an exclamation mark. -/
theorem SheetPrefix.text_cases (p : SheetPrefix) : p.text = [] ∨ ∃ cs, p.text = cs ++ ['!'] := by
  cases p with
  | absent => exact Or.inl rfl
  | bare name => exact Or.inr ⟨name, rfl⟩
  | quoted name => exact Or.inr ⟨'\x27' :: (name ++ ['\x27']), by simp [SheetPrefix.text]⟩

/-- The text in front of a column does not end with a letter, be it a mark, a sheet or a blank. -/
theorem free_front {sheet : List Char} (mark : Bool)
    (hsheet : ∀ c, sheet.getLast? = some c → c.isAlpha = false) :
    Free Char.isAlpha (sheet ++ markText mark).reverse := by
  cases mark with
  | false =>
    intro c hc
    rw [markText, if_neg Bool.false_ne_true, List.append_nil,
      ← List.getLast?_eq_head?_reverse] at hc
    exact hsheet c hc
  | true =>
    rw [List.reverse_append]
    exact free_cons rfl

/-- The run of a cell that may be read is one to three letters long. -/
theorem length_columnRun {cs : List Char} (mark : Bool)
    (hcs : cs = front ++ (letters ++ (markText mark ++ digits)))
    (hfront : Free Char.isAlpha front.reverse) (hne : letters ≠ []) (hle : letters.length ≤ 3)
    (hletters : ∀ c ∈ letters, c.isAlpha = true) (hdigits : ∀ d ∈ digits, isDigit d = true) :
    1 ≤ (columnRun cs).length ∧ (columnRun cs).length ≤ 3 := by
  rw [hcs, columnRun_eq hfront hne hletters mark hdigits, List.length_reverse]
  exact ⟨List.length_pos_iff.mpr hne, hle⟩

section Ends

variable {d : Char} (hlast : text.toList.getLast? = some d) (hd : isDigit d = true)

include hlast hd

theorem length_columnRun_of_read? {a : Address} (h : Address.read? text = some a) :
    1 ≤ (columnRun text.toList).length ∧ (columnRun text.toList).length ≤ 3 := by
  obtain ⟨s, hs, hstrip, -⟩ := Address.read?_iff.mp h
  obtain ⟨left, right, hsplit, hleft, hright⟩ := exists_strip text.toList
  have hnone : right = [] := by
    refine List.eq_nil_iff_forall_not_mem.mpr fun x hx => ?_
    have hend : text.toList.getLast? = right.getLast? := by
      rw [hsplit, ← List.append_assoc, List.getLast?_append_of_ne_nil _ (List.ne_nil_of_mem hx)]
    have hblank := hright d (List.mem_of_getLast? (hend ▸ hlast))
    rw [isBlank_of_isDigit hd] at hblank
    cases hblank
  have htext : text.toList = left ++ s.sheet.text ++ markText s.cell.columnMark ++
      (s.cell.letters ++ (markText s.cell.rowMark ++ s.cell.digits)) := by
    rw [hsplit, hstrip, hnone, Spelling.text, CellSpelling.text]
    simp
  refine length_columnRun s.cell.rowMark htext (free_front _ fun c hc => ?_) hs.cell.letters_ne
    hs.cell.letters_le hs.cell.letters hs.cell.digits
  rcases s.sheet.text_cases with hsheet | ⟨cs, hsheet⟩
  · rw [hsheet, List.append_nil] at hc
    rw [Bool.eq_false_iff]
    intro halpha
    have hblank := hleft c (List.mem_of_getLast? hc)
    rw [isBlank_of_isWord (isWord_of_isNameChar
      (isNameChar_of_isCaseLetter (isCaseLetter_of_isAlpha halpha)))] at hblank
    cases hblank
  · rw [hsheet, ← List.append_assoc, List.getLast?_concat] at hc
    cases hc
    rfl

theorem length_columnRun_of_a1ToRowColumn {p : Nat × Nat} (h : a1ToRowColumn text = .ok p) :
    1 ≤ (columnRun text.toList).length ∧ (columnRun text.toList).length ≤ 3 := by
  unfold a1ToRowColumn at h
  simp only at h
  split at h
  · cases h
  · next hparts =>
    have hne : text.toList.takeWhile Char.isAlpha ≠ [] := fun hnil => hparts (Or.inl hnil)
    have hle : (text.toList.takeWhile Char.isAlpha).length ≤ 3 :=
      Nat.le_of_not_lt fun hlt => hparts (Or.inr (Or.inl hlt))
    have hrest := not_not.mp fun hno => hparts (Or.inr (Or.inr (Or.inr (Or.inl hno))))
    have htext : text.toList = text.toList.takeWhile Char.isAlpha ++
        ((text.toList.dropWhile Char.isAlpha).takeWhile isDigit ++
          (text.toList.dropWhile Char.isAlpha).dropWhile isDigit) := by
      rw [List.takeWhile_append_dropWhile, List.takeWhile_append_dropWhile]
    have hnone : (text.toList.dropWhile Char.isAlpha).dropWhile isDigit = [] := by
      refine hrest.resolve_right fun hline => ?_
      rw [hline, ← List.append_assoc] at htext
      rw [htext, List.getLast?_concat] at hlast
      cases hlast
      cases hd
    rw [hnone, List.append_nil] at htext
    have hparts : text.toList = ([] : List Char) ++ (text.toList.takeWhile Char.isAlpha ++
        (markText false ++ (text.toList.dropWhile Char.isAlpha).takeWhile isDigit)) := htext
    exact length_columnRun false hparts free_nil hne hle (fun c hc => of_mem_takeWhile hc)
      fun d hd => of_mem_takeWhile hd

/-- Neither reader of references takes the text. -/
def Unread (text : String) : Prop :=
  Address.read? text = none ∧ a1ToRowColumn text = .error (.notAReference text)

/-- **A text that ends with a row is not read unless one to three letters stand in front of it.** -/
theorem unread_of_columnRun
    (hrun : ¬ (1 ≤ (columnRun text.toList).length ∧ (columnRun text.toList).length ≤ 3)) :
    Unread text := by
  constructor
  · cases hread : Address.read? text with
    | none => rfl
    | some a => exact absurd (length_columnRun_of_read? hlast hd hread) hrun
  · cases hread : a1ToRowColumn text with
    | ok p => exact absurd (length_columnRun_of_a1ToRowColumn hlast hd hread) hrun
    | error fault =>
      unfold a1ToRowColumn at hread
      simp only at hread
      split at hread
      · exact hread.symm
      · cases hread

end Ends

end ColumnRun

namespace Address

/-- The text of a row is its digits, after a sign or nothing. -/
theorem exists_row (row : Int) : ∃ sign digits, (toString row).toList = sign ++ digits ∧
    (sign = [] ∨ sign = ['-']) ∧ digits ≠ [] ∧ ∀ d ∈ digits, isDigit d = true := by
  rw [Int.toString_eq_repr, Int.repr_eq_if]
  by_cases hrow : 0 ≤ row
  · rw [if_pos hrow]
    exact ⟨[], _, rfl, Or.inl rfl, repr_ne_nil _, all_isDigit_repr _⟩
  · rw [if_neg hrow, String.toList_append]
    exact ⟨['-'], _, rfl, Or.inr rfl, repr_ne_nil _, all_isDigit_repr _⟩

/-- **The text of an address whose column comes after ZZZ is not read**, whatever its sheet is
    called and whatever its row is. -/
theorem unread_written {a : Address} (h : 18278 < a.column) :
    ∃ text, a.written = .ok text ∧ Unread text := by
  obtain ⟨sign, digits, hrow, hsign, hne, hdigits⟩ := exists_row a.row
  refine ⟨_, written_eq (by omega), ?_⟩
  have hletters : 3 < (Column.letters a.column.toNat).length := by
    refine Nat.lt_of_not_le fun hle => ?_
    have hcolumn := Column.length_letters_le_iff.mp hle
    rw [show Column.lastOf 3 = 18278 from rfl] at hcolumn
    omega
  have hcapitals : ∀ c ∈ Column.letters a.column.toNat, c.isAlpha = true := fun c hc =>
    (Column.isCapital_of_mem_letters c hc).isAlpha
  obtain ⟨d, hd⟩ := Option.isSome_iff_exists.mp (List.getLast?_isSome.mpr hne)
  refine unread_of_columnRun ?_ (hdigits d (List.mem_of_getLast? hd)) ?_
  · rw [String.toList_ofList, hrow]
    simp [hd]
  · rw [String.toList_ofList, hrow]
    rcases hsign with rfl | rfl
    · have hfront : Free Char.isAlpha (a.sheetText ++ markText a.columnAbsolute).reverse :=
        free_front _ fun c hc => by rw [a.eq_of_mem_getLast?_sheetText c hc]; rfl
      have hname : Column.letters a.column.toNat ≠ [] := Column.letters_ne_nil (by omega)
      rw [List.nil_append, columnRun_eq hfront hname hcapitals _ hdigits, List.length_reverse]
      omega
    · rw [← List.append_assoc, ← List.append_assoc, List.singleton_append, columnRun_sign hdigits]
      exact fun hrun => absurd hrun.1 (by decide)

end Address

/-! ## 3. What may be left out of a reference -/

/-- The text has no character beyond ASCII. -/
def IsAscii (text : String) : Prop :=
  ∀ c ∈ text.toList, c.toNat < 128

instance (text : String) : Decidable (IsAscii text) :=
  List.decidableBAll (fun c : Char => c.toNat < 128) text.toList

/-- What stands after the last exclamation mark of a text, or the text if it has none. -/
def afterSheet (cs : List Char) : List Char :=
  match cutLast '!' cs with
  | some (_, cell) => cell
  | none => cs

/-- A reference without its blanks, its sheet and its dollar marks, in upper case and without the
    zeros that its row begins with. -/
def reducedReference (text : String) : String :=
  let cell := upper ((afterSheet (text.toList.filter (!isBlank ·))).filter (· ≠ '$'))
  String.ofList (cell.takeWhile Char.isAlpha ++ (cell.dropWhile Char.isAlpha).dropWhile (· == '0'))

section Reduced

variable {text : String} {a : Address}

theorem afterSheet_append {p cell : List Char} (hp : p = [] ∨ ∃ cs, p = cs ++ ['!'])
    (hcell : '!' ∉ cell) : afterSheet (p ++ cell) = cell := by
  unfold afterSheet
  rcases hp with rfl | ⟨cs, rfl⟩
  · rw [List.nil_append, cutLast_eq_none_iff.mpr hcell]
  · have hcut : cutLast '!' (cs ++ ['!'] ++ cell) = some (cs, cell) :=
      cutLast_eq_some_iff.mpr ⟨by simp, hcell⟩
    rw [hcut]

/-- Without its blanks a text that is a spelling, blanks at its ends aside, is a sheet or nothing in
    front of the same cell. -/
theorem exists_filter_spelled {s : Spelling} (hs : s.cell.Sound isCaseLetter)
    (htext : strip text.toList = s.text) :
    ∃ p : List Char, text.toList.filter (!isBlank ·) = p ++ s.cell.text ∧
      (p = [] ∨ ∃ cs, p = cs ++ ['!']) := by
  have hnone : ∀ blanks : List Char, (∀ c ∈ blanks, isBlank c = true) →
      blanks.filter (!isBlank ·) = [] := fun blanks hblanks =>
    List.filter_eq_nil_iff.mpr fun c hc => by simp [hblanks c hc]
  have hcell : s.cell.text.filter (!isBlank ·) = s.cell.text :=
    List.filter_eq_self.mpr fun c hc => by simp [isBlank_of_isWord (hs.word c hc).1]
  obtain ⟨left, right, hsplit, hleft, hright⟩ := exists_strip text.toList
  refine ⟨s.sheet.text.filter (!isBlank ·), ?_, ?_⟩
  · rw [hsplit, htext, Spelling.text, List.filter_append, List.filter_append, List.filter_append,
      hnone left hleft, hnone right hright, hcell, List.nil_append, List.append_nil]
  · rcases s.sheet.text_cases with hsheet | ⟨cs, hsheet⟩
    · exact Or.inl (by rw [hsheet]; rfl)
    · exact Or.inr ⟨cs.filter (!isBlank ·), by rw [hsheet, List.filter_append]; rfl⟩

/-- **The bare reference of the address that an ASCII text spells is the reduced text.** -/
theorem Address.a1_of_read? (hascii : IsAscii text)
    (h : Address.read? text = some a) : a.a1 = .ok (reducedReference text) := by
  obtain ⟨s, hs, htext, hspelled⟩ := Address.read?_iff.mp h
  have hrow := (Address.ofSpelling?_eq_some hspelled).1
  have hdigits : ∀ d ∈ s.cell.digits, d.isDigit = true := by
    intro d hd
    obtain ⟨left, right, hsplit, -, -⟩ := exists_strip text.toList
    refine isDigit_of_ascii (hs.cell.digits d hd) (hascii d ?_)
    rw [hsplit, htext]
    simp [Spelling.text, CellSpelling.text, hd]
  have hmark : '!' ∉ s.cell.text := fun hmem => (hs.mono.cell.word _ hmem).2.1 rfl
  obtain ⟨p, hkept, hp⟩ := exists_filter_spelled hs.mono.cell htext
  obtain ⟨hletters, hrest⟩ := span_bareCell hs.mono.cell (hs.cell.namesCell hrow).letters
  have hcell : upper ((afterSheet (text.toList.filter (!isBlank ·))).filter (· ≠ '$')) =
      bareCell s.cell := by
    rw [hkept, afterSheet_append hp hmark, hs.mono.cell.filter_text, upper_append,
      upper_digits hs.cell.digits, bareCell]
  rw [Address.a1_eq_plain (Address.proper_ofSpelling hs hspelled), plain_ofSpelling hs hspelled,
    repr_digitsValue hdigits hrow, reducedReference, hcell, hletters, hrest]

end Reduced

/-- **Addresses are printed and read back**: an address of a column up to ZZZ is read back from its
    text, and its row and column from its bare reference; the texts of a later column are not read;
    and what an ASCII text spells has the reduced text for its bare reference. -/
theorem Address.printing :
    (∀ a : Address, a.Legible →
      (∃ text, a.written = .ok text ∧ read? text = some a) ∧
      ∃ ref, rowColumnToA1 a.row a.column = .ok ref ∧
        a1ToRowColumn ref = .ok (a.row.toNat, a.column.toNat)) ∧
    (∀ a : Address, 18278 < a.column →
      (∃ text, a.written = .ok text ∧ Unread text) ∧
      (1 ≤ a.row → ∃ ref, rowColumnToA1 a.row a.column = .ok ref ∧ Unread ref)) ∧
    ∀ (text : String) (a : Address), IsAscii text → read? text = some a →
      a.a1 = .ok (reducedReference text) := by
  refine ⟨fun a h => ⟨⟨_, h.written, h.read?_text⟩, h.rowColumnToA1⟩, fun a h => ?_,
    fun text a hascii h => a1_of_read? hascii h⟩
  refine ⟨unread_written h, fun hrow => ?_⟩
  -- the bare reference is what the address is printed with when it has no sheet and no marks
  have hsheet : (none : Option String) ≠ some "" := nofun
  have hbare : (unmarked none a.column a.row).written = .ok a.plain :=
    written_unmarked hsheet (by omega)
  have hcolumn : 18278 < (unmarked none a.column a.row).column := h
  obtain ⟨text, hwritten, hunread⟩ := unread_written hcolumn
  cases hbare.symm.trans hwritten
  exact ⟨a.plain, a1_eq_plain ⟨by omega, hrow⟩, hunread⟩

theorem Address.printing_instances :
    (∃ text, (⟨some "A.1_b", 28, 7, true, false⟩ : Address).written = .ok text ∧
      read? text = some ⟨some "A.1_b", 28, 7, true, false⟩) ∧
    (∃ ref, rowColumnToA1 7 28 = .ok ref ∧ a1ToRowColumn ref = .ok (7, 28)) ∧
    (∃ text, (⟨none, 18279, 5, false, true⟩ : Address).written = .ok text ∧ Unread text) ∧
    (∃ ref, rowColumnToA1 5 18279 = .ok ref ∧ Unread ref) ∧
    let text := "\t'x !y'!$ab$0070 "
    reducedReference text = "AB70" ∧
      (⟨some "x !y", 28, 70, true, true⟩ : Address).a1 = .ok (reducedReference text) := by
  obtain ⟨hlegible, hlater, hreduced⟩ := Address.printing
  have hname : (⟨some "A.1_b", 28, 7, true, false⟩ : Address).Legible :=
    ⟨by decide, by decide, by decide, fun name hname => by
      cases hname
      exact ⟨by decide, List.all_eq_true.mp (by decide)⟩⟩
  obtain ⟨htext, href⟩ := hlegible _ hname
  obtain ⟨hunread, hbare⟩ := hlater ⟨none, 18279, 5, false, true⟩ (by decide)
  exact ⟨htext, href, hunread, hbare (by decide), by decide,
    hreduced _ _ (by decide) (by decide)⟩

end Appraisal
