import Appraisal.Address.Spelling
import Appraisal.Column
import Appraisal.Text.Blank
import Appraisal.Text.Cut
import Appraisal.Text.Upper

/-!
# Addresses

An address names one cell: a sheet, or none for the sheet it is read on, a column and a row, both
counted from one, and whether each is marked as absolute.

* `Address.read?` — the address that a text spells;
* `Address.written` — an address spelled out, marks and sheet included;
* `Address.plain`, `Address.key` — the bare reference, and the key `Sheet!A1` of a cell seen from
  a sheet;
* `splitKey?` — the two parts of a key;
* `bareReference` — a reference without marks and blanks, in upper case;
* `a1ToRowColumn`, `rowColumnToA1` — between a bare reference and its row and column.
-/

namespace Appraisal

open Appraisal.Text

/-! ## 1. Addresses and their texts -/

/-- A cell's address. -/
structure Address where
  /-- The sheet; none for the sheet that the address is read on. -/
  sheet : Option String
  /-- The column, counted from one. -/
  column : Int
  /-- The row, counted from one. -/
  row : Int
  /-- Whether the column is marked as absolute. -/
  columnAbsolute : Bool
  /-- Whether the row is marked as absolute. -/
  rowAbsolute : Bool
deriving DecidableEq

/-- The bare reference of a column and a row. -/
def plainReference (column row : Int) : String :=
  String.ofList (Column.letters column.toNat) ++ toString row

/-- The bare reference of a column and a row that are at least one. -/
def cellReference (column row : Int) : Except Fault String :=
  if row < 1 then .error (.rowBelowOne row)
  else (Column.lettersOf column).map (· ++ toString row)

/-- The bare reference of a row and a column that are at least one. -/
def rowColumnToA1 (row column : Int) : Except Fault String :=
  cellReference column row

namespace Address

/-- The address's sheet, or the current one where it has none or an empty one. -/
def sheetOn (a : Address) (current : String) : String :=
  match a.sheet with
  | some name => if name = "" then current else name
  | none => current

/-- The bare reference of the address. -/
def plain (a : Address) : String :=
  plainReference a.column a.row

/-- The bare reference of an address whose column and row are at least one. -/
def a1 (a : Address) : Except Fault String :=
  cellReference a.column a.row

/-- The key of the cell seen from the current sheet. -/
def key (a : Address) (current : String) : String :=
  a.sheetOn current ++ "!" ++ a.plain

/-- The key of the cell, if column and row are at least one. -/
def checkedKey (a : Address) (current : String) : Except Fault String :=
  a.a1.map (a.sheetOn current ++ "!" ++ ·)

/-- A dollar mark or nothing. -/
def mark (absolute : Bool) : String :=
  if absolute then "$" else ""

/-- The address spelled out. The sheet's name stands as it is. -/
def written (a : Address) : Except Fault String :=
  (Column.lettersOf a.column).map fun letters =>
    let reference := mark a.columnAbsolute ++ letters ++ mark a.rowAbsolute ++ toString a.row
    match a.sheet with
    | some name => if name = "" then reference else name ++ "!" ++ reference
    | none => reference

/-- A well-formed address: column and row are at least one. -/
def Proper (a : Address) : Prop :=
  1 ≤ a.column ∧ 1 ≤ a.row

theorem a1_eq_plain {a : Address} (h : a.Proper) : a.a1 = .ok a.plain := by
  obtain ⟨hc, hr⟩ := h
  have hr' : ¬ a.row < 1 := by omega
  have hc' : ¬ a.column < 1 := by omega
  simp [a1, cellReference, hr', Column.lettersOf, hc', plain, plainReference, Except.map]

/-! ## 2. Reading an address -/

/-- The address that a spelling stands for, if its row is at least one. -/
def ofSpelling? (s : Spelling) : Option Address :=
  let row := digitsValue s.cell.digits
  if row < 1 then none
  else some
    { sheet := s.sheet.name?.map String.ofList
      column := Column.number s.cell.letters
      row := row
      columnAbsolute := s.cell.columnMark
      rowAbsolute := s.cell.rowMark }

/-- The address that the text spells, blanks around it aside. Its row may have any number of digits
    (see `digitsValue`). -/
def read? (text : String) : Option Address := do
  let (spelling, rest) ← readSpelling? Char.isAlpha (strip text.toList)
  if rest = [] then ofSpelling? spelling else none

end Address

/-! ## 3. Keys and sheet names -/

/-- The sheet and the reference of a key: what stands before and after its last exclamation
    mark. -/
def splitKey? (key : String) : Option (String × String) :=
  (cutLast '!' key.toList).map fun p => (String.ofList p.1, String.ofList p.2)

/-- The sheet in front of a reference, without blanks and then apostrophes at its ends, and the
    rest; no sheet where there is no exclamation mark. -/
def splitSheet (ref : String) : Option String × String :=
  match cutLast '!' ref.toList with
  | some (sheet, cell) =>
    (some (String.ofList (trim (· == '\x27') (strip sheet))), String.ofList cell)
  | none => (none, ref)

/-- **A key falls back into its sheet and its reference**, whatever the sheet is called, as long as
    the reference has no exclamation mark. -/
theorem splitKey?_append {sheet ref : String} (h : '!' ∉ ref.toList) :
    splitKey? (sheet ++ "!" ++ ref) = some (sheet, ref) := by
  have : cutLast '!' (sheet ++ "!" ++ ref).toList = some (sheet.toList, ref.toList) := by
    rw [cutLast_eq_some_iff]
    exact ⟨by simp, h⟩
  unfold splitKey?
  rw [this]
  simp

/-! ## 4. Bare references -/

/-- A reference in its bare form: no dollar marks, no blanks around it, upper case. -/
def bareReference (ref : String) : String :=
  String.ofList (upper (strip (ref.toList.filter (· ≠ '$'))))

/-- The row and the column of a bare reference: one to three ASCII letters and digits that do not
    make zero; one line end may follow. -/
def a1ToRowColumn (ref : String) : Except Fault (Nat × Nat) :=
  let cs := ref.toList
  let letters := cs.takeWhile Char.isAlpha
  let digits := (cs.dropWhile Char.isAlpha).takeWhile isDigit
  let rest := (cs.dropWhile Char.isAlpha).dropWhile isDigit
  let row := digitsValue digits
  if letters = [] ∨ 3 < letters.length ∨ digits = [] ∨ ¬ (rest = [] ∨ rest = ['\n']) ∨ row < 1 then
    .error (.notAReference ref)
  else .ok (row, Column.number letters)

end Appraisal
