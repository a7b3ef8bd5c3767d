import Appraisal.Proofs.Address.Named
import Appraisal.Proofs.Text.Decimal

/-!
# Addresses are read back

An address is written in full with its dollar marks, the letters of its column, the digits of its
row and, where it names a sheet, the sheet between apostrophes.

* `Address.spelling`, `Address.Writable` — the parts that an address is written with, and the
  addresses that have them;
* `Address.read?_spelling` — **a writable address is read back from its text**.
-/

namespace Appraisal

open Appraisal.Text

namespace Address

/-- The parts that an address is written with. -/
def spelling (a : Address) : Spelling where
  sheet :=
    match a.sheet with
    | some name => .quoted name.toList
    | none => .absent
  cell :=
    { columnMark := a.columnAbsolute
      letters := Column.letters a.column.toNat
      rowMark := a.rowAbsolute
      digits := a.row.toNat.repr.toList }

/-- A cell of a column up to ZZZ, on a sheet whose name is not empty and has no apostrophe if it
    names one. -/
structure Writable (a : Address) : Prop where
  column_pos : 1 ≤ a.column
  column_le : a.column ≤ 18278
  row_pos : 1 ≤ a.row
  sheet : ∀ name, a.sheet = some name → name ≠ "" ∧ '\x27' ∉ name.toList

/-- The address without its sheet. -/
def bare (a : Address) : Address :=
  { a with sheet := none }

section Writable

variable {a : Address}

theorem Writable.bare (h : a.Writable) : a.bare.Writable :=
  ⟨h.column_pos, h.column_le, h.row_pos, nofun⟩

theorem Writable.sound (h : a.Writable) : a.spelling.Sound Char.isAlpha where
  sheet := by
    have hsheet := h.sheet
    unfold spelling
    cases hname : a.sheet with
    | none => trivial
    | some name =>
      obtain ⟨hne, hfree⟩ := hsheet name hname
      exact ⟨fun hnil => hne (String.toList_eq_nil_iff.mp hnil), hfree⟩
  cell :=
    { letters_ne := Column.letters_ne_nil (by have := h.column_pos; omega)
      letters_le := Column.length_letters_le (by have := h.column_le; omega)
      letters := fun c hc => (Column.isCapital_of_mem_letters c hc).isAlpha
      digits_ne := repr_ne_nil _
      digits := all_isDigit_repr _ }

theorem Writable.sound_mono (h : a.Writable) : a.spelling.Sound isCaseLetter :=
  h.sound.mono

theorem Writable.ofSpelling? (h : a.Writable) : Address.ofSpelling? a.spelling = some a := by
  have hrow : (digitsValue a.spelling.cell.digits : Int) = a.row := by
    have hpos := h.row_pos
    show (digitsValue a.row.toNat.repr.toList : Int) = a.row
    rw [digitsValue_repr]
    omega
  have hcolumn : (Column.number a.spelling.cell.letters : Int) = a.column := by
    have hpos := h.column_pos
    show (Column.number (Column.letters a.column.toNat) : Int) = a.column
    rw [Column.number_letters]
    omega
  have hsheet : a.spelling.sheet.name?.map String.ofList = a.sheet := by
    unfold spelling
    cases a.sheet with
    | none => rfl
    | some name => exact congrArg some String.ofList_toList
  have hpos := h.row_pos
  unfold Address.ofSpelling?
  simp only
  rw [if_neg (by omega), hsheet, hcolumn, hrow]
  rfl

/-- **A writable address is read back from its text.** -/
theorem read?_spelling (h : a.Writable) : read? (String.ofList a.spelling.text) = some a := by
  rw [read?_of_strip h.sound (by rw [String.toList_ofList, h.sound_mono.strip_text]), h.ofSpelling?]

end Writable

end Address

end Appraisal
