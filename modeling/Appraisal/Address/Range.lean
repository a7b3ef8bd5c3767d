import Appraisal.Address.Basic

/-!
# Ranges

A range is the rectangle of cells between two corners, both included, on one sheet.

* `CellRange.normalized` — the same rectangle by its top left and bottom right corners;
* `CellRange.addresses` — its cells, row by row; `mem_addresses_iff` — **exactly the cells between
  the corners**;
* `CellRange.read?` — the range that a text spells;
* `expandRange` — the references of the cells that a text spans.
-/

namespace Appraisal

open Appraisal.Text

/-! ## 1. Rectangles -/

/-- The rectangle between two corners. -/
structure CellRange where
  /-- One corner; its sheet is the range's. -/
  first : Address
  /-- The opposite corner. -/
  last : Address
deriving DecidableEq

/-- The whole numbers from `low` to `high`, both included. -/
def between (low high : Int) : List Int :=
  (List.range (high + 1 - low).toNat).map fun i : Nat => low + (i : Int)

theorem mem_between_iff {low high n : Int} : n ∈ between low high ↔ low ≤ n ∧ n ≤ high := by
  simp only [between, List.mem_map, List.mem_range]
  constructor
  · rintro ⟨i, hi, rfl⟩
    omega
  · rintro ⟨h1, h2⟩
    exact ⟨(n - low).toNat, by omega, by omega⟩

/-- An address without marks. -/
def unmarked (sheet : Option String) (column row : Int) : Address :=
  ⟨sheet, column, row, false, false⟩

namespace CellRange

/-- The range by its top left and its bottom right corner, without marks. -/
def normalized (r : CellRange) : CellRange :=
  let sheet := r.first.sheet
  { first := unmarked sheet (min r.first.column r.last.column) (min r.first.row r.last.row)
    last := unmarked sheet (max r.first.column r.last.column) (max r.first.row r.last.row) }

/-- The cells of the rectangle, row by row. -/
def addresses (r : CellRange) : List Address :=
  let n := r.normalized
  (between n.first.row n.last.row).flatMap fun row =>
    (between n.first.column n.last.column).map fun column => unmarked n.first.sheet column row

/-- The range spelled out: its corners about a colon, the second without a sheet. -/
def written (r : CellRange) : Except Fault String := do
  let first ← r.first.written
  let last ← { r.last with sheet := none }.written
  pure (first ++ ":" ++ last)

/-- **The cells of a range are exactly those between its corners**, on its sheet and without
    marks. -/
theorem mem_addresses_iff {r : CellRange} {a : Address} :
    a ∈ r.addresses ↔
      a = unmarked r.first.sheet a.column a.row ∧
        (min r.first.column r.last.column ≤ a.column ∧
          a.column ≤ max r.first.column r.last.column) ∧
        (min r.first.row r.last.row ≤ a.row ∧ a.row ≤ max r.first.row r.last.row) := by
  simp only [addresses, normalized, unmarked, List.mem_flatMap, List.mem_map, mem_between_iff]
  constructor
  · rintro ⟨row, hrow, column, hcolumn, rfl⟩
    exact ⟨rfl, hcolumn, hrow⟩
  · rintro ⟨ha, hcolumn, hrow⟩
    exact ⟨a.row, hrow, a.column, hcolumn, ha.symm⟩

/-! ## 2. Reading a range -/

/-- The range from one address to another: the second lies on the sheet of the first and may
    repeat its name, but may not name another sheet. -/
def ofCorners? (first last : Address) : Option CellRange :=
  if last.sheet ≠ none ∧ last.sheet ≠ first.sheet then none
  else some ⟨first, { last with sheet := first.sheet }⟩

/-- The range that the text spells: two addresses about the only colon in it. -/
def read? (text : String) : Option CellRange := do
  let (left, right) ← cutOnly ':' text.toList
  let first ← Address.read? (String.ofList left)
  let last ← Address.read? (String.ofList right)
  ofCorners? first last

end CellRange

/-- The addresses that a range text spans, row by row. -/
def readRange? (text : String) : Option (List Address) :=
  (CellRange.read? text).map CellRange.addresses

/-! ## 3. Spans of bare references -/

/-- The sheet in front of a span, without apostrophes at its ends, and the span. -/
def splitSpanSheet (text : String) : Option String × List Char :=
  match cutLast '!' text.toList with
  | some (sheet, span) => (some (String.ofList (trim (· == '\x27') sheet)), span)
  | none => (none, text.toList)

/-- The references of the cells between the two ends of a span, row by row, each with the span's
    sheet. -/
def expandRange (text : String) : Except Fault (List String) :=
  let (sheet, span) := splitSpanSheet text
  match cutOnly ':' span with
  | none => .error (.notARange text)
  | some (left, right) => do
    let (row₁, column₁) ← a1ToRowColumn (bareReference (String.ofList left))
    let (row₂, column₂) ← a1ToRowColumn (bareReference (String.ofList right))
    let range : CellRange := ⟨unmarked none column₁ row₁, unmarked none column₂ row₂⟩
    pure <| range.addresses.map fun a =>
      match sheet with
      | some name => name ++ "!" ++ a.plain
      | none => a.plain

end Appraisal
