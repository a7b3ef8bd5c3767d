import Appraisal.Address.Basic
import Appraisal.Json

/-!
# Snapshots of a workbook

A snapshot holds the sheets of a workbook as they were captured: for each cell its stored value and
the text of its formula. It is built once and only read afterwards.

* `Cell`, `Sheet`, `Snapshot` — what is captured;
* `Cell.ofValue` — one captured cell: a bare scalar, or a mapping with a value and a formula; a
  stored text that begins with an equals sign is the formula;
* `Snapshot.ofValue`, `Snapshot.ofJson` — the snapshot of captured data, or what is wrong with it;
* `Snapshot.cell?` — the cell of a sheet under a reference in any spelling that has the same bare
  form.
-/

namespace Appraisal

open Appraisal.Text

/-! ## 1. Cells, sheets, snapshots -/

/-- A captured cell. -/
structure Cell where
  /-- The bare reference it is kept under. -/
  address : String
  /-- Its stored value. -/
  value : Scalar
  /-- The text of its formula. -/
  formula : Option String
deriving DecidableEq

/-- Whether the cell has a formula: a text that is not empty. -/
def Cell.hasFormula (c : Cell) : Bool :=
  c.formula.any (· ≠ "")

/-- The text of the cell's formula, empty if it has none. -/
def Cell.formulaText (c : Cell) : String :=
  c.formula.getD ""

/-- A captured sheet. -/
structure Sheet where
  /-- Its name. -/
  name : String
  /-- Its cells by their bare references, in the order of capture. -/
  cells : Listing Cell

/-- A captured workbook. -/
structure Snapshot where
  /-- The sheets by name, in the order of capture. -/
  sheets : Listing Sheet

namespace Sheet

/-- The cell under the reference. -/
def cell? (s : Sheet) (ref : String) : Option Cell :=
  s.cells.get? (bareReference ref)

/-- The cell under the reference, which has to exist. -/
def cell (s : Sheet) (ref : String) : Except Fault Cell :=
  match s.cell? ref with
  | some c => .ok c
  | none => .error (.noSuchCell ref s.name)

/-- The cells that have a formula, in order. -/
def formulaCells (s : Sheet) : List Cell :=
  s.cells.entries.filter Cell.hasFormula

/-- The sheet as a message shows it. -/
def shown (s : Sheet) : String :=
  "<Sheet " ++ quoted s.name ++ " cells=" ++ toString s.cells.length ++ ">"

end Sheet

namespace Snapshot

/-- The names of the sheets in order. -/
def names (s : Snapshot) : List String :=
  s.sheets.names

/-- The sheet of the name, which has to exist. -/
def sheet (s : Snapshot) (name : String) : Except Fault Sheet :=
  match s.sheets.get? name with
  | some sheet => .ok sheet
  | none => .error (.noSuchSheet name)

/-- The cell of the sheet under the reference. -/
def cell? (s : Snapshot) (sheet ref : String) : Option Cell :=
  (s.sheets.get? sheet).bind fun sh => sh.cell? ref

/-- The snapshot as a message shows it. -/
def shown (s : Snapshot) : String :=
  "<Snapshot sheets=[" ++ ", ".intercalate (s.names.map quoted) ++ "]>"

/-- The address of a reference to one of the snapshot's sheets. -/
def crossAddress? (s : Snapshot) (ref : String) : Option Address :=
  (Address.read? ref).filter fun a => a.sheet.any s.sheets.has

end Snapshot

/-! ## 2. Building -/

/-- The stored value of a captured cell, which has to be a scalar; nothing if it is absent. -/
def storedValue (sheet ref : String) : Option Value → Except Fault Scalar
  | none => .ok .blank
  | some (.scalar s) => .ok s
  | some v => .error (.cellValueNotScalar sheet ref v.typeName)

/-- The formula of a captured cell, which has to be a text if it is there. -/
def storedFormula (sheet ref : String) : Option Value → Except Fault (Option String)
  | none => .ok none
  | some (.scalar .blank) => .ok none
  | some (.scalar (.text f)) => .ok (some f)
  | some _ => .error (.cellFormulaNotText sheet ref)

/-- The cell of a value and a formula: a value that begins with an equals sign is taken for the
    formula where there is none, and an empty formula for none. -/
def Cell.ofParts (ref : String) (value : Scalar) (formula : Option String) : Cell :=
  match formula, value with
  | none, .text s =>
    if s.toList.head? = some '=' then ⟨ref, .blank, some s⟩ else ⟨ref, value, none⟩
  | some f, _ => ⟨ref, value, if f = "" then none else some f⟩
  | none, _ => ⟨ref, value, none⟩

/-- The cell of a captured value. -/
def Cell.ofValue (sheet ref : String) : Value → Except Fault Cell
  | .scalar s => .ok (.ofParts ref s none)
  | .mapping entries => do
    let value ← storedValue sheet ref (Listing.get? entries "value")
    let formula ← storedFormula sheet ref (Listing.get? entries "formula")
    .ok (.ofParts ref value formula)
  | v => .error (.cellUnsupported sheet ref v)

/-- The cells of a captured sheet: later entries replace earlier ones of the same bare
    reference. -/
def Sheet.cellsOf (name : String) (entries : List (String × Value)) :
    Except Fault (Listing Cell) :=
  entries.foldlM (fun cells e => do
    let ref := bareReference e.1
    let cell ← Cell.ofValue name ref e.2
    .ok (cells.put ref cell)) []

/-- The captured cells within a captured sheet. -/
def cellEntries? : Value → Option (List (String × Value))
  | .mapping entries =>
    match Listing.get? entries "cells" with
    | some (.mapping cells) => some cells
    | _ => none
  | _ => none

/-- The sheet of a captured value. -/
def Sheet.ofValue (name : String) (v : Value) : Except Fault Sheet :=
  match cellEntries? v with
  | none => .error (.sheetWithoutCells name)
  | some entries => (Sheet.cellsOf name entries).map fun cells => ⟨name, cells⟩

/-- The snapshot of captured data: a mapping from sheet names to mappings whose entry for the cells
    maps references to cells. -/
def Snapshot.ofValue : Value → Except Fault Snapshot
  | .mapping entries => do
    let sheets ← entries.foldlM (fun sheets e => do
      let sheet ← Sheet.ofValue e.1 e.2
      .ok (Listing.put sheets e.1 sheet)) []
    .ok ⟨sheets⟩
  | v => .error (.snapshotNotMapping v.typeName)

/-- The snapshot of a JSON text. -/
def Snapshot.ofJson (text : String) : Except Fault Snapshot :=
  match Value.ofJson? text with
  | some v => Snapshot.ofValue v
  | none => .error .notJson

end Appraisal
