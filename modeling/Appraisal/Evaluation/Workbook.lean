import Appraisal.Formula.Parser
import Appraisal.Function.Library
import Appraisal.Snapshot

/-!
# Workbooks

A workbook is a snapshot together with the functions that its formulas may call and the decision
whether stored values are trusted.

* `Workbook.needsEvaluation` — a stored value wins over a formula, unless supported formulas are to
  be computed afresh; a formula without a stored value is always evaluated;
* `Workbook.reads` — the keys that have to be known before a key is;
* `Workbook.treeValue` — **the value of a formula, given the value of each key**.
-/

namespace Appraisal

open Appraisal.Formula

/-- A snapshot, the functions its formulas may call, and whether supported formulas are computed
    afresh where a value is stored. -/
structure Workbook where
  /-- The captured cells. -/
  snapshot : Snapshot
  /-- The functions that formulas may call. -/
  library : Function.Library
  /-- Whether supported formulas are computed afresh. -/
  recompute : Bool

namespace Workbook

/-! ## 1. Cells and their formulas -/

/-- What the text of a formula says. -/
def parse (w : Workbook) (formula : String) : Tree :=
  .ofText w.library.signatures formula

/-- What the formula of a cell says. -/
def tree (w : Workbook) (c : Cell) : Tree :=
  w.parse c.formulaText

/-- Whether a cell's value comes from its formula. A stored value that could not be computed again
    is kept. -/
def needsEvaluation (w : Workbook) (c : Cell) : Bool :=
  c.hasFormula && (c.value == .blank || (w.recompute && (w.tree c).isSupported))

/-- The sheet and the cell of a key. -/
def cell? (w : Workbook) (key : String) : Option (String × Cell) := do
  let (sheet, ref) ← splitKey? key
  let c ← w.snapshot.cell? sheet ref
  some (sheet, c)

/-- The formula that the value of a key comes from, and the sheet it is seen from. -/
def formula? (w : Workbook) (key : String) : Option (String × Tree) :=
  (w.cell? key).bind fun p => if w.needsEvaluation p.2 then some (p.1, w.tree p.2) else none

/-- The stored value of a key; nothing where there is no cell. -/
def stored (w : Workbook) (key : String) : Value :=
  match w.cell? key with
  | some (_, c) => .scalar c.value
  | none => .blank

/-- The keys that the value of a key is computed from. -/
def reads (w : Workbook) (key : String) : List String :=
  match w.formula? key with
  | some (sheet, tree) => tree.references sheet
  | none => []

/-- Every key that some formula of the snapshot reads. -/
def allReads (w : Workbook) : List String :=
  w.snapshot.sheets.flatMap fun s => s.2.cells.flatMap fun c => (w.tree c.2).references s.1

theorem mem_allReads_of_reads {w : Workbook} {key read : String} (h : read ∈ w.reads key) :
    read ∈ w.allReads := by
  unfold reads at h
  split at h
  · rename_i sheet tree hf
    simp only [formula?, Option.bind_eq_some_iff] at hf
    obtain ⟨⟨name, c⟩, hcell, hif⟩ := hf
    split at hif
    · simp only [Option.some.injEq, Prod.mk.injEq] at hif
      obtain ⟨rfl, rfl⟩ := hif
      simp only [cell?, Option.bind_eq_bind, Option.bind_eq_some_iff, Snapshot.cell?,
        Sheet.cell?] at hcell
      obtain ⟨⟨name', ref⟩, -, c', ⟨sh, hsheet, hc⟩, heq⟩ := hcell
      simp only [Option.some.injEq, Prod.mk.injEq] at heq
      obtain ⟨rfl, rfl⟩ := heq
      simp only [allReads, List.mem_flatMap]
      exact ⟨_, Listing.mem_of_get? hsheet, _, Listing.mem_of_get? hc, h⟩
    · simp at hif
  · simp at h

/-! ## 2. The value of a formula -/

/-- The value of an operand seen from a sheet. A cell of a sheet that is not there has none. -/
def leafValue (w : Workbook) (value : String → Value) (sheet : String) : Leaf → Value
  | .literal s => .scalar s
  | .cell a => if a.sheet.all w.snapshot.sheets.has then value (a.key sheet) else .blank

/-- The value of an argument seen from a sheet; a range is the list of its cells. -/
def argumentValue (w : Workbook) (value : String → Value) (sheet : String) : Argument → Value
  | .leaf l => w.leafValue value sheet l
  | .range r => .list (r.addresses.map fun a => value (a.key sheet))

/-- The value of a call; nothing where there is no such function or it fails. -/
def callValue (w : Workbook) (name : String) (args : List Value) : Value :=
  match w.library.find? name with
  | some function => (function.apply args).toOption.getD .blank
  | none => .blank

/-- The value of a formula seen from a sheet, given the value of each key. -/
def treeValue (w : Workbook) (value : String → Value) (sheet : String) :
    Tree → Except Fault Value
  | .leaf l => .ok (w.leafValue value sheet l)
  | .binary op l r =>
    Function.arithmetic op (w.leafValue value sheet l) (w.leafValue value sheet r)
  | .call name args => .ok (w.callValue name (args.map (w.argumentValue value sheet)))
  | .unsupported _ _ => .ok .blank

/-- The value of a key, given the value of each key that it is computed from. -/
def keyValue (w : Workbook) (value : String → Value) (key : String) : Except Fault Value :=
  match w.formula? key with
  | some (sheet, tree) => w.treeValue value sheet tree
  | none => .ok (w.stored key)

end Workbook

end Appraisal
