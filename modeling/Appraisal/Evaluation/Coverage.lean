import Appraisal.Evaluation.Workbook
import Appraisal.Graph.Closure

/-!
# Coverage

How many formulas of a workbook lie within the grammar, and which functions the others would need.

* `Coverage` — the counts;
* `Workbook.coverage` — over all formula cells, or over what one cell reads in the end.
-/

namespace Appraisal

/-- How many formulas lie within the grammar. -/
structure Coverage where
  /-- The number of formulas. -/
  total : Nat
  /-- The number of those within the grammar. -/
  supported : Nat
  /-- For each missing function the number of formulas that mention it. -/
  gaps : Listing Nat
deriving DecidableEq

namespace Coverage

/-- The number of formulas beyond the grammar. -/
def unsupported (c : Coverage) : Nat :=
  c.total - c.supported

/-- The part of the formulas that lies within the grammar; zero if there is no formula. -/
def ratio (c : Coverage) : Float :=
  if c.total = 0 then 0.0 else Float.ofNat c.supported / Float.ofNat c.total

/-- The coverage of no formula. -/
def none : Coverage :=
  ⟨0, 0, []⟩

/-- The coverage with one more formula within the grammar. -/
def addSupported (c : Coverage) : Coverage :=
  ⟨c.total + 1, c.supported + 1, c.gaps⟩

/-- The gaps with one more formula for a name. -/
def countGap (gaps : Listing Nat) (name : String) : Listing Nat :=
  gaps.put name ((gaps.get? name).getD 0 + 1)

/-- The coverage with one more formula beyond the grammar, for the named reasons. -/
def addUnsupported (c : Coverage) (names : List String) : Coverage :=
  ⟨c.total + 1, c.supported, names.foldl countGap c.gaps⟩

end Coverage

namespace Workbook

/-- The reason for a formula beyond the grammar whose functions are all known. -/
def expressionGap : String :=
  "<expression>"

/-- The reasons for a formula beyond the grammar: the functions it mentions that are unknown, or
    its form. -/
def gapNames (w : Workbook) (formula : String) : List String :=
  match (Formula.mentionedFunctions formula).filter fun name => !w.library.has name with
  | [] => [expressionGap]
  | names => names

/-- The coverage with one more cell. -/
def cover (w : Workbook) (c : Coverage) (cell : Cell) : Coverage :=
  if (w.tree cell).isSupported then c.addSupported
  else c.addUnsupported (w.gapNames cell.formulaText)

/-- The formula cells of all sheets, in order. -/
def formulaCells (w : Workbook) : List Cell :=
  w.snapshot.sheets.flatMap fun s => s.2.formulaCells

/-- The formula cell of a key, if there is one. The key has to name a sheet. -/
def formulaCell (w : Workbook) (key : String) : Except Fault (Option Cell) :=
  match splitKey? key with
  | some (sheet, ref) => .ok ((w.snapshot.cell? sheet ref).filter Cell.hasFormula)
  | none => .error .keyWithoutSheet

/-- The cell and all that it reads in the end, each once and in order. -/
def withReads (g : Graph) (key : String) : List String :=
  Text.sorted (key :: (g.closure key).filter (· ≠ key))

/-- The formula cells among a cell and all that it reads in the end. -/
def formulaCellsBelow (w : Workbook) (key : String) : Except Fault (List Cell) := do
  let graph ← Graph.ofSnapshot w.snapshot
  let cells ← (withReads graph key).mapM w.formulaCell
  pure (cells.filterMap id)

/-- The coverage of all formula cells; or, where a cell is given by its key, of those among the cell
    and all that it reads in the end. -/
def coverage (w : Workbook) (key : Option String) : Except Fault Coverage := do
  let cells ← match key with
    | some key => w.formulaCellsBelow key
    | none => pure w.formulaCells
  pure (cells.foldl w.cover Coverage.none)

end Workbook

end Appraisal
