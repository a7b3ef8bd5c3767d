import Appraisal.Evaluation.Coverage
import Appraisal.Evaluation.KeyFigures
import Appraisal.Graph.Order

/-!
# Queries

What can be asked about a workbook, and the answers.

* `Evaluator` — a workbook and where its headline figures stand;
* `Query`, `Answer` — questions and answers;
* `Evaluator.answer` — the answer to a question, over a cache that it may extend.
-/

namespace Appraisal

/-! ## 1. Over ranges and over all formulas -/

namespace Workbook

/-- The values of the cells between two corners, seen from a sheet; none if the corners do not make
    a range. -/
def rangeValues (w : Workbook) (sheet first last : String) : Evaluation (List Value) :=
  match readRange? (first ++ ":" ++ last) with
  | some addresses => addresses.mapM fun a => w.resolve (a.key sheet)
  | none => pure []

/-- The sum of the numbers between two corners. -/
def sumRange (w : Workbook) (sheet first last : String) : Evaluation Number := do
  ExceptT.mk (pure (Function.sumValues (← w.rangeValues sheet first last)))

/-- The largest number between two corners. -/
def maxRange (w : Workbook) (sheet first last : String) : Evaluation Float := do
  ExceptT.mk (pure (Function.maxValues (← w.rangeValues sheet first last)))

/-- The smallest number between two corners. -/
def minRange (w : Workbook) (sheet first last : String) : Evaluation Float := do
  ExceptT.mk (pure (Function.minValues (← w.rangeValues sheet first last)))

/-- The formula cells of the snapshot, each after the formula cells that it reads. -/
def evaluationOrder (w : Workbook) : Except Fault (List String) :=
  (Graph.ofSnapshot w.snapshot).bind Graph.topologicalOrder

/-- The value of every formula cell, in the order of evaluation. -/
def calculate (w : Workbook) : Evaluation (List (String × Value)) := do
  let order ← ExceptT.mk (pure w.evaluationOrder)
  order.mapM fun key => do
    let v ← w.resolve key
    pure (key, v)

end Workbook

/-! ## 2. Questions and answers -/

/-- A workbook and where its headline figures stand. -/
structure Evaluator where
  /-- The workbook. -/
  workbook : Workbook
  /-- Where the headline figures stand. -/
  figures : FigureMap

/-- A question about a workbook. -/
inductive Query where
  /-- The value of a cell. -/
  | cell (sheet ref : String)
  /-- The sum of the numbers between two corners. -/
  | sum (sheet first last : String)
  /-- The largest number between two corners. -/
  | max (sheet first last : String)
  /-- The smallest number between two corners. -/
  | min (sheet first last : String)
  /-- The value of every formula cell. -/
  | calculate
  /-- The coverage of all formulas, or of what one cell reads. -/
  | coverage (key : Option String)
  /-- The headline figures. -/
  | keyFigures
deriving DecidableEq

/-- The answer to a question. -/
inductive Answer where
  /-- A value. -/
  | value (v : Value)
  /-- The values of formula cells, in the order of evaluation. -/
  | values (vs : List (String × Value))
  /-- A coverage. -/
  | coverage (c : Coverage)
  /-- Headline figures. -/
  | keyFigures (f : KeyFigures)

/-- The answer to a question. -/
def Evaluator.answer (e : Evaluator) : Query → Evaluation Answer
  | .cell sheet ref => return .value (← e.workbook.cellValue sheet ref)
  | .sum sheet first last => return .value (.number (← e.workbook.sumRange sheet first last))
  | .max sheet first last => return .value (.float (← e.workbook.maxRange sheet first last))
  | .min sheet first last => return .value (.float (← e.workbook.minRange sheet first last))
  | .calculate => return .values (← e.workbook.calculate)
  | .coverage key => return .coverage (← ExceptT.mk (pure (e.workbook.coverage key)))
  | .keyFigures => return .keyFigures (← e.workbook.keyFigures e.figures)

end Appraisal
