import Appraisal.Evaluation.Walk

/-!
# Headline figures

Where the headline figures of a valuation stand in a workbook, and what stands there, for a base
and an optimistic scenario each.

* `FigureMap` — the sheets, columns and rows;
* `EarthFigures`, `MarsFigures`, `KeyFigures` — what stands there;
* `Workbook.cellValue` — the value of a cell by its sheet and reference.
-/

namespace Appraisal

/-! ## 1. The value of a cell -/

/-- The value of a cell; a sheet named in the reference goes before the given one. A text that is
    no reference has none. -/
def Workbook.cellValue (w : Workbook) (sheet ref : String) : Evaluation Value :=
  let (own, cell) := splitSheet ref
  match Address.read? cell with
  | some a => w.resolve (({ a with sheet := own } : Address).key sheet)
  | none => pure .blank

/-! ## 2. Where the figures stand -/

/-- Where the headline figures stand. Rows are given as they are written in references. -/
structure FigureMap where
  /-- The sheet of the Earth figures. -/
  earthSheet : String := "Earth"
  /-- Their column in the base scenario. -/
  earthBaseColumn : String := "O"
  /-- Their column in the optimistic scenario. -/
  earthOptimisticColumn : String := "Y"
  /-- The row of the revenue. -/
  earthRevenueRow : String := "119"
  /-- The row of the costs. -/
  earthCostsRow : String := "144"
  /-- The row of the taxes. -/
  earthTaxesRow : String := "152"
  /-- The row of the value. -/
  earthValueRow : String := "153"
  /-- The sheet of the Mars figures. -/
  marsSheet : String := "Mars"
  /-- Their column in the base scenario. -/
  marsBaseColumn : String := "K"
  /-- Their column in the optimistic scenario. -/
  marsOptimisticColumn : String := "U"
  /-- The row of the cumulative value. -/
  marsValueRow : String := "54"
  /-- The row of the cumulative revenue. -/
  marsRevenueRow : String := "8"
  /-- The row of the cumulative costs. -/
  marsCostsRow : String := "27"
deriving DecidableEq

/-! ## 3. What stands there -/

/-- The Earth figures of a scenario, as they stand in the workbook. -/
structure EarthFigures where
  /-- The revenue. -/
  revenue : Value
  /-- The costs. -/
  costs : Value
  /-- The taxes. -/
  taxes : Value
  /-- The value. -/
  value : Value

/-- The Mars figures of a scenario, as they stand in the workbook. -/
structure MarsFigures where
  /-- The cumulative value. -/
  value : Value
  /-- The cumulative revenue. -/
  revenue : Value
  /-- The cumulative costs. -/
  costs : Value

/-- The headline figures of both scenarios. -/
structure KeyFigures where
  /-- The Earth figures of the base scenario. -/
  earth : EarthFigures
  /-- The Earth figures of the optimistic scenario. -/
  earthOptimistic : EarthFigures
  /-- The Mars figures of the base scenario. -/
  mars : MarsFigures
  /-- The Mars figures of the optimistic scenario. -/
  marsOptimistic : MarsFigures

namespace Workbook

/-- The Earth figures in a column. -/
def earthFigures (w : Workbook) (m : FigureMap) (column : String) : Evaluation EarthFigures := do
  let revenue ← w.cellValue m.earthSheet (column ++ m.earthRevenueRow)
  let costs ← w.cellValue m.earthSheet (column ++ m.earthCostsRow)
  let taxes ← w.cellValue m.earthSheet (column ++ m.earthTaxesRow)
  let value ← w.cellValue m.earthSheet (column ++ m.earthValueRow)
  pure ⟨revenue, costs, taxes, value⟩

/-- The Mars figures in a column. -/
def marsFigures (w : Workbook) (m : FigureMap) (column : String) : Evaluation MarsFigures := do
  let value ← w.cellValue m.marsSheet (column ++ m.marsValueRow)
  let revenue ← w.cellValue m.marsSheet (column ++ m.marsRevenueRow)
  let costs ← w.cellValue m.marsSheet (column ++ m.marsCostsRow)
  pure ⟨value, revenue, costs⟩

/-- The headline figures of both scenarios. -/
def keyFigures (w : Workbook) (m : FigureMap) : Evaluation KeyFigures := do
  let earth ← w.earthFigures m m.earthBaseColumn
  let earthOptimistic ← w.earthFigures m m.earthOptimisticColumn
  let mars ← w.marsFigures m m.marsBaseColumn
  let marsOptimistic ← w.marsFigures m m.marsOptimisticColumn
  pure ⟨earth, earthOptimistic, mars, marsOptimistic⟩

end Workbook

end Appraisal
