import Appraisal.Number.Quantity
import Appraisal.Valuation.GroundTruth

/-!
# Consistency of model and workbook

A model is held against the figures of a workbook, one check for each figure that is there.

* `Check`, `Check.passed` — one expected and one actual figure with their tolerances;
* `checkConsistency` — the checks of a model;
* `Report.verdict` — a fault that lists the failures, if there are any.
-/

namespace Appraisal.Valuation

/-! ## 1. Checks -/

/-- One figure of a workbook held against a model. -/
structure Check where
  /-- The name of the figure. -/
  name : String
  /-- The figure in the workbook. -/
  expected : Quantity
  /-- The figure of the model. -/
  actual : Quantity
  /-- The tolerance as a part of the expected figure. -/
  relativeTolerance : Quantity
  /-- The tolerance as an amount. -/
  absoluteTolerance : Quantity
deriving DecidableEq

namespace Check

/-- The usual tolerance as a part of the expected figure. -/
def usualRelativeTolerance : Quantity := .float 1e-3

/-- The usual tolerance as an amount. -/
def usualAbsoluteTolerance : Quantity := .float 1e-6

/-- By how much the figures differ. -/
def deviation (c : Check) : Except Fault Number :=
  (Number.sub c.actual.count c.expected.count).map Number.abs

/-- By how much they may differ. -/
def tolerance (c : Check) : Except Fault Number :=
  (Number.mul c.relativeTolerance.count (Number.abs c.expected.count)).map
    (Number.larger c.absoluteTolerance.count)

/-- Whether the figures differ by no more than they may. -/
def passed (c : Check) : Except Fault Bool := do
  let deviation ← c.deviation
  let tolerance ← c.tolerance
  pure (Number.le deviation tolerance)

/-- The check in words. -/
def shown (c : Check) : Except Fault String := do
  let passed ← c.passed
  let expected ← c.expected.count.toFloat
  let actual ← c.actual.count.toFloat
  pure (c.name ++ ": expected " ++ Number.sixDigits expected ++ ", got " ++
    Number.sixDigits actual ++ " [" ++ (if passed then "ok" else "FAIL") ++ "]")

end Check

/-! ## 2. Reports -/

/-- The checks of a model. -/
structure Report where
  /-- The checks in order. -/
  checks : List Check

namespace Report

/-- The checks that fail. -/
def failures (r : Report) : Except Fault (List Check) :=
  r.checks.filterM fun c => c.passed.map (!·)

/-- Whether no check fails. -/
def passed (r : Report) : Except Fault Bool :=
  r.failures.map List.isEmpty

/-- A fault with the failures in words, if there are any. -/
def verdict (r : Report) : Except Fault Unit := do
  match ← r.failures with
  | [] => pure ()
  | failures => do
    let shown ← failures.mapM Check.shown
    .error (.inconsistent ("; ".intercalate shown))

end Report

/-! ## 3. A model against a workbook -/

/-- How figures are checked. -/
structure Tolerances where
  /-- The tolerance as a part of the expected figure. -/
  relative : Quantity := Check.usualRelativeTolerance
  /-- The tolerance as an amount. -/
  absolute : Quantity := Check.usualAbsoluteTolerance

/-- The check of a figure that the workbook has; none for a figure that it does not have. -/
def Tolerances.check? (t : Tolerances) (name : String) (expected : Option Float)
    (actual : Float) : Option Check :=
  expected.map fun x => ⟨name, .float x, .float actual, t.relative, t.absolute⟩

/-- The report of checks, each of which can be judged. -/
def Report.judged (checks : List Check) : Except Fault Report :=
  let report : Report := ⟨checks⟩
  report.failures.map fun _ => report

/-- The model against headline figures: the value of the Earth in both scenarios, and the value of
    Mars and of its option at the baseline. -/
def Model.compare (m : Model Float) (f : KeyFigures) (t : Tolerances) : Except Fault Report := do
  let base ← f.earth.anchor
  let earth ← m.earth Scenario.base.parameters
  let optimistic ← f.earthOptimistic.anchor
  let earthOptimistic ← m.earth Scenario.optimistic.parameters
  let marsValue ← billions f.mars.value
  let mars ← m.mars Scenario.base.parameters
  let optionValue ← f.mars.optionValue
  let option ← m.option Scenario.base.parameters
  Report.judged <|
    [t.check? "earth.base" (base.map (·.value)) earth,
      t.check? "earth.optimistic" (optimistic.map (·.value)) earthOptimistic,
      t.check? "mars.base" marsValue mars,
      t.check? "mars.option.base" optionValue option].filterMap id

/-- The model against a workbook. -/
def checkConsistency (m : Model Float) (e : Evaluator) (t : Tolerances) : Except Fault Report :=
  e.freshFigures.bind fun f => m.compare f t

end Appraisal.Valuation
