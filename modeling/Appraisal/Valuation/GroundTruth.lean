import Appraisal.Evaluation.Query
import Appraisal.Valuation.Model

/-!
# Figures of a workbook in billions

Workbooks hold plain amounts, and valuations are in billions.

* `billions` — an amount in billions, if it is a number;
* `KeyFigures.earthAnchor`, `KeyFigures.marsValue`, `KeyFigures.marsOptionValue` — the figures of a
  scenario;
* `KeyFigures.anchors` — the anchors of a workbook, with built-in figures for what is missing;
* `Model.ofWorkbook` — the model of a workbook.
-/

namespace Appraisal

open Appraisal.Valuation

/-- An amount in billions, if it is a number. -/
def billions (v : Value) : Except Fault (Option Float) :=
  match v.number? with
  | some n => n.toFloat.map fun x => some (x / 1e9)
  | none => .ok none

/-- The Earth figures in billions, if revenue, costs and taxes are numbers. A value that is none is
    revenue less costs and taxes. -/
def EarthFigures.anchor (f : EarthFigures) : Except Fault (Option (EarthAnchor Float)) := do
  let revenue ← billions f.revenue
  let costs ← billions f.costs
  let taxes ← billions f.taxes
  match revenue, costs, taxes with
  | some r, some c, some t => do
    let value ← billions f.value
    pure (some ⟨r, c, t, value.getD (r - c - t)⟩)
  | _, _, _ => pure none

/-- The value of the option in billions: value and revenue less costs, if all are numbers. -/
def MarsFigures.optionValue (f : MarsFigures) : Except Fault (Option Float) := do
  let value ← billions f.value
  let revenue ← billions f.revenue
  let costs ← billions f.costs
  match value, revenue, costs with
  | some v, some r, some c => pure (some (v + r - c))
  | _, _, _ => pure none

namespace KeyFigures

/-- The Earth figures of a scenario. The workbook has two scenarios. -/
def earthOf (f : KeyFigures) (scenario : String) : Except Fault EarthFigures :=
  match Scenario.ofName? scenario with
  | some .base => .ok f.earth
  | some .optimistic => .ok f.earthOptimistic
  | _ => .error (.unknownScenario scenario)

/-- The Mars figures of a scenario. The workbook has two scenarios. -/
def marsOf (f : KeyFigures) (scenario : String) : Except Fault MarsFigures :=
  match Scenario.ofName? scenario with
  | some .base => .ok f.mars
  | some .optimistic => .ok f.marsOptimistic
  | _ => .error (.unknownScenario scenario)

/-- The Earth figures of a scenario in billions. -/
def earthAnchor (f : KeyFigures) (scenario : String) :
    Except Fault (Option (EarthAnchor Float)) :=
  (f.earthOf scenario).bind EarthFigures.anchor

/-- The value of Mars in a scenario, in billions. -/
def marsValue (f : KeyFigures) (scenario : String) : Except Fault (Option Float) :=
  (f.marsOf scenario).bind fun m => billions m.value

/-- The value of the option on Mars in a scenario, in billions. -/
def marsOptionValue (f : KeyFigures) (scenario : String) : Except Fault (Option Float) :=
  (f.marsOf scenario).bind MarsFigures.optionValue

/-- The anchors of a workbook: its base figures, with built-in ones in place of missing figures of
    the Earth or a missing value of Mars. -/
def anchors (f : KeyFigures) : Except Fault (Anchors Float) := do
  let earth ← f.earth.anchor
  let mars ← billions f.mars.value
  let option ← f.mars.optionValue
  let builtin : Anchors Float := .builtin
  pure
    { builtin with
      earth := earth.getD builtin.earth
      marsValue := mars.getD builtin.marsValue
      marsOptionValue := option }

/-- The model of a workbook's figures. With `refit` it is calibrated to the optimistic figures of
    the Earth, and with `fitMars` also to those of Mars, where there are any; else by the scenario
    that is built in. -/
def model [LeastSquares Float] (f : KeyFigures) (refit fitMars : Bool) : Except Fault (Model Float) := do
  let anchors ← f.anchors
  if refit then
    let earth ← f.earthOptimistic.anchor
    let mars ← if fitMars then billions f.marsOptimistic.value else pure none
    if earth.isNone && mars.isNone then Model.ofAnchors anchors
    else
      let point : CalibrationPoint Float :=
        ⟨"snapshot-optimistic", Scenario.optimistic.parameters, earth, mars⟩
      (fitCalibration [point] anchors "snapshot").map fun c => ⟨anchors, c⟩
  else Model.ofAnchors anchors

end KeyFigures

/-- The headline figures of a workbook, with nothing settled before. -/
def Evaluator.freshFigures (e : Evaluator) : Except Fault KeyFigures :=
  ((e.workbook.keyFigures e.figures).run []).1

/-- The model of a workbook. -/
def Valuation.Model.ofWorkbook [LeastSquares Float] (e : Evaluator) (refit fitMars : Bool) :
    Except Fault (Model Float) :=
  e.freshFigures.bind fun f => f.model refit fitMars

end Appraisal
