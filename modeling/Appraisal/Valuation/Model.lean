import Appraisal.Parameters.Settings
import Appraisal.Text.Sorted
import Appraisal.Valuation.Fit

/-!
# The valuation model

* `Model` — anchors and a calibration;
* `Model.earth`, `Model.mars`, `Model.option`, `Model.total` — the values of parameters;
* `Output`, `Model.valueOf` — the same by name;
* `Model.sweep` — one value while one parameter varies.
-/

namespace Appraisal.Valuation

variable {α : Type}

/-- A valuation model. -/
structure Model (α : Type) where
  /-- The figures at the baseline. -/
  anchors : Anchors α
  /-- The exponents of the factors. -/
  calibration : Calibration α
deriving DecidableEq

/-- A value that a model computes. -/
inductive Output where
  /-- The value of the Earth. -/
  | earth
  /-- The value of Mars. -/
  | mars
  /-- The value of the option on Mars. -/
  | marsOption
  /-- The value of the whole venture. -/
  | total
deriving DecidableEq

/-- The values in order. -/
def Output.all : List Output :=
  [.earth, .mars, .marsOption, .total]

/-- The name of a value. -/
def Output.name : Output → String
  | .earth => "earth"
  | .mars => "mars"
  | .marsOption => "marsOption"
  | .total => "total"

/-- The value of a name. -/
def Output.ofName? (name : String) : Option Output :=
  Output.all.find? fun o => o.name == name

namespace Model

/-! ## 1. Values -/

section

variable [OfScientific α] [Add α] [Sub α] [Mul α] [Div α] [Neg α]
  [LT α] [DecidableLT α] [LE α] [DecidableLE α] [Transcendental α]

/-- The model of anchors with the calibration that is built in. -/
def ofAnchors [LeastSquares α] (a : Anchors α) : Except Fault (Model α) :=
  (defaultCalibration a).map fun c => ⟨a, c⟩

/-- The Earth valuation with all its factors. -/
def breakdown (m : Model α) (p : Parameters α) : Except Fault (EarthBreakdown α) :=
  earthBreakdown p m.anchors m.calibration

/-- The value of the Earth. -/
def earth (m : Model α) (p : Parameters α) : Except Fault α :=
  (m.breakdown p).map (·.value)

/-- The bent Mars factor, less the penalty for an industry that does not build itself up. -/
def marsMultiplier (m : Model α) (p : Parameters α) : Except Fault α :=
  (marsFactor p.mars).map fun factor =>
    let bent := power factor m.calibration.marsExponent
    if p.mars.industrialBootstrap then bent else bent * bootstrapFactor p.mars

/-- The value of Mars. -/
def mars (m : Model α) (p : Parameters α) : Except Fault α :=
  (m.marsMultiplier p).map (m.anchors.marsValue * ·)

/-- The value of the option on Mars; the value of Mars where the option has no anchor. -/
def option (m : Model α) (p : Parameters α) : Except Fault α :=
  match m.anchors.marsOptionValue with
  | some anchor => (m.marsMultiplier p).map (anchor * ·)
  | none => m.mars p

/-- The divisor of the total, or one in place of a divisor too close to zero. -/
def divisor (m : Model α) : α :=
  if isTiny m.anchors.normalizationDivisor then 1.0 else m.anchors.normalizationDivisor

/-- The multiplier of the Earth in the total. -/
def dilution (m : Model α) (p : Parameters α) : α :=
  let base : FinancialParameters α := .baseline
  m.anchors.dilutionMultiplier * declineFactor p.financial.dilutionFactor base.dilutionFactor

/-- The value of the whole venture. -/
def total (m : Model α) (p : Parameters α) : Except Fault α := do
  let earth ← m.earth p
  let mars ← m.mars p
  pure ((earth * m.dilution p + mars) / m.divisor)

/-- The value of the name. -/
def valueOf (m : Model α) (p : Parameters α) : Output → Except Fault α
  | .earth => m.earth p
  | .mars => m.mars p
  | .marsOption => m.option p
  | .total => m.total p

/-- All values by their names. -/
def valuation (m : Model α) (p : Parameters α) : Except Fault (List (String × α)) :=
  Output.all.mapM fun o => (m.valueOf p o).map fun x => (o.name, x)

end

/-! ## 2. Sweeps -/

/-- One value of a model for each of the given values of one parameter. -/
def sweep (m : Model Float) (path : String) (values : List Value) (base : Except Fault
    (Parameters Float)) (output : String) : Except Fault (List Float) :=
  match Output.ofName? output with
  | none => .error (.unknownOutput output)
  | some o => do
    let p ← base
    values.mapM fun v => (p.replace path v).bind fun p => m.valueOf p o

end Model

end Appraisal.Valuation
