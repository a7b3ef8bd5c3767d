import Appraisal.Valuation.Earth

/-!
# Fitting a calibration

The exponents are chosen so that a valuation comes close to known scenarios: in logarithms, each
target is an exponent times the factor, and the exponent is the one of least squares. The exponent
of the value is fitted last, against the values that the others leave before discounting.

The solver of least squares is a parameter. What is proved of a fit holds for every solver, unless a
statement says what it relies on.

* `Sample` — one target and its factor in logarithms; `sample?` — where there is one;
* `LeastSquares` — a solver, which may refuse its samples; `LeastSquares.closedForm` — the solver that
  is built in;
* `fitExponent` — the exponent that the solver finds, one if nothing constrains it;
* `LeastSquares.Answers` — what may be relied on: the solver answers samples of a kind;
* `fitCalibration`, `defaultCalibration` — the calibration for given points, and for the one that is
  built in.
-/

namespace Appraisal.Valuation

variable {α : Type} [OfScientific α]

/-! ## 1. Least squares through the origin -/

/-- A factor and its target in logarithms. -/
structure Sample (α : Type) where
  /-- The logarithm of the factor. -/
  factor : α
  /-- The logarithm of the target. -/
  target : α

/-- A solver of least squares: for samples, of which there is at least one, the exponent that takes
    the factors closest to their targets. A solver may refuse samples, such as those of an infinite
    factor. -/
class LeastSquares (α : Type) where
  /-- The exponent of the samples. -/
  exponent : List (Sample α) → Except Fault α

/-- The exponent that the solver finds; one if there is no sample. -/
def fitExponent [LeastSquares α] (samples : List (Sample α)) : Except Fault α :=
  if samples.isEmpty then .ok 1.0 else LeastSquares.exponent samples

/-- The solver answers wherever all factors are of the kind. -/
def LeastSquares.Answers [LeastSquares α] (kind : α → Prop) : Prop :=
  ∀ samples : List (Sample α), (∀ s ∈ samples, kind s.factor) →
    ∃ x, LeastSquares.exponent samples = .ok x

theorem LeastSquares.Answers.fitExponent_ok [LeastSquares α] {kind : α → Prop}
    (h : LeastSquares.Answers kind) {samples : List (Sample α)}
    (hs : ∀ s ∈ samples, kind s.factor) : ∃ x, fitExponent samples = .ok x := by
  unfold fitExponent
  split
  · exact ⟨1.0, rfl⟩
  · exact h samples hs

section ClosedForm

variable [Add α] [Mul α] [Div α]

/-- The sum from left to right. -/
def leftSum (xs : List α) : α :=
  xs.foldl (· + ·) 0.0

/-- The exponent in closed form: the sum of the products over the sum of the squares. This solver
    refuses no samples. -/
instance LeastSquares.closedForm : LeastSquares α where
  exponent samples :=
    .ok (leftSum (samples.map fun s => s.factor * s.target) /
      leftSum (samples.map fun s => s.factor * s.factor))

theorem LeastSquares.closedForm_answers (kind : α → Prop) : LeastSquares.Answers kind :=
  fun _ _ => ⟨_, rfl⟩

end ClosedForm

variable [Add α] [Sub α] [Mul α] [Div α] [Neg α]
  [LT α] [DecidableLT α] [LE α] [DecidableLE α] [Transcendental α]

/-! ## 2. Samples of known scenarios -/

/-- The sample of a factor and its target. Both have to be positive, and a factor too close to one
    says nothing about its exponent. -/
def sample? (factor target : α) : Option (Sample α) :=
  if 0.0 < factor ∧ 0.0 < target then
    let x : α := Transcendental.log factor
    if 1e-9 < x ∨ x < -1e-9 then some ⟨x, Transcendental.log target⟩ else none
  else none

/-- The quotient by a divisor, which may not be zero. -/
def divide (x y : α) : Except Fault α :=
  if y ≤ 0.0 ∧ 0.0 ≤ y then .error .divisionByZero else .ok (x / y)

/-- What a scenario says about the exponents of revenue and costs. -/
def earthSamples (a : Anchors α) (p : CalibrationPoint α) :
    Except Fault (Option (Sample α) × Option (Sample α)) :=
  match p.earth with
  | none => .ok (none, none)
  | some target => do
    let b ← earthBreakdown p.parameters a .identity
    let revenue ← divide target.revenue a.earth.revenue
    let costs ← divide target.costs a.earth.costs
    pure (sample? b.revenueFactor revenue, sample? b.costFactor costs)

/-- What a scenario says about the exponent of Mars. -/
def marsSample (a : Anchors α) (p : CalibrationPoint α) : Except Fault (Option (Sample α)) :=
  match p.marsValue with
  | none => .ok none
  | some target => do
    let factor ← marsFactor p.parameters.mars
    let goal ← divide target (a.marsValue * bootstrapFactor p.parameters.mars)
    pure (sample? factor goal)

/-- What a scenario says about the exponents of revenue, costs and Mars. -/
def firstSamples (a : Anchors α) (p : CalibrationPoint α) :
    Except Fault ((Option (Sample α) × Option (Sample α)) × Option (Sample α)) := do
  let earth ← earthSamples a p
  let mars ← marsSample a p
  pure (earth, mars)

/-- What a scenario says about the exponent of the value, given the exponents of revenue and
    costs. -/
def valueSample (a : Anchors α) (c : Calibration α) (p : CalibrationPoint α) :
    Except Fault (Option (Sample α)) :=
  match p.earth with
  | none => .ok none
  | some target => do
    let b ← earthBreakdown p.parameters a c
    if 0.0 < b.valueBeforeDiscount then
      let goal ← divide target.value b.valueBeforeDiscount
      pure (sample? b.financialFactor goal)
    else pure none

/-! ## 3. The fit -/

section Fit

variable [LeastSquares α]

/-- The calibration fitted to known scenarios. -/
def fitCalibration (points : List (CalibrationPoint α)) (a : Anchors α) (version : String) :
    Except Fault (Calibration α) := do
  let samples ← points.mapM (firstSamples a)
  let revenue ← fitExponent (samples.filterMap (·.1.1))
  let costs ← fitExponent (samples.filterMap (·.1.2))
  let partly : Calibration α :=
    { Calibration.identity with
      version := version
      revenueExponent := revenue
      costExponent := costs }
  let values ← points.mapM (valueSample a partly)
  let value ← fitExponent (values.filterMap id)
  let mars ← fitExponent (samples.filterMap (·.2))
  pure
    { partly with
      valueExponent := value
      marsExponent := mars
      points := points.map (·.name) }

/-- The name of the calibration that is built in. -/
def defaultVersion : String :=
  "builtin-optimistic-v1"

/-- The calibration fitted to the scenario that is built in. -/
def defaultCalibration (a : Anchors α) : Except Fault (Calibration α) :=
  fitCalibration [optimisticPoint a] a defaultVersion

end Fit

end Appraisal.Valuation
