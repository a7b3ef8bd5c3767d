import Appraisal.Valuation.Anchors
import Appraisal.Valuation.Factors

/-!
# The valuation of the Earth

* `EarthBreakdown` — every factor and every amount of one valuation;
* `earthBreakdown` — the breakdown of parameters: all zero without penetration, else the anchors
  times the bent factors, and a value that is never less than zero.
-/

namespace Appraisal.Valuation

variable {α : Type}

/-- Every factor of one Earth valuation, and the amounts in billions. -/
structure EarthBreakdown (α : Type) where
  /-- The revenue factor. -/
  revenueFactor : α
  /-- The cost factor. -/
  costFactor : α
  /-- The financial factor: discount times terminal growth. -/
  financialFactor : α
  /-- The revenue factor bent by its exponent. -/
  revenueMultiplier : α
  /-- The cost factor bent by its exponent and kept between its bounds. -/
  costMultiplier : α
  /-- The multiplier of the taxes. -/
  taxMultiplier : α
  /-- The discount factor. -/
  discountFactor : α
  /-- The factor of terminal growth. -/
  terminalGrowthFactor : α
  /-- The financial factor bent by its exponent. -/
  financialMultiplier : α
  /-- The revenue. -/
  revenue : α
  /-- The costs. -/
  costs : α
  /-- The taxes. -/
  taxes : α
  /-- Revenue less costs and taxes. -/
  valueBeforeDiscount : α
  /-- The value. -/
  value : α
deriving DecidableEq

/-- The breakdown of nothing. -/
def EarthBreakdown.zero [OfScientific α] : EarthBreakdown α :=
  ⟨0.0, 0.0, 0.0, 0.0, 0.0, 0.0, 0.0, 0.0, 0.0, 0.0, 0.0, 0.0, 0.0, 0.0⟩

variable [OfScientific α] [Add α] [Sub α] [Mul α] [Div α] [Neg α]
  [LT α] [DecidableLT α] [LE α] [DecidableLE α] [Transcendental α]

/-- The breakdown of factors and multiplied anchors. -/
def breakdownOf (anchor : EarthAnchor α) (c : Calibration α) (f : FinancialParameters α)
    (revenueFactor costFactor : α) : EarthBreakdown α :=
  let revenueMultiplier := power revenueFactor c.revenueExponent
  let costMultiplier := clampCost (power costFactor c.costExponent)
  let revenue := anchor.revenue * revenueMultiplier
  let costs := anchor.costs * costMultiplier
  let taxes := anchor.taxes * revenueMultiplier
  let before := revenue - costs - taxes
  let financialFactor := discountFactor f * terminalGrowthFactor f
  let financialMultiplier := power financialFactor c.valueExponent
  let value := before * financialMultiplier
  { revenueFactor := revenueFactor
    costFactor := costFactor
    financialFactor := financialFactor
    revenueMultiplier := revenueMultiplier
    costMultiplier := costMultiplier
    taxMultiplier := revenueMultiplier
    discountFactor := discountFactor f
    terminalGrowthFactor := terminalGrowthFactor f
    financialMultiplier := financialMultiplier
    revenue := revenue
    costs := costs
    taxes := taxes
    valueBeforeDiscount := before
    value := if 0.0 < value then value else 0.0 }

/-- The breakdown of parameters. Without penetration there is nothing. -/
def earthBreakdown (p : Parameters α) (a : Anchors α) (c : Calibration α) :
    Except Fault (EarthBreakdown α) :=
  if p.earth.starlinkPenetration ≤ 0.0 then .ok .zero
  else do
    let revenue ← revenueFactor p.earth
    let cost ← costFactor p.earth
    pure (breakdownOf a.earth c p.financial revenue cost)

end Appraisal.Valuation
