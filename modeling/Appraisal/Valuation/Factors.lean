import Appraisal.Parameters.Basic
import Appraisal.Valuation.Transcendental

/-!
# Factors of a valuation

Every parameter contributes a factor that compares it with its baseline, and the factors multiply.
At the baseline each of them is one.

* `ratio`, `power`, `declineFactor`, `clampCost` — guarded operations;
* `revenueFactor`, `costFactor`, `marsFactor` — what the parameters do to revenue, costs and Mars;
* `discountFactor`, `terminalGrowthFactor` — what the financial parameters do.
-/

namespace Appraisal.Valuation

variable {α : Type} [OfScientific α] [Add α] [Sub α] [Mul α] [Div α] [Neg α]
  [LT α] [DecidableLT α] [LE α] [DecidableLE α] [Transcendental α]

/-! ## 1. Guarded operations -/

/-- The least size of a divisor. -/
def leastDivisor : α := 1e-9

/-- Whether a divisor is closer to zero than the least one. -/
def isTiny (x : α) : Bool :=
  decide (-leastDivisor < x) && decide (x < leastDivisor)

/-- The quotient by a baseline. A baseline too close to zero is replaced by the least divisor with
    its sign. -/
def ratio (value baseline : α) : α :=
  if isTiny baseline then
    if 0.0 ≤ baseline then value / leastDivisor else value / -leastDivisor
  else value / baseline

/-- The power of a positive base; zero for any other. -/
def power (base exponent : α) : α :=
  if 0.0 < base then Transcendental.positivePower base exponent else 0.0

/-- What a decline leaves of one, against what a baseline decline leaves. -/
def declineFactor (decline baseline : α) : α :=
  ratio (1.0 - decline) (1.0 - baseline)

/-- The least cost multiplier. -/
def leastCost : α := 0.1

/-- The greatest cost multiplier. -/
def greatestCost : α := 2.0

/-- A cost multiplier kept between its bounds; the greatest one for what does not compare. -/
def clampCost (x : α) : α :=
  if x ≤ x then
    let raised := if leastCost < x then x else leastCost
    if raised < greatestCost then raised else greatestCost
  else greatestCost

/-- A ratio to the baseline under an elasticity. -/
def elastic (value baseline elasticity : α) : α :=
  power (ratio value baseline) elasticity

/-! ## 2. Earth -/

/-- What the market for other launches does to revenue: it counts for the launches that do not
    serve the constellation. -/
def otherLaunchesFactor (e : EarthParameters α) : α :=
  let base : EarthParameters α := .baseline
  1.0 + (1.0 - e.starshipLaunchesForStarlink) *
    (elastic e.nonStarlinkLaunchMarketGrowth base.nonStarlinkLaunchMarketGrowth 0.3 - 1.0)

/-- What the rate of return at which money moves to Mars does to revenue. -/
def thresholdFactor (e : EarthParameters α) : α :=
  let base : EarthParameters α := .baseline
  1.0 + (e.irrThresholdEarthToMars - base.irrThresholdEarthToMars) * 0.1

/-- What all parameters but the year of commercial viability do to revenue. -/
def revenueDrivers (e : EarthParameters α) : α :=
  let base : EarthParameters α := .baseline
  elastic e.starlinkPenetration base.starlinkPenetration 2.0 *
    elastic e.launchVolume base.launchVolume 0.8 *
    elastic e.starshipPayloadCapacity base.starshipPayloadCapacity 0.6 *
    elastic e.maxRocketProductionIncrease base.maxRocketProductionIncrease 0.4 *
    elastic e.wrightsLawTurnaroundTime base.wrightsLawTurnaroundTime 0.3 *
    elastic e.wrightsLawSatelliteGbps base.wrightsLawSatelliteGbps 0.5 *
    ratio e.realizedBandwidthTamMultiplier base.realizedBandwidthTamMultiplier *
    ratio e.starshipLaunchesForStarlink base.starshipLaunchesForStarlink *
    otherLaunchesFactor e *
    thresholdFactor e *
    declineFactor e.cashBufferPercent base.cashBufferPercent *
    declineFactor e.bandwidthPriceDecline base.bandwidthPriceDecline

/-- What the Earth parameters do to revenue. Each year of earlier viability adds three percent. -/
def revenueFactor (e : EarthParameters α) : Except Fault α := do
  let base : EarthParameters α := .baseline
  let growth ← Transcendental.compound 1.03
    (base.starshipCommercialViabilityYear - e.starshipCommercialViabilityYear)
  pure (revenueDrivers e * growth)

/-- What scale does to costs: they fall with penetration and volume. -/
def scaleFactor (e : EarthParameters α) : α :=
  let base : EarthParameters α := .baseline
  ratio 1.0 (elastic e.starlinkPenetration base.starlinkPenetration 2.0 *
    elastic e.launchVolume base.launchVolume 0.8)

/-- What the Earth parameters do to costs. Each year of earlier reuse takes off five percent. -/
def costFactor (e : EarthParameters α) : Except Fault α := do
  let base : EarthParameters α := .baseline
  let discount ← Transcendental.compound 0.95
    (base.starshipReusabilityYear - e.starshipReusabilityYear)
  pure (scaleFactor e * declineFactor e.launchPriceDecline base.launchPriceDecline * discount *
    declineFactor e.wrightsLawLaunchCost base.wrightsLawLaunchCost)

/-! ## 3. Money -/

/-- What the discount rate does to a value. -/
def discountFactor (f : FinancialParameters α) : α :=
  let base : FinancialParameters α := .baseline
  let rate := if f.discountRate < leastDivisor then leastDivisor else f.discountRate
  power (base.discountRate / rate) 0.7

/-- The least spread between discount rate and terminal growth. -/
def leastSpread : α := 0.01

/-- What terminal growth does to a value: it acts on the part of the terminal period. -/
def terminalGrowthFactor (f : FinancialParameters α) : α :=
  let base : FinancialParameters α := .baseline
  let spread := f.discountRate - f.terminalGrowth
  let spread := if leastSpread < spread then spread else leastSpread
  let multiple := (f.discountRate - base.terminalGrowth) / spread
  1.0 + (multiple - 1.0) * 0.6

/-! ## 4. Mars -/

/-- What the Mars parameters but the year of the first colony do to its value. -/
def marsDrivers (growth : α) (m : MarsParameters α) : α :=
  let base : MarsParameters α := .baseline
  let cost := if m.optimusCost2026 < leastDivisor then leastDivisor else m.optimusCost2026
  growth *
    ratio m.populationGrowth base.populationGrowth *
    ratio (1.0 + m.transportCostDecline) (1.0 + base.transportCostDecline) *
    ratio base.optimusCost2026 cost *
    ratio (1.0 + m.optimusAnnualCostDecline) (1.0 + base.optimusAnnualCostDecline) *
    ratio m.optimusProductivityMultiplier base.optimusProductivityMultiplier *
    ratio (1.0 + m.optimusLearningRate) (1.0 + base.optimusLearningRate) *
    elastic m.marsPayloadOptimusVsTooling base.marsPayloadOptimusVsTooling 0.5

/-- What the Mars parameters do to its value. Each year of an earlier colony adds ten percent. -/
def marsFactor (m : MarsParameters α) : Except Fault α := do
  let base : MarsParameters α := .baseline
  let growth ← Transcendental.compound 1.10 (base.firstColonyYear - m.firstColonyYear)
  pure (marsDrivers growth m)

/-- What is left of the value of Mars without an industry that builds itself up. -/
def bootstrapFactor (m : MarsParameters α) : α :=
  if m.industrialBootstrap then 1.0 else 0.1

end Appraisal.Valuation
