import Appraisal.Proofs.Valuation.Fit
import Appraisal.Valuation.Model

/-!
# No valuation divides by zero

A valuation divides, and it takes powers. A quotient by zero has no value, nor has a negative power
of zero. The divisors of a valuation are kept away from zero and its bases are asked for their sign,
so that neither happens, whatever the parameters, the anchors and the exponents are.

* `IsZero.eq` — the floats that are zero;
* `Strict` — the valuation with operations that are faults where they have no value;
* `Strict.valueOf_eq` — **it is the valuation**.
-/

namespace Appraisal.Valuation

/-! ## 1. Divisors -/

section Divisors

open Float.Model

variable {x : Float}

theorem IsZero.eq (h : IsZero x) : x = 0.0 ∨ x = -0.0 := by
  have hzero : (0.0 : Float).toModel.unpack = .zero .positive := rfl
  have hle : (UnpackedFloat.compare x.toModel.unpack (.zero .positive)).any (·.isLE) = true := by
    rw [← hzero]
    exact of_decide_eq_true h.1
  have hge : (UnpackedFloat.compare (.zero .positive) x.toModel.unpack).any (·.isLE) = true := by
    rw [← hzero]
    exact of_decide_eq_true h.2
  have hpack : x = Float.ofModel (Float.Model.pack x.toModel.unpack) := by
    rw [Number.pack_unpack]
  revert hle hge hpack
  cases x.toModel.unpack with
  | notANumber => intro hle; cases hle
  | infinity s | finite s m e hm =>
    cases s with
    | positive => intro hle; cases hle
    | negative => intro _ hge; cases hge
  | zero s =>
    rintro - - rfl
    cases s
    · exact Or.inr (by decide)
    · exact Or.inl (by decide)

theorem isTiny_of_isZero (h : IsZero x) : isTiny x = true := by
  rcases h.eq with rfl | rfl <;> decide

theorem not_isZero_of_isTiny (h : isTiny x = false) : ¬ IsZero x :=
  fun hzero => Bool.false_ne_true (h.symm.trans (isTiny_of_isZero hzero))

theorem lt_leastDivisor_of_isZero (h : IsZero x) : x < leastDivisor := by
  rcases h.eq with rfl | rfl <;> decide

theorem not_leastSpread_lt_of_isZero (h : IsZero x) : ¬ leastSpread < x := by
  rcases h.eq with rfl | rfl <;> decide

theorem beq_zero_of_pos (h : 0.0 < x) : (x == 0.0) = false := by
  refine Bool.eq_false_iff.mpr fun heq => Number.not_le_of_pos h ?_
  have hcompare : x.toModel.unpack.compare (0.0 : Float).toModel.unpack = some .eq := eq_of_beq heq
  have hle : (x.toModel.unpack.compare (0.0 : Float).toModel.unpack).any (·.isLE) = true := by
    rw [hcompare]
    rfl
  exact decide_eq_true hle

/-- A power of a positive base has a value, if not in the range. -/
theorem checkedPower_of_pos (h : 0.0 < x) (exponent : Float) :
    Number.checkedPower x exponent = .ok (Number.positivePower x exponent) ∨
      Number.checkedPower x exponent = .error .outOfRange := by
  rw [Number.checkedPower]
  simp only [beq_zero_of_pos h, Bool.false_and, if_neg Bool.false_ne_true]
  split
  · exact Or.inl rfl
  split
  · exact Or.inr rfl
  · exact Or.inl rfl

theorem divide_ok_of_ne {y : Float} (x : Float) (h : ¬ IsZero y) : divide x y = .ok (x / y) :=
  if_neg h

end Divisors

/-! ## 2. A valuation whose operations may have no value -/

namespace Strict

/-- The power of a positive base; zero for any other. A power that leaves the range is infinite, but
    one without a value is a fault. -/
def power (base exponent : Float) : Except Fault Float :=
  if 0.0 < base then
    match Number.checkedPower base exponent with
    | .error .outOfRange => .ok (Number.positivePower base exponent)
    | outcome => outcome
  else .ok 0.0

/-- The quotient by a baseline that is kept away from zero. -/
def ratio (value baseline : Float) : Except Fault Float :=
  if isTiny baseline then
    if 0.0 ≤ baseline then divide value leastDivisor else divide value (-leastDivisor)
  else divide value baseline

/-- What a decline leaves of one, against what a baseline decline leaves. -/
def declineFactor (decline baseline : Float) : Except Fault Float :=
  ratio (1.0 - decline) (1.0 - baseline)

/-- A ratio to the baseline under an elasticity. -/
def elastic (value baseline elasticity : Float) : Except Fault Float := do
  power (← ratio value baseline) elasticity

section Earth

variable (e : EarthParameters Float)

/-- What the market for other launches does to revenue. -/
def otherLaunchesFactor : Except Fault Float := do
  let base : EarthParameters Float := .baseline
  let market ← elastic e.nonStarlinkLaunchMarketGrowth base.nonStarlinkLaunchMarketGrowth 0.3
  pure (1.0 + (1.0 - e.starshipLaunchesForStarlink) * (market - 1.0))

/-- What all parameters but the year of commercial viability do to revenue. -/
def revenueDrivers : Except Fault Float := do
  let base : EarthParameters Float := .baseline
  let penetration ← elastic e.starlinkPenetration base.starlinkPenetration 2.0
  let volume ← elastic e.launchVolume base.launchVolume 0.8
  let payload ← elastic e.starshipPayloadCapacity base.starshipPayloadCapacity 0.6
  let production ← elastic e.maxRocketProductionIncrease base.maxRocketProductionIncrease 0.4
  let turnaround ← elastic e.wrightsLawTurnaroundTime base.wrightsLawTurnaroundTime 0.3
  let bandwidth ← elastic e.wrightsLawSatelliteGbps base.wrightsLawSatelliteGbps 0.5
  let realized ← ratio e.realizedBandwidthTamMultiplier base.realizedBandwidthTamMultiplier
  let launches ← ratio e.starshipLaunchesForStarlink base.starshipLaunchesForStarlink
  let others ← otherLaunchesFactor e
  let cash ← declineFactor e.cashBufferPercent base.cashBufferPercent
  let price ← declineFactor e.bandwidthPriceDecline base.bandwidthPriceDecline
  pure (penetration * volume * payload * production * turnaround * bandwidth * realized * launches *
    others * thresholdFactor e * cash * price)

/-- What the Earth parameters do to revenue. -/
def revenueFactor : Except Fault Float := do
  let base : EarthParameters Float := .baseline
  let drivers ← revenueDrivers e
  let growth ← Transcendental.compound 1.03
    (base.starshipCommercialViabilityYear - e.starshipCommercialViabilityYear)
  pure (drivers * growth)

/-- What the Earth parameters do to costs. -/
def costFactor : Except Fault Float := do
  let base : EarthParameters Float := .baseline
  let penetration ← elastic e.starlinkPenetration base.starlinkPenetration 2.0
  let volume ← elastic e.launchVolume base.launchVolume 0.8
  let scale ← ratio 1.0 (penetration * volume)
  let price ← declineFactor e.launchPriceDecline base.launchPriceDecline
  let discount ← Transcendental.compound 0.95
    (base.starshipReusabilityYear - e.starshipReusabilityYear)
  let launch ← declineFactor e.wrightsLawLaunchCost base.wrightsLawLaunchCost
  pure (scale * price * discount * launch)

end Earth

section Money

variable (f : FinancialParameters Float)

/-- What the discount rate does to a value. -/
def discountFactor : Except Fault Float := do
  let base : FinancialParameters Float := .baseline
  let rate := if f.discountRate < leastDivisor then leastDivisor else f.discountRate
  power (← divide base.discountRate rate) 0.7

/-- What terminal growth does to a value. -/
def terminalGrowthFactor : Except Fault Float := do
  let base : FinancialParameters Float := .baseline
  let spread := f.discountRate - f.terminalGrowth
  let spread := if leastSpread < spread then spread else leastSpread
  let multiple ← divide (f.discountRate - base.terminalGrowth) spread
  pure (1.0 + (multiple - 1.0) * 0.6)

end Money

/-- What the Mars parameters do to its value. -/
def marsFactor (m : MarsParameters Float) : Except Fault Float := do
  let base : MarsParameters Float := .baseline
  let cost := if m.optimusCost2026 < leastDivisor then leastDivisor else m.optimusCost2026
  let growth ← Transcendental.compound 1.10 (base.firstColonyYear - m.firstColonyYear)
  let population ← ratio m.populationGrowth base.populationGrowth
  let transport ← ratio (1.0 + m.transportCostDecline) (1.0 + base.transportCostDecline)
  let robot ← ratio base.optimusCost2026 cost
  let decline ← ratio (1.0 + m.optimusAnnualCostDecline) (1.0 + base.optimusAnnualCostDecline)
  let productivity ← ratio m.optimusProductivityMultiplier base.optimusProductivityMultiplier
  let learning ← ratio (1.0 + m.optimusLearningRate) (1.0 + base.optimusLearningRate)
  let payload ← elastic m.marsPayloadOptimusVsTooling base.marsPayloadOptimusVsTooling 0.5
  pure (growth * population * transport * robot * decline * productivity * learning * payload)

section Value

variable (m : Model Float) (p : Parameters Float)

/-- The value of the Earth. -/
def earth : Except Fault Float :=
  if p.earth.starlinkPenetration ≤ 0.0 then .ok 0.0
  else do
    let anchor := m.anchors.earth
    let revenueFactor ← revenueFactor p.earth
    let costFactor ← costFactor p.earth
    let revenueMultiplier ← power revenueFactor m.calibration.revenueExponent
    let costMultiplier ← power costFactor m.calibration.costExponent
    let discount ← discountFactor p.financial
    let growth ← terminalGrowthFactor p.financial
    let financialMultiplier ← power (discount * growth) m.calibration.valueExponent
    let before := anchor.revenue * revenueMultiplier - anchor.costs * clampCost costMultiplier -
      anchor.taxes * revenueMultiplier
    let value := before * financialMultiplier
    pure (if 0.0 < value then value else 0.0)

/-- The bent Mars factor, less the penalty. -/
def marsMultiplier : Except Fault Float := do
  let bent ← power (← marsFactor p.mars) m.calibration.marsExponent
  pure (if p.mars.industrialBootstrap then bent else bent * bootstrapFactor p.mars)

/-- The value of Mars. -/
def mars : Except Fault Float := do
  pure (m.anchors.marsValue * (← marsMultiplier m p))

/-- The value of the option on Mars. -/
def option : Except Fault Float :=
  match m.anchors.marsOptionValue with
  | some anchor => do pure (anchor * (← marsMultiplier m p))
  | none => mars m p

/-- The value of the whole venture. -/
def total : Except Fault Float := do
  let base : FinancialParameters Float := .baseline
  let decline ← declineFactor p.financial.dilutionFactor base.dilutionFactor
  let earth ← earth m p
  let mars ← mars m p
  divide (earth * (m.anchors.dilutionMultiplier * decline) + mars) m.divisor

/-- The value of the name. -/
def valueOf : Output → Except Fault Float
  | .earth => earth m p
  | .mars => mars m p
  | .marsOption => option m p
  | .total => total m p

end Value

/-! ## 3. The two valuations are equal -/

@[simp] theorem power_eq (base exponent : Float) :
    power base exponent = .ok (Valuation.power base exponent) := by
  rw [power, Valuation.power]
  by_cases hpos : 0.0 < base
  · rw [if_pos hpos, if_pos hpos]
    rcases checkedPower_of_pos hpos exponent with hpower | hpower <;> rw [hpower] <;> rfl
  · rw [if_neg hpos, if_neg hpos]

@[simp] theorem ratio_eq (value baseline : Float) :
    ratio value baseline = .ok (Valuation.ratio value baseline) := by
  have hleast : ¬ IsZero leastDivisor := by decide
  have hleast' : ¬ IsZero (-leastDivisor) := by decide
  rw [ratio, Valuation.ratio]
  cases htiny : isTiny baseline with
  | true =>
    simp only [if_true, divide_ok_of_ne value hleast, divide_ok_of_ne value hleast']
    split <;> rfl
  | false => exact divide_ok_of_ne value (not_isZero_of_isTiny htiny)

@[simp] theorem declineFactor_eq (decline baseline : Float) :
    declineFactor decline baseline = .ok (Valuation.declineFactor decline baseline) :=
  ratio_eq _ _

@[simp] theorem elastic_eq (value baseline elasticity : Float) :
    elastic value baseline elasticity = .ok (Valuation.elastic value baseline elasticity) := by
  simp only [elastic, ratio_eq, ok_bind, power_eq]
  rfl

section Earth

variable (e : EarthParameters Float)

@[simp] theorem otherLaunchesFactor_eq :
    otherLaunchesFactor e = .ok (Valuation.otherLaunchesFactor e) := by
  simp only [otherLaunchesFactor, elastic_eq, ok_bind]
  rfl

@[simp] theorem revenueDrivers_eq : revenueDrivers e = .ok (Valuation.revenueDrivers e) := by
  simp only [revenueDrivers, elastic_eq, ratio_eq, declineFactor_eq, otherLaunchesFactor_eq,
    ok_bind]
  rfl

@[simp] theorem revenueFactor_eq : revenueFactor e = Valuation.revenueFactor e := by
  simp only [revenueFactor, revenueDrivers_eq, ok_bind]
  rfl

@[simp] theorem costFactor_eq : costFactor e = Valuation.costFactor e := by
  simp only [costFactor, elastic_eq, ratio_eq, declineFactor_eq, ok_bind]
  rfl

end Earth

section Money

variable (f : FinancialParameters Float)

@[simp] theorem discountFactor_eq : discountFactor f = .ok (Valuation.discountFactor f) := by
  have hrate : ¬ IsZero (if f.discountRate < leastDivisor then leastDivisor else f.discountRate) := by
    split
    · decide
    · next hrate => exact fun hzero => hrate (lt_leastDivisor_of_isZero hzero)
  simp only [discountFactor, divide_ok_of_ne _ hrate, ok_bind, power_eq]
  rfl

@[simp] theorem terminalGrowthFactor_eq :
    terminalGrowthFactor f = .ok (Valuation.terminalGrowthFactor f) := by
  have hspread : ∀ x : Float, ¬ IsZero (if leastSpread < x then x else leastSpread) := by
    intro x
    split
    · next hspread => exact fun hzero => not_leastSpread_lt_of_isZero hzero hspread
    · decide
  simp only [terminalGrowthFactor, divide_ok_of_ne _ (hspread _), ok_bind]
  rfl

end Money

@[simp] theorem marsFactor_eq (m : MarsParameters Float) :
    marsFactor m = Valuation.marsFactor m := by
  simp only [marsFactor, elastic_eq, ratio_eq, ok_bind]
  rfl

section Value

variable (m : Model Float) (p : Parameters Float)

theorem earth_eq : earth m p = m.earth p := by
  rw [earth, Model.earth, Model.breakdown, earthBreakdown]
  split
  · rfl
  · simp only [revenueFactor_eq, costFactor_eq, discountFactor_eq, terminalGrowthFactor_eq,
      power_eq, ok_bind]
    cases Valuation.revenueFactor p.earth with
    | error fault => rfl
    | ok revenue => cases Valuation.costFactor p.earth <;> rfl

theorem marsMultiplier_eq : marsMultiplier m p = m.marsMultiplier p := by
  simp only [marsMultiplier, marsFactor_eq, power_eq, ok_bind]
  rw [Model.marsMultiplier]
  cases Valuation.marsFactor p.mars <;> rfl

theorem mars_eq : mars m p = m.mars p := by
  rw [mars, marsMultiplier_eq, Model.mars]
  cases m.marsMultiplier p <;> rfl

theorem option_eq : option m p = m.option p := by
  rw [option, Model.option]
  cases m.anchors.marsOptionValue with
  | none => exact mars_eq m p
  | some anchor =>
    simp only [marsMultiplier_eq]
    cases m.marsMultiplier p <;> rfl

theorem not_isZero_divisor : ¬ IsZero m.divisor := by
  rw [Model.divisor]
  cases htiny : isTiny m.anchors.normalizationDivisor with
  | true => exact (by decide : ¬ IsZero 1.0)
  | false => exact not_isZero_of_isTiny htiny

theorem total_eq : total m p = m.total p := by
  simp only [total, declineFactor_eq, ok_bind, earth_eq, mars_eq,
    divide_ok_of_ne _ (not_isZero_divisor m)]
  rfl

/-- **No value divides by zero or has a base that its power has no value for.** -/
theorem valueOf_eq (o : Output) : valueOf m p o = m.valueOf p o := by
  cases o with
  | earth => exact earth_eq m p
  | mars => exact mars_eq m p
  | marsOption => exact option_eq m p
  | total => exact total_eq m p

end Value

end Strict

end Appraisal.Valuation
