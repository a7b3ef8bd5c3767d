import Appraisal.Proofs.Number.Order
import Appraisal.Proofs.Valuation.Baseline

/-!
# The baseline changes nothing

At the baseline every factor is exactly one, and one stays one under every exponent. So the amounts
are the anchors, whatever the anchors and the calibration are, and the total combines the values of
the Earth and of Mars by the dilution multiplier and the divisor alone.

* `isTiny_eq` — a divisor is too close to zero if its size is below the least divisor;
* `EarthBreakdown.neutral`, `Model.breakdown_baseline` — the breakdown at the baseline;
* `Model.total_baseline` — the total at the baseline;
* `Model.baseline_neutral` — **every value of every model at the baseline**.
-/

namespace Appraisal.Valuation

open Float.Model Float.Model.UnpackedFloat

/-! ## 1. Divisors -/

theorem swap_compare (e e' : ℤ) (m m' : ℕ) :
    ((compare e e').then (compare m m')).swap = (compare e' e).then (compare m' m) := by
  rw [Ordering.swap_then, Int.compare_swap, Nat.compare_swap]

/-- A divisor is too close to zero if its size is below the least divisor. -/
theorem isTiny_eq (x : Float) : isTiny x = decide (x.abs < 1e-9) := by
  have hpos : 0 < 4835703278458517 := by decide
  have hleast : (1e-9 : Float).toModel.unpack = .finite .positive 4835703278458517 (-82) hpos := rfl
  have hneg : (-1e-9 : Float).toModel.unpack = .finite .negative 4835703278458517 (-82) hpos := rfl
  have hboth : isTiny x = decide ((-1e-9 : Float) < x ∧ x < (1e-9 : Float)) :=
    (Bool.decide_and _ _).symm
  rw [hboth]
  refine decide_eq_decide.mpr ?_
  rw [Number.lt_iff_compare, Number.lt_iff_compare, Number.lt_iff_compare, Number.unpack_abs,
    hleast, hneg]
  cases x.toModel.unpack with
  | notANumber => exact ⟨fun h => h.2, fun h => nomatch h⟩
  | infinity s =>
    refine ⟨fun h => ?_, fun h => ?_⟩
    · cases s with
      | negative => cases h.1
      | positive => cases h.2
    · cases s <;> cases h
  | zero s => exact ⟨fun _ => rfl, fun _ => ⟨rfl, rfl⟩⟩
  | finite s m e hm =>
    cases s with
    | positive => exact ⟨fun h => h.2, fun h => ⟨rfl, h⟩⟩
    | negative =>
      -- below zero the order of sizes is turned round
      have hturned : UnpackedFloat.compare (.finite .negative 4835703278458517 (-82) hpos)
            (.finite .negative m e hm) =
          UnpackedFloat.compare (UnpackedFloat.finite .negative m e hm).abs
            (.finite .positive 4835703278458517 (-82) hpos) :=
        congrArg some (swap_compare (-82) e 4835703278458517 m)
      rw [hturned]
      exact ⟨fun h => h.1, fun h => ⟨h, rfl⟩⟩

/-! ## 2. The Earth -/

/-- The breakdown at the baseline of anchors: every factor is one. -/
def EarthBreakdown.neutral (e : EarthAnchor Float) : EarthBreakdown Float where
  revenueFactor := 1.0
  costFactor := 1.0
  financialFactor := 1.0
  revenueMultiplier := 1.0
  costMultiplier := 1.0
  taxMultiplier := 1.0
  discountFactor := 1.0
  terminalGrowthFactor := 1.0
  financialMultiplier := 1.0
  revenue := e.revenue
  costs := e.costs
  taxes := e.taxes
  valueBeforeDiscount := e.revenue - e.costs - e.taxes
  value := floored (e.revenue - e.costs - e.taxes)

theorem discountFactor_neutral :
    discountFactor (FinancialParameters.baseline : FinancialParameters Float) = 1.0 := by
  decide

theorem terminalGrowthFactor_neutral :
    terminalGrowthFactor (FinancialParameters.baseline : FinancialParameters Float) = 1.0 := by
  decide

/-- Factors of one leave the anchors, whatever they are bent by. -/
theorem breakdownOf_neutral (e : EarthAnchor Float) (c : Calibration Float) :
    breakdownOf e c .baseline 1.0 1.0 = .neutral e := by
  have hproduct : (1.0 : Float) * 1.0 = 1.0 := by decide
  simp only [breakdownOf, power_one, clampCost_one, discountFactor_neutral,
    terminalGrowthFactor_neutral, hproduct, Number.float_mul_one]
  rfl

namespace Model

variable (m : Model Float)

theorem breakdown_baseline : m.breakdown .baseline = .ok (.neutral m.anchors.earth) := by
  rw [breakdown, earthBreakdown_baseline, breakdownOf_neutral]

/-! ## 3. The total -/

/-- The value of the venture at the baseline. -/
def totalAtBaseline : Float :=
  (floored m.anchors.earth.net * m.anchors.dilutionMultiplier + m.anchors.marsValue) /
    if m.anchors.normalizationDivisor.abs < 1e-9 then 1.0 else m.anchors.normalizationDivisor

theorem dilution_baseline : m.dilution .baseline = m.anchors.dilutionMultiplier := by
  have hdecline : declineFactor
      (FinancialParameters.baseline : FinancialParameters Float).dilutionFactor
      (FinancialParameters.baseline : FinancialParameters Float).dilutionFactor = 1.0 := by
    decide +kernel
  have hdilution : m.dilution .baseline = m.anchors.dilutionMultiplier * declineFactor
      (FinancialParameters.baseline : FinancialParameters Float).dilutionFactor
      (FinancialParameters.baseline : FinancialParameters Float).dilutionFactor := rfl
  rw [hdilution, hdecline, Number.float_mul_one]

theorem total_baseline : m.total .baseline = .ok m.totalAtBaseline := by
  have hdivisor : m.divisor =
      if m.anchors.normalizationDivisor.abs < 1e-9 then 1.0
      else m.anchors.normalizationDivisor := by
    rw [divisor, isTiny_eq]
    exact if_congr decide_eq_true_iff rfl rfl
  rw [total, earth_baseline, mars_baseline, dilution_baseline, hdivisor]
  rfl

/-- **The baseline changes nothing**, for any anchors and any calibration. Every factor is exactly
    one, before it is bent by its exponent and after, so that revenue, costs and taxes are the
    anchors. The Earth is worth what they leave, or nothing; Mars and its option are worth their
    anchors, the option that of Mars where it has none; and the total is the value of the Earth
    times the dilution multiplier and the value of Mars, divided by the divisor, or by one where
    its size is below the least. -/
theorem baseline_neutral :
    m.breakdown .baseline = .ok (.neutral m.anchors.earth) ∧
    marsFactor (Parameters.baseline : Parameters Float).mars = .ok 1.0 ∧
    m.marsMultiplier .baseline = .ok 1.0 ∧
    m.valuation .baseline = .ok [
      ("earth", floored
        (m.anchors.earth.revenue - m.anchors.earth.costs - m.anchors.earth.taxes)),
      ("mars", m.anchors.marsValue),
      ("marsOption", m.anchors.marsOptionValue.getD m.anchors.marsValue),
      ("total", m.totalAtBaseline)] := by
  refine ⟨m.breakdown_baseline, marsFactor_baseline, m.marsMultiplier_baseline, ?_⟩
  simp only [valuation, Output.all, List.mapM_cons, List.mapM_nil, valueOf, earth_baseline,
    mars_baseline, option_baseline, total_baseline]
  rfl

end Model

end Appraisal.Valuation
