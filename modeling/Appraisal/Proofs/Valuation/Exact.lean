import Appraisal.Valuation.Model
import Mathlib.Analysis.SpecialFunctions.Log.Basic
import Mathlib.Analysis.SpecialFunctions.Pow.Real
import Mathlib.Tactic.NormNum

/-!
# Exact valuations

The rules of a valuation read over the real numbers, where nothing is rounded and nothing leaves its
range: logarithms and powers are the real ones, and growth over years always has a value.

* the instance of `Transcendental` for the real numbers;
* `power_of_pos`, `power_of_nonpos`, `clampCost_of_mem`, `ratio_nonpos` — the guarded operations
  where their guards let a number pass, and where they do not;
* `revenueFactor_exact`, `marsFactor_exact` — the factors;
* `earthBreakdown_exact` — the breakdown of parameters with penetration;
* `revenueFactor_years`, `costFactor_years`, `discountFactor_baseline` — the factors where only the
  years are not those of the baseline.
-/

namespace Appraisal

/-- Over the real numbers logarithms and powers are exact, and growth never leaves its range. -/
noncomputable instance : Transcendental ℝ where
  log := Real.log
  positivePower := fun base exponent => base ^ exponent
  compound := fun rate years => .ok (rate ^ years)

namespace Valuation

/-! ## 1. Guarded operations -/

section Operations

variable {x y : ℝ}

theorem zero_point : (0.0 : ℝ) = 0 := by
  norm_num

theorem power_of_pos (h : 0 < x) (exponent : ℝ) : power x exponent = x ^ exponent := by
  rw [power, zero_point, if_pos h]
  rfl

theorem power_of_nonpos (h : x ≤ 0) (exponent : ℝ) : power x exponent = 0 := by
  rw [power, zero_point, if_neg (not_lt.mpr h)]

/-- A cost multiplier between the bounds is kept. -/
theorem clampCost_of_mem (hleast : leastCost ≤ x) (hgreatest : x ≤ greatestCost) :
    clampCost x = x := by
  rw [clampCost, if_pos le_rfl]
  by_cases hraised : leastCost < x
  · simp only [if_pos hraised]
    exact ite_eq_left_iff.mpr fun h => le_antisymm (not_lt.mp h) hgreatest
  · have heq : x = leastCost := le_antisymm (not_lt.mp hraised) hleast
    simp only [if_neg hraised]
    rw [← heq]
    exact ite_eq_left_iff.mpr fun h => le_antisymm (not_lt.mp h) hgreatest

/-- The quotient of what is not positive by a positive baseline is not positive. -/
theorem ratio_nonpos (hx : x ≤ 0) (hy : 0 ≤ y) : ratio x y ≤ 0 := by
  have hleast : (0 : ℝ) ≤ leastDivisor := by
    rw [leastDivisor]
    norm_num
  rw [ratio, zero_point, if_pos hy]
  split
  · exact div_nonpos_of_nonpos_of_nonneg hx hleast
  · exact div_nonpos_of_nonpos_of_nonneg hx hy

end Operations

/-! ## 2. Factors -/

section Factors

variable {e : EarthParameters ℝ} {m : MarsParameters ℝ}

theorem revenueFactor_exact (e : EarthParameters ℝ) : revenueFactor e =
    .ok (revenueDrivers e * 1.03 ^ (2025 - e.starshipCommercialViabilityYear)) := rfl

theorem marsFactor_exact (m : MarsParameters ℝ) : ∃ x, marsFactor m = .ok x := ⟨_, rfl⟩

/-- Without penetration there is no revenue. -/
theorem revenueDrivers_of_nonpos (h : e.starlinkPenetration ≤ 0) : revenueDrivers e = 0 := by
  have hbase : (0 : ℝ) ≤ (EarthParameters.baseline : EarthParameters ℝ).starlinkPenetration := by
    rw [EarthParameters.baseline]
    norm_num
  have hnone : elastic e.starlinkPenetration
      (EarthParameters.baseline : EarthParameters ℝ).starlinkPenetration 2.0 = 0 :=
    power_of_nonpos (ratio_nonpos h hbase) _
  simp only [revenueDrivers, hnone, zero_mul]

theorem penetration_pos {x : ℝ} (h : revenueFactor e = .ok x) (hx : 0 < x) :
    0 < e.starlinkPenetration := by
  refine not_le.mp fun hnone => ?_
  rw [revenueFactor_exact, revenueDrivers_of_nonpos hnone, zero_mul] at h
  exact lt_irrefl _ (Except.ok.inj h ▸ hx)

/-- The breakdown of parameters with penetration. -/
theorem earthBreakdown_exact {p : Parameters ℝ} {revenue costs : ℝ} (a : Anchors ℝ)
    (c : Calibration ℝ) (hp : 0 < p.earth.starlinkPenetration)
    (hrevenue : revenueFactor p.earth = .ok revenue) (hcosts : costFactor p.earth = .ok costs) :
    earthBreakdown p a c = .ok (breakdownOf a.earth c p.financial revenue costs) := by
  rw [earthBreakdown, zero_point, if_neg (not_le.mpr hp), hrevenue, hcosts]
  rfl

end Factors

/-! ## 3. The baseline -/

section Baseline

variable {x : ℝ}

theorem ratio_self (h : leastDivisor ≤ x) : ratio x x = 1 := by
  have hpos : 0 < x := lt_of_lt_of_le (by norm_num [leastDivisor]) h
  have hbig : isTiny x = false := by
    rw [isTiny, decide_eq_false (not_lt.mpr h), Bool.and_false]
  rw [ratio, hbig, if_neg Bool.false_ne_true, div_self hpos.ne']

theorem elastic_self (h : leastDivisor ≤ x) (elasticity : ℝ) : elastic x x elasticity = 1 := by
  rw [elastic, ratio_self h, power_of_pos one_pos, Real.one_rpow]

theorem declineFactor_self (h : leastDivisor ≤ 1.0 - x) : declineFactor x x = 1 :=
  ratio_self h

/-- At the baseline every driver of revenue is one. -/
theorem revenueDrivers_baseline : revenueDrivers (.baseline : EarthParameters ℝ) = 1 := by
  simp only [revenueDrivers, otherLaunchesFactor, thresholdFactor, EarthParameters.baseline]
  simp (disch := norm_num [leastDivisor]) only [elastic_self, ratio_self, declineFactor_self]
  norm_num

/-- At the baseline scale leaves the costs as they are. -/
theorem scaleFactor_baseline : scaleFactor (.baseline : EarthParameters ℝ) = 1 := by
  simp only [scaleFactor, EarthParameters.baseline]
  simp (disch := norm_num [leastDivisor]) only [elastic_self]
  have hone : (1.0 : ℝ) = 1 * 1 := by norm_num
  rw [← hone, ratio_self (by norm_num [leastDivisor])]

/-- The baseline with other years of commercial viability and of reuse. -/
noncomputable def baselineWithYears (viability reuse : Int) : EarthParameters ℝ :=
  { EarthParameters.baseline with
    starshipCommercialViabilityYear := viability
    starshipReusabilityYear := reuse }

variable (viability reuse : Int)

theorem revenueFactor_years :
    revenueFactor (baselineWithYears viability reuse) = .ok (1.03 ^ (2025 - viability)) := by
  have hdrivers : revenueDrivers (baselineWithYears viability reuse) = 1 := revenueDrivers_baseline
  rw [revenueFactor_exact, hdrivers, one_mul]
  rfl

theorem costFactor_years :
    costFactor (baselineWithYears viability reuse) = .ok (0.95 ^ (2026 - reuse)) := by
  have hscale : scaleFactor (baselineWithYears viability reuse) = 1 := scaleFactor_baseline
  have hprice : declineFactor (0.08 : ℝ) 0.08 = 1 :=
    declineFactor_self (by norm_num [leastDivisor])
  have hlaunch : declineFactor (0.05 : ℝ) 0.05 = 1 :=
    declineFactor_self (by norm_num [leastDivisor])
  have hfactor : costFactor (baselineWithYears viability reuse) =
      .ok (scaleFactor (baselineWithYears viability reuse) * declineFactor 0.08 0.08 *
        0.95 ^ (2026 - reuse) * declineFactor 0.05 0.05) := rfl
  rw [hfactor, hscale, hprice, hlaunch, mul_one, mul_one, one_mul]

/-- At the discount rate of the baseline a value is left as it is. -/
theorem discountFactor_baseline {f : FinancialParameters ℝ}
    (h : f.discountRate = (FinancialParameters.baseline : FinancialParameters ℝ).discountRate) :
    discountFactor f = 1 := by
  have hpos : (0 : ℝ) < 0.12 := by norm_num
  have hrate : ¬ f.discountRate < leastDivisor := by
    rw [h]
    norm_num [leastDivisor, FinancialParameters.baseline]
  have hone : (FinancialParameters.baseline : FinancialParameters ℝ).discountRate /
      f.discountRate = 1 := by
    rw [h]
    exact div_self hpos.ne'
  rw [discountFactor]
  simp only [if_neg hrate, hone]
  rw [power_of_pos one_pos, Real.one_rpow]

end Baseline

end Valuation

end Appraisal
