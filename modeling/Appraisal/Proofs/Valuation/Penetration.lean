import Appraisal.Proofs.Valuation.Exact
import Mathlib.Tactic.Linarith

/-!
# More penetration, no less value

Penetration is a factor of the revenue and a divisor of the costs. The other factors may be zero or
negative, but then the guarded power of the product is zero at every penetration, so that only their
common sign matters.

* `Parameters.withPenetration` — parameters with another penetration;
* `power_mul_mono`, `power_mul_strict` — a guarded power in one factor of its base;
* `clampCost_eq`, `ratio_of_nonneg` — the guards as a maximum and a minimum;
* `exists_revenueFactor`, `exists_costFactor` — the factors as functions of penetration;
* `breakdownOf_value_mono`, `breakdownOf_value_strict` — the value in its two multipliers;
* `Model.earth_mono` — **the value of the Earth never falls with penetration, and rises with it
  where it is positive and revenue depends on its factor**.
-/

namespace Appraisal

section

variable {α : Type}

/-- The parameters with another penetration. -/
def EarthParameters.withPenetration (e : EarthParameters α) (x : α) : EarthParameters α :=
  { e with starlinkPenetration := x }

/-- The parameters with another penetration. -/
def Parameters.withPenetration (p : Parameters α) (x : α) : Parameters α :=
  { p with earth := p.earth.withPenetration x }

end

namespace Valuation

/-! ## 1. Guarded operations -/

section Operations

variable {u v x y exponent : ℝ}

theorem power_nonneg (x exponent : ℝ) : 0 ≤ power x exponent := by
  rcases le_or_gt x 0 with hx | hx
  · rw [power_of_nonpos hx]
  · rw [power_of_pos hx]
    exact Real.rpow_nonneg hx.le exponent

theorem base_pos_of_power_pos (h : 0 < power x exponent) : 0 < x := by
  refine not_le.mp fun hx => ?_
  rw [power_of_nonpos hx] at h
  exact lt_irrefl 0 h

/-- A power does not fall with a positive factor of its base, whatever the sign of the rest is. -/
theorem power_mul_mono (hu : 0 < u) (huv : u ≤ v) (he : 0 ≤ exponent) (rest : ℝ) :
    power (u * rest) exponent ≤ power (v * rest) exponent := by
  rcases le_or_gt rest 0 with hrest | hrest
  · rw [power_of_nonpos (mul_nonpos_of_nonneg_of_nonpos hu.le hrest)]
    exact power_nonneg _ _
  · have hbase : u * rest ≤ v * rest := mul_le_mul_of_nonneg_right huv hrest.le
    have hpos : 0 < u * rest := mul_pos hu hrest
    rw [power_of_pos hpos, power_of_pos (lt_of_lt_of_le hpos hbase)]
    exact Real.rpow_le_rpow hpos.le hbase he

/-- A positive power rises with a positive factor of its base. -/
theorem power_mul_strict {rest : ℝ} (hu : 0 < u) (huv : u < v) (he : 0 < exponent)
    (h : 0 < power (u * rest) exponent) :
    power (u * rest) exponent < power (v * rest) exponent := by
  have hpos : 0 < u * rest := base_pos_of_power_pos h
  have hrest : 0 < rest := (mul_pos_iff_of_pos_left hu).mp hpos
  have hbase : u * rest < v * rest := mul_lt_mul_of_pos_right huv hrest
  rw [power_of_pos hpos, power_of_pos (hpos.trans hbase)]
  exact Real.rpow_lt_rpow hpos.le hbase he

theorem clampCost_eq (x : ℝ) : clampCost x = min (max leastCost x) greatestCost := by
  rw [clampCost, if_pos le_rfl, max_def_lt, min_def_lt]

theorem clampCost_mono (h : x ≤ y) : clampCost x ≤ clampCost y := by
  rw [clampCost_eq, clampCost_eq]
  exact min_le_min_right _ (max_le_max_left _ h)

theorem clampCost_nonneg (x : ℝ) : 0 ≤ clampCost x := by
  rw [clampCost_eq]
  exact le_min (le_max_of_le_left (by norm_num [leastCost])) (by norm_num [greatestCost])

/-- The guard of a quotient by what is not negative keeps the divisor from falling any further. -/
theorem ratio_of_nonneg (x : ℝ) (hy : 0 ≤ y) : ratio x y = x / max leastDivisor y := by
  have hleast : -leastDivisor < y := lt_of_lt_of_le (by norm_num [leastDivisor]) hy
  rw [ratio, isTiny, decide_eq_true hleast, Bool.true_and, zero_point, if_pos hy]
  rcases lt_or_ge y leastDivisor with hy | hy
  · rw [decide_eq_true hy, if_pos rfl, max_eq_left hy.le]
  · rw [decide_eq_false (not_lt.mpr hy), if_neg Bool.false_ne_true, max_eq_right hy]

end Operations

/-! ## 2. Penetration among the factors -/

section Factors

variable {x y : ℝ}

/-- What penetration does to revenue. -/
noncomputable def penetrationFactor (x : ℝ) : ℝ :=
  elastic x (EarthParameters.baseline : EarthParameters ℝ).starlinkPenetration 2.0

theorem penetrationFactor_eq (hx : 0 < x) : penetrationFactor x = (x / 0.15) ^ (2.0 : ℝ) := by
  have hbase : (EarthParameters.baseline : EarthParameters ℝ).starlinkPenetration = 0.15 := rfl
  have hmax : max (leastDivisor : ℝ) 0.15 = 0.15 := max_eq_right (by norm_num [leastDivisor])
  rw [penetrationFactor, elastic, hbase, ratio_of_nonneg x (by norm_num), hmax,
    power_of_pos (div_pos hx (by norm_num))]

theorem penetrationFactor_pos (hx : 0 < x) : 0 < penetrationFactor x := by
  rw [penetrationFactor_eq hx]
  exact Real.rpow_pos_of_pos (div_pos hx (by norm_num)) _

theorem penetrationFactor_strict (hx : 0 < x) (hxy : x < y) :
    penetrationFactor x < penetrationFactor y := by
  have hquotient : x / 0.15 < y / 0.15 := div_lt_div_of_pos_right hxy (by norm_num)
  rw [penetrationFactor_eq hx, penetrationFactor_eq (hx.trans hxy)]
  exact Real.rpow_lt_rpow (div_nonneg hx.le (by norm_num)) hquotient (by norm_num)

theorem penetrationFactor_mono (hx : 0 < x) (hxy : x ≤ y) :
    penetrationFactor x ≤ penetrationFactor y := by
  rcases hxy.eq_or_lt with rfl | hlt
  · exact le_rfl
  · exact (penetrationFactor_strict hx hlt).le

variable (e : EarthParameters ℝ)

/-- The revenue factor is that of penetration times what the other parameters make. -/
theorem exists_revenueFactor : ∃ rest, ∀ x,
    revenueFactor (e.withPenetration x) = .ok (penetrationFactor x * rest) := by
  let base : EarthParameters ℝ := .baseline
  have hone : penetrationFactor base.starlinkPenetration = 1 :=
    elastic_self (by norm_num [leastDivisor, base, EarthParameters.baseline]) _
  refine ⟨revenueDrivers (e.withPenetration base.starlinkPenetration) *
    1.03 ^ (2025 - e.starshipCommercialViabilityYear), fun x => ?_⟩
  have hdrivers : revenueDrivers (e.withPenetration x) = penetrationFactor x *
      revenueDrivers (e.withPenetration base.starlinkPenetration) := by
    show penetrationFactor x * _ * _ * _ * _ * _ * _ * _ * _ * _ * _ * _ = penetrationFactor x *
      (penetrationFactor base.starlinkPenetration * _ * _ * _ * _ * _ * _ * _ * _ * _ * _ * _)
    simp only [hone, one_mul, mul_assoc]
    rfl
  rw [revenueFactor_exact, hdrivers, mul_assoc]
  rfl

theorem scaleFactor_eq (x : ℝ) : scaleFactor (e.withPenetration x) = 1.0 / max leastDivisor
    (penetrationFactor x * elastic e.launchVolume (.baseline : EarthParameters ℝ).launchVolume 0.8) :=
  ratio_of_nonneg 1.0 (mul_nonneg (power_nonneg _ _) (power_nonneg _ _))

theorem scaleFactor_pos (x : ℝ) : 0 < scaleFactor (e.withPenetration x) := by
  rw [scaleFactor_eq]
  exact div_pos (by norm_num) (lt_max_of_lt_left (by norm_num [leastDivisor]))

/-- What scale does to costs does not rise with penetration. -/
theorem scaleFactor_antitone (hx : 0 < x) (hxy : x ≤ y) :
    scaleFactor (e.withPenetration y) ≤ scaleFactor (e.withPenetration x) := by
  have hvolume : 0 ≤ elastic e.launchVolume (.baseline : EarthParameters ℝ).launchVolume 0.8 :=
    power_nonneg _ _
  rw [scaleFactor_eq, scaleFactor_eq]
  refine div_le_div_of_nonneg_left (by norm_num)
    (lt_max_of_lt_left (by norm_num [leastDivisor])) (max_le_max_left _ ?_)
  exact mul_le_mul_of_nonneg_right (penetrationFactor_mono hx hxy) hvolume

/-- The cost factor is that of scale times what the other parameters make. -/
theorem exists_costFactor : ∃ rest, ∀ x,
    costFactor (e.withPenetration x) = .ok (scaleFactor (e.withPenetration x) * rest) := by
  let base : EarthParameters ℝ := .baseline
  refine ⟨declineFactor e.launchPriceDecline base.launchPriceDecline *
    0.95 ^ (2026 - e.starshipReusabilityYear) *
    declineFactor e.wrightsLawLaunchCost base.wrightsLawLaunchCost, fun x => ?_⟩
  rw [← mul_assoc, ← mul_assoc]
  rfl

end Factors

/-! ## 3. The value in its multipliers -/

section Breakdown

variable {anchor : EarthAnchor ℝ} {c : Calibration ℝ} {f : FinancialParameters ℝ}
  {revenue revenue' costs costs' : ℝ}

/-- The value before discounting: what is left of revenue after taxes, less the costs. -/
theorem breakdownOf_before : (breakdownOf anchor c f revenue costs).valueBeforeDiscount =
    (anchor.revenue - anchor.taxes) * power revenue c.revenueExponent -
      anchor.costs * clampCost (power costs c.costExponent) := by
  show anchor.revenue * power revenue c.revenueExponent -
    anchor.costs * clampCost (power costs c.costExponent) -
    anchor.taxes * power revenue c.revenueExponent = _
  ring

theorem breakdownOf_value : (breakdownOf anchor c f revenue costs).value =
    max 0 ((breakdownOf anchor c f revenue costs).valueBeforeDiscount *
      power (discountFactor f * terminalGrowthFactor f) c.valueExponent) := by
  rw [max_def_lt, ← zero_point]
  rfl

theorem breakdownOf_before_mono (htaxes : anchor.taxes ≤ anchor.revenue) (hanchor : 0 ≤ anchor.costs)
    (hrevenue : power revenue c.revenueExponent ≤ power revenue' c.revenueExponent)
    (hcosts : power costs' c.costExponent ≤ power costs c.costExponent) :
    (breakdownOf anchor c f revenue costs).valueBeforeDiscount ≤
      (breakdownOf anchor c f revenue' costs').valueBeforeDiscount := by
  rw [breakdownOf_before, breakdownOf_before]
  exact sub_le_sub (mul_le_mul_of_nonneg_left hrevenue (sub_nonneg.mpr htaxes))
    (mul_le_mul_of_nonneg_left (clampCost_mono hcosts) hanchor)

/-- The value does not fall where the revenue multiplier rises and the cost factor falls. -/
theorem breakdownOf_value_mono (htaxes : anchor.taxes ≤ anchor.revenue)
    (hanchor : 0 ≤ anchor.costs)
    (hrevenue : power revenue c.revenueExponent ≤ power revenue' c.revenueExponent)
    (hcosts : power costs' c.costExponent ≤ power costs c.costExponent) :
    (breakdownOf anchor c f revenue costs).value ≤
      (breakdownOf anchor c f revenue' costs').value := by
  rw [breakdownOf_value, breakdownOf_value]
  exact max_le_max_left 0 (mul_le_mul_of_nonneg_right
    (breakdownOf_before_mono htaxes hanchor hrevenue hcosts) (power_nonneg _ _))

/-- A positive value has a positive financial multiplier, and there are revenues left after taxes. -/
theorem pos_of_value_pos (hanchor : 0 ≤ anchor.costs)
    (h : 0 < (breakdownOf anchor c f revenue costs).value) :
    0 < power (discountFactor f * terminalGrowthFactor f) c.valueExponent ∧
      0 < (anchor.revenue - anchor.taxes) * power revenue c.revenueExponent := by
  rw [breakdownOf_value] at h
  have hproduct := (lt_max_iff.mp h).resolve_left (lt_irrefl 0)
  have hfinancial : 0 < power (discountFactor f * terminalGrowthFactor f) c.valueExponent :=
    (power_nonneg _ _).lt_of_ne' (right_ne_zero_of_mul hproduct.ne')
  have hbefore := (mul_pos_iff_of_pos_right hfinancial).mp hproduct
  rw [breakdownOf_before] at hbefore
  have hcosts : 0 ≤ anchor.costs * clampCost (power costs c.costExponent) :=
    mul_nonneg hanchor (clampCost_nonneg _)
  exact ⟨hfinancial, by linarith⟩

/-- A positive value rises with the revenue multiplier. -/
theorem breakdownOf_value_strict (htaxes : anchor.taxes ≤ anchor.revenue)
    (hanchor : 0 ≤ anchor.costs) (h : 0 < (breakdownOf anchor c f revenue costs).value)
    (hrevenue : power revenue c.revenueExponent < power revenue' c.revenueExponent)
    (hcosts : power costs' c.costExponent ≤ power costs c.costExponent) :
    (breakdownOf anchor c f revenue costs).value <
      (breakdownOf anchor c f revenue' costs').value := by
  obtain ⟨hfinancial, hearned⟩ := pos_of_value_pos hanchor h
  have hshare : 0 < anchor.revenue - anchor.taxes :=
    (sub_nonneg.mpr htaxes).lt_of_ne' (left_ne_zero_of_mul hearned.ne')
  have hbefore : (breakdownOf anchor c f revenue costs).valueBeforeDiscount <
      (breakdownOf anchor c f revenue' costs').valueBeforeDiscount := by
    have hleft := mul_lt_mul_of_pos_left hrevenue hshare
    have hspent := mul_le_mul_of_nonneg_left (clampCost_mono hcosts) hanchor
    rw [breakdownOf_before, breakdownOf_before]
    linarith
  rw [breakdownOf_value] at h ⊢
  rw [breakdownOf_value]
  have hproduct := (lt_max_iff.mp h).resolve_left (lt_irrefl 0)
  have hless := mul_lt_mul_of_pos_right hbefore hfinancial
  rw [max_eq_right hproduct.le, max_eq_right (hproduct.trans hless).le]
  exact hless

end Breakdown

/-! ## 4. The value of the Earth -/

namespace Model

/-- The value of the Earth at a positive penetration. -/
theorem earth_withPenetration (m : Model ℝ) (p : Parameters ℝ) : ∃ revenue costs, ∀ x, 0 < x →
    m.earth (p.withPenetration x) = .ok (breakdownOf m.anchors.earth m.calibration p.financial
      (penetrationFactor x * revenue)
      (scaleFactor (p.earth.withPenetration x) * costs)).value := by
  obtain ⟨revenue, hrevenue⟩ := exists_revenueFactor p.earth
  obtain ⟨costs, hcosts⟩ := exists_costFactor p.earth
  refine ⟨revenue, costs, fun x hx => ?_⟩
  rw [earth, breakdown, earthBreakdown_exact (p := p.withPenetration x) m.anchors m.calibration hx
    (hrevenue x) (hcosts x)]
  rfl

/-- **The value of the Earth never falls with penetration**, and it rises with it where it is
    positive and the exponent of revenue is. -/
theorem earth_mono (m : Model ℝ) (htaxes : m.anchors.earth.taxes ≤ m.anchors.earth.revenue)
    (hanchor : 0 ≤ m.anchors.earth.costs) (hrevenue : 0 ≤ m.calibration.revenueExponent)
    (hcosts : 0 ≤ m.calibration.costExponent) (p : Parameters ℝ) {x y : ℝ} (hx : 0 < x)
    (hxy : x ≤ y) :
    ∃ v w, m.earth (p.withPenetration x) = .ok v ∧ m.earth (p.withPenetration y) = .ok w ∧
      v ≤ w ∧ (x < y → 0 < m.calibration.revenueExponent → 0 < v → v < w) := by
  obtain ⟨revenue, costs, hvalue⟩ := m.earth_withPenetration p
  have hcost := power_mul_mono (scaleFactor_pos p.earth y) (scaleFactor_antitone p.earth hx hxy)
    hcosts costs
  refine ⟨_, _, hvalue x hx, hvalue y (hx.trans_le hxy), ?_, fun hlt hexponent hpos => ?_⟩
  · exact breakdownOf_value_mono htaxes hanchor (power_mul_mono (penetrationFactor_pos hx)
      (penetrationFactor_mono hx hxy) hrevenue revenue) hcost
  · obtain ⟨-, hearned⟩ := pos_of_value_pos hanchor hpos
    have hpower := (power_nonneg _ _).lt_of_ne' (right_ne_zero_of_mul hearned.ne')
    exact breakdownOf_value_strict htaxes hanchor hpos (power_mul_strict
      (penetrationFactor_pos hx) (penetrationFactor_strict hx hlt) hexponent hpower) hcost

end Model

/-- The model of the anchors that are built in, with no factor bent. -/
noncomputable def builtinModel : Model ℝ :=
  ⟨.builtin, .identity⟩

theorem financialFactor_baseline_exact : discountFactor (.baseline : FinancialParameters ℝ) *
    terminalGrowthFactor (.baseline : FinancialParameters ℝ) = 1 := by
  rw [discountFactor_baseline rfl, one_mul, terminalGrowthFactor]
  norm_num [FinancialParameters.baseline, leastSpread]

/-- At the baseline the model has the value that its anchors leave. -/
theorem builtinModel_earth : builtinModel.earth .baseline = .ok 124.48 := by
  have hrevenue : revenueFactor (Parameters.baseline : Parameters ℝ).earth = .ok 1 := by
    refine (revenueFactor_years 2025 2026).trans ?_
    norm_num
  have hcosts : costFactor (Parameters.baseline : Parameters ℝ).earth = .ok 1 := by
    refine (costFactor_years 2025 2026).trans ?_
    norm_num
  have hserved : 0 < (Parameters.baseline : Parameters ℝ).earth.starlinkPenetration := by
    norm_num [Parameters.baseline, EarthParameters.baseline]
  have hpower : ∀ exponent : ℝ, power 1 exponent = 1 := fun exponent => by
    rw [power_of_pos one_pos, Real.one_rpow]
  have hfinancial : discountFactor (Parameters.baseline : Parameters ℝ).financial *
      terminalGrowthFactor (Parameters.baseline : Parameters ℝ).financial = 1 :=
    financialFactor_baseline_exact
  rw [Model.earth, Model.breakdown, earthBreakdown_exact _ _ hserved hrevenue hcosts, Except.map,
    breakdownOf_value, breakdownOf_before, hfinancial, hpower, hpower, hpower,
    clampCost_of_mem (by norm_num [leastCost]) (by norm_num [greatestCost])]
  norm_num [builtinModel, Anchors.builtin, EarthAnchor.builtin]

theorem earth_mono_doubled : ∃ v w,
    builtinModel.earth (Parameters.baseline.withPenetration 0.15) = .ok v ∧
      builtinModel.earth (Parameters.baseline.withPenetration 0.3) = .ok w ∧ 0 < v ∧ v < w := by
  obtain ⟨v, w, hv, hw, -, hstrict⟩ := builtinModel.earth_mono
    (by norm_num [builtinModel, Anchors.builtin, EarthAnchor.builtin])
    (by norm_num [builtinModel, Anchors.builtin, EarthAnchor.builtin])
    (by norm_num [builtinModel, Calibration.identity])
    (by norm_num [builtinModel, Calibration.identity]) .baseline
    (by norm_num : (0 : ℝ) < 0.15) (by norm_num : (0.15 : ℝ) ≤ 0.3)
  have hpos : 0 < v := by
    rw [← Except.ok.inj (builtinModel_earth.symm.trans hv)]
    norm_num
  exact ⟨v, w, hv, hw, hpos, hstrict (by norm_num)
    (by norm_num [builtinModel, Calibration.identity]) hpos⟩

end Valuation

end Appraisal
