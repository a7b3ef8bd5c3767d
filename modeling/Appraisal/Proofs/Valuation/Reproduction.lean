import Appraisal.Proofs.Valuation.Exact
import Appraisal.Proofs.Valuation.Fitted

/-!
# A fit reproduces its point

With a single point the closed form makes each exponent the quotient of two logarithms, so that the
factor under its exponent is the target itself. The revenue and the costs of the point come out
first; the value is fitted to what these leave before discounting, and comes out because the model
leaves the same.

* `Telling` — a factor that says something about its exponent;
* `power_fitted` — **a factor under the exponent fitted to a target is the target**;
* `Reproducible` — anchors and a scenario from which a fit can learn revenue and costs;
* `Fitted.reproduces` — a calibration fitted to one point, and what it makes of the parameters;
* `fitCalibration_reproduces` — **the model of a fit gives back the figures of its point**.
-/

namespace Appraisal.Valuation

/-! ## 1. One sample -/

section Sample

variable {factor target : ℝ}

/-- A factor says something about its exponent: it is positive and not too close to one. -/
structure Telling (factor : ℝ) : Prop where
  pos : 0 < factor
  far : 1e-9 < |Real.log factor|

theorem Telling.log_ne_zero (h : Telling factor) : Real.log factor ≠ 0 := by
  intro hzero
  have hfar := h.far
  rw [hzero, abs_zero] at hfar
  norm_num at hfar

theorem sample?_of_telling (h : Telling factor) (ht : 0 < target) :
    sample? factor target = some ⟨Real.log factor, Real.log target⟩ := by
  have hfar : 1e-9 < Real.log factor ∨ Real.log factor < -1e-9 :=
    (lt_abs.mp h.far).imp id lt_neg.mp
  rw [sample?, zero_point, if_pos ⟨h.pos, ht⟩]
  exact if_pos hfar

theorem fitExponent_one (x y : ℝ) : fitExponent [⟨x, y⟩] = .ok (x * y / (x * x)) := by
  simp [fitExponent, LeastSquares.exponent, leftSum, zero_point]

/-- **A factor under the exponent fitted to a target is the target.** -/
theorem power_fitted (h : Telling factor) (ht : 0 < target) {k : ℝ}
    (hk : fitExponent (sample? factor target).toList = .ok k) : power factor k = target := by
  rw [sample?_of_telling h ht, Option.toList_some, fitExponent_one] at hk
  cases hk
  have hslope : Real.log factor * Real.log target / (Real.log factor * Real.log factor) =
      Real.log target / Real.log factor :=
    mul_div_mul_left _ _ h.log_ne_zero
  rw [hslope, power_of_pos h.pos, Real.rpow_def_of_pos h.pos, mul_div_cancel₀ _ h.log_ne_zero,
    Real.exp_log ht]

end Sample

theorem filterMap_one {β : Type} (f : β → Option (Sample ℝ)) (x : β) :
    [x].filterMap f = (f x).toList := by
  cases h : f x <;> simp [h]

/-! ## 2. The first stage -/

section Point

variable {a : Anchors ℝ} {point : CalibrationPoint ℝ} {target : EarthAnchor ℝ}

theorem divide_ok {x y : ℝ} (h : y ≠ 0) : divide x y = .ok (x / y) := by
  have hno : ¬ (y ≤ 0.0 ∧ 0.0 ≤ y) := fun hzero => h (by
    rw [zero_point] at hzero
    exact le_antisymm hzero.1 hzero.2)
  exact if_neg hno

theorem not_zero_of_pos (x : ℝ) (h : 0.0 < x) : ¬ (x ≤ 0.0 ∧ 0.0 ≤ x) :=
  fun hzero => not_lt_of_ge hzero.1 h

theorem divide_zero (x : ℝ) : divide x 0 = .error .divisionByZero := by
  rw [divide, zero_point, if_pos ⟨le_rfl, le_rfl⟩]

theorem bootstrapFactor_pos (m : MarsParameters ℝ) : 0 < bootstrapFactor m := by
  rw [bootstrapFactor]
  split <;> norm_num

/-- A point says something about Mars unless it has a target of Mars over an anchor of zero. -/
theorem marsSample_ok_iff :
    (∃ sample, marsSample a point = .ok sample) ↔ point.marsValue = none ∨ a.marsValue ≠ 0 := by
  unfold marsSample
  cases point.marsValue with
  | none => exact ⟨fun _ => Or.inl rfl, fun _ => ⟨none, rfl⟩⟩
  | some goal =>
    obtain ⟨factor, hfactor⟩ := marsFactor_exact point.parameters.mars
    simp only [hfactor]
    by_cases hzero : a.marsValue = 0
    · rw [hzero, zero_mul]
      constructor
      · rintro ⟨sample, hsample⟩
        rw [divide_zero] at hsample
        cases hsample
      · rintro (hnone | hne)
        · cases hnone
        · exact absurd rfl hne
    · rw [divide_ok (mul_ne_zero hzero (bootstrapFactor_pos _).ne')]
      exact ⟨fun _ => Or.inr hzero, fun _ => ⟨_, rfl⟩⟩

/-- Anchors and a scenario with known figures from which a fit can learn the exponents of revenue
    and costs: its factors are telling, and its costs are a multiple of the anchor's that the bounds
    of the cost multiplier let pass. -/
structure Reproducible (a : Anchors ℝ) (p : Parameters ℝ) (target : EarthAnchor ℝ) : Prop where
  revenueAnchor : 0 < a.earth.revenue
  costsAnchor : 0 < a.earth.costs
  revenueFactor : ∃ x, revenueFactor p.earth = .ok x ∧ Telling x
  costFactor : ∃ x, costFactor p.earth = .ok x ∧ Telling x
  revenueTarget : 0 < target.revenue
  costsTarget : 0 < target.costs
  costsLeast : 0.1 ≤ target.costs / a.earth.costs
  costsGreatest : target.costs / a.earth.costs ≤ 2.0

/-- The factors of a scenario, as a fit and the model both compute them. -/
structure Factors (p : Parameters ℝ) (revenue costs : ℝ) : Prop where
  revenue : revenueFactor p.earth = .ok revenue
  costs : costFactor p.earth = .ok costs
  served : 0 < p.earth.starlinkPenetration

theorem Factors.breakdown {p : Parameters ℝ} {revenue costs : ℝ} (h : Factors p revenue costs)
    (a : Anchors ℝ) (c : Calibration ℝ) :
    earthBreakdown p a c = .ok (breakdownOf a.earth c p.financial revenue costs) :=
  earthBreakdown_exact a c h.served h.revenue h.costs

/-- The samples of known Earth figures for given factors of revenue and costs. -/
noncomputable def samplesOf (a : Anchors ℝ) (target : EarthAnchor ℝ) (revenue costs : ℝ) :
    Option (Sample ℝ) × Option (Sample ℝ) :=
  (sample? revenue (target.revenue / a.earth.revenue),
    sample? costs (target.costs / a.earth.costs))

theorem earthSamples_of_factors (htarget : point.earth = some target) {revenue costs : ℝ}
    (hf : Factors point.parameters revenue costs) (hrevenue : a.earth.revenue ≠ 0)
    (hcosts : a.earth.costs ≠ 0) :
    earthSamples a point = .ok (samplesOf a target revenue costs) := by
  unfold earthSamples
  simp only [htarget, hf.breakdown, divide_ok hrevenue, divide_ok hcosts]
  rfl

theorem earthSamples_reproducible (h : Reproducible a point.parameters target)
    (htarget : point.earth = some target) {revenue costs : ℝ}
    (hf : Factors point.parameters revenue costs) :
    earthSamples a point = .ok (samplesOf a target revenue costs) :=
  earthSamples_of_factors htarget hf h.revenueAnchor.ne' h.costsAnchor.ne'

/-- **After the first stage the model has the revenue and the costs of the point.** -/
theorem breakdownOf_fitted (h : Reproducible a point.parameters target) {revenue costs : ℝ}
    (hrevenue : Telling revenue) (hcosts : Telling costs) {c : Calibration ℝ}
    (hr : fitExponent (sample? revenue (target.revenue / a.earth.revenue)).toList =
      .ok c.revenueExponent)
    (hc : fitExponent (sample? costs (target.costs / a.earth.costs)).toList =
      .ok c.costExponent)
    (f : FinancialParameters ℝ) :
    (breakdownOf a.earth c f revenue costs).revenue = target.revenue ∧
      (breakdownOf a.earth c f revenue costs).costs = target.costs := by
  constructor
  · show a.earth.revenue * power revenue c.revenueExponent = target.revenue
    rw [power_fitted hrevenue (div_pos h.revenueTarget h.revenueAnchor) hr,
      mul_div_cancel₀ _ h.revenueAnchor.ne']
  · show a.earth.costs * clampCost (power costs c.costExponent) = target.costs
    rw [power_fitted hcosts (div_pos h.costsTarget h.costsAnchor) hc,
      clampCost_of_mem h.costsLeast h.costsGreatest, mul_div_cancel₀ _ h.costsAnchor.ne']

/-! ## 3. The second stage -/

/-- What the second stage takes from a point does not depend on the exponent of the value: it can be
    read from the breakdown of any calibration with the same exponents of revenue and costs. -/
theorem valueSample_of_before_pos (htarget : point.earth = some target) {revenue costs : ℝ}
    (hf : Factors point.parameters revenue costs) {c c' : Calibration ℝ} {b : EarthBreakdown ℝ}
    (hr : c.revenueExponent = c'.revenueExponent) (hc : c.costExponent = c'.costExponent)
    (hb : b = breakdownOf a.earth c' point.parameters.financial revenue costs)
    (hbefore : 0 < b.valueBeforeDiscount) :
    valueSample a c point =
      .ok (sample? b.financialFactor (target.value / b.valueBeforeDiscount)) := by
  have hsame : (breakdownOf a.earth c point.parameters.financial revenue costs).valueBeforeDiscount
      = b.valueBeforeDiscount := by
    rw [hb]
    simp only [breakdownOf, hr, hc]
  have hfactor : (breakdownOf a.earth c point.parameters.financial revenue costs).financialFactor
      = b.financialFactor := by
    rw [hb]
    rfl
  unfold valueSample
  simp only [htarget, hf.breakdown]
  show (if 0.0 < (breakdownOf a.earth c _ revenue costs).valueBeforeDiscount then _ else _) = _
  rw [hsame, zero_point, if_pos hbefore, divide_ok hbefore.ne', hfactor]
  rfl

/-- The breakdown has the value that the exponent of the value was fitted to. -/
theorem breakdownOf_value_fitted {anchor : EarthAnchor ℝ} {c : Calibration ℝ}
    {f : FinancialParameters ℝ} {revenue costs value : ℝ} {b : EarthBreakdown ℝ}
    (hb : b = breakdownOf anchor c f revenue costs)
    (hc : fitExponent (sample? b.financialFactor (value / b.valueBeforeDiscount)).toList =
      .ok c.valueExponent)
    (hfactor : Telling b.financialFactor) (hbefore : 0 < b.valueBeforeDiscount)
    (hvalue : 0 < value) : b.value = value := by
  have hexact : b.valueBeforeDiscount * power b.financialFactor c.valueExponent = value := by
    rw [power_fitted hfactor (div_pos hvalue hbefore) hc, mul_div_cancel₀ _ hbefore.ne']
  have hfloor : b.value = if 0.0 < b.valueBeforeDiscount * power b.financialFactor c.valueExponent
      then b.valueBeforeDiscount * power b.financialFactor c.valueExponent else 0.0 := by
    rw [hb]
    rfl
  rw [hfloor, hexact, zero_point, if_pos hvalue]

/-! ## 4. The model of a fit -/

/-- The model has at the parameters the revenue and the costs of the target; and its value too, if
    the financial factor is telling, and the values before discounting and of the target are
    positive. -/
def Model.Reproduces (m : Model ℝ) (p : Parameters ℝ) (target : EarthAnchor ℝ) : Prop :=
  ∃ b, m.breakdown p = .ok b ∧ b.revenue = target.revenue ∧ b.costs = target.costs ∧
    (Telling b.financialFactor → 0 < b.valueBeforeDiscount → 0 < target.value →
      m.earth p = .ok target.value)

/-- **The model of a calibration fitted to one point gives back its figures.** -/
theorem Fitted.reproduces {version : String} {c : Calibration ℝ}
    (hfit : Fitted a version [point] c) (htarget : point.earth = some target)
    (h : Reproducible a point.parameters target) :
    (Model.mk a c).Reproduces point.parameters target := by
  obtain ⟨revenue, hrevenue, htelling⟩ := h.revenueFactor
  obtain ⟨costs, hcosts, htelling'⟩ := h.costFactor
  have hf : Factors point.parameters revenue costs :=
    ⟨hrevenue, hcosts, penetration_pos hrevenue htelling.pos⟩
  have hsamples := earthSamples_reproducible h htarget hf
  have hr : fitExponent (sample? revenue (target.revenue / a.earth.revenue)).toList =
      .ok c.revenueExponent := by
    rw [← hfit.revenue, filterMap_one, toldRevenue, hsamples]
    rfl
  have hc : fitExponent (sample? costs (target.costs / a.earth.costs)).toList =
      .ok c.costExponent := by
    rw [← hfit.costs, filterMap_one, toldCosts, hsamples]
    rfl
  have hfigures := breakdownOf_fitted h htelling htelling' hr hc point.parameters.financial
  refine ⟨_, hf.breakdown a c, hfigures.1, hfigures.2, fun hfinancial hbefore hpos => ?_⟩
  have hsample : valueSample a (firstStage version c.revenueExponent c.costExponent) point = _ :=
    valueSample_of_before_pos htarget hf rfl rfl rfl hbefore
  have hv := hfit.value
  rw [filterMap_one, toldValue, hsample] at hv
  rw [Model.earth, Model.breakdown, hf.breakdown]
  exact congrArg Except.ok (breakdownOf_value_fitted rfl hv hfinancial hbefore hpos)

/-- **The model of a fit gives back the figures of its point.** A fit to one point with known figures
    of the Earth comes to an end unless the point has a value of Mars over an anchor of zero. -/
theorem fitCalibration_reproduces (htarget : point.earth = some target)
    (h : Reproducible a point.parameters target) (version : String) :
    ((∃ c, fitCalibration [point] a version = .ok c) ↔
        point.marsValue = none ∨ a.marsValue ≠ 0) ∧
      ∀ c, fitCalibration [point] a version = .ok c →
        (Model.mk a c).Reproduces point.parameters target := by
  obtain ⟨revenue, hrevenue, htelling⟩ := h.revenueFactor
  obtain ⟨costs, hcosts, -⟩ := h.costFactor
  have hf : Factors point.parameters revenue costs :=
    ⟨hrevenue, hcosts, penetration_pos hrevenue htelling.pos⟩
  rw [← marsSample_ok_iff]
  refine ⟨⟨fun ⟨c, hc⟩ => ?_, fun hmars => ?_⟩, fun c hc => (fitted_of_ok hc).reproduces htarget h⟩
  · exact (fitted_of_ok hc).mars_ok point (List.mem_singleton_self point)
  · have hearth := earthSamples_reproducible h htarget hf
    exact exists_fit (LeastSquares.closedForm_answers _) not_zero_of_pos
      (List.forall_mem_singleton.mpr ⟨_, hearth⟩) (List.forall_mem_singleton.mpr hmars)

end Point

/-! ## 5. A scenario whose figures are known -/

/-- The baseline with ships that earn money and are reused one year earlier, and a greater terminal
    growth. -/
noncomputable def earlier : Parameters ℝ :=
  { Parameters.baseline with
    earth := baselineWithYears 2024 2025
    financial := { FinancialParameters.baseline with terminalGrowth := 0.075 } }

/-- Figures for that scenario. -/
noncomputable def earlierFigures : EarthAnchor ℝ :=
  ⟨200, 10, 20, 300⟩

/-- The point of that scenario, with no value of Mars. -/
noncomputable def earlierPoint : CalibrationPoint ℝ :=
  ⟨"earlier", earlier, some earlierFigures, none⟩

theorem telling_of_one_lt {x : ℝ} (h : 1.01 ≤ x) : Telling x := by
  have hpos : 0 < x := lt_of_lt_of_le (by norm_num) h
  have hlog : 1 - x⁻¹ ≤ Real.log x := Real.one_sub_inv_le_log_of_pos hpos
  have hinv : x⁻¹ ≤ 1.01⁻¹ := inv_anti₀ (by norm_num) h
  refine ⟨hpos, lt_of_lt_of_le ?_ (le_abs_self _)⟩
  norm_num at hinv ⊢
  linarith

theorem telling_of_lt_one {x : ℝ} (hpos : 0 < x) (h : x ≤ 0.99) : Telling x := by
  have hlog : Real.log x ≤ x - 1 := Real.log_le_sub_one_of_pos hpos
  refine ⟨hpos, lt_of_lt_of_le ?_ (neg_le_abs _)⟩
  norm_num at h ⊢
  linarith

theorem earlier_revenueFactor : revenueFactor earlier.earth = .ok 1.03 := by
  rw [earlier, revenueFactor_years]
  norm_num

theorem earlier_costFactor : costFactor earlier.earth = .ok 0.95 := by
  rw [earlier, costFactor_years]
  norm_num

theorem earlier_financialFactor :
    discountFactor earlier.financial * terminalGrowthFactor earlier.financial = 1.6 := by
  have hdiscount : discountFactor earlier.financial = 1 := discountFactor_baseline rfl
  rw [hdiscount, one_mul, terminalGrowthFactor]
  norm_num [earlier, FinancialParameters.baseline, leastSpread]

theorem earlier_reproducible : Reproducible .builtin earlier earlierFigures where
  revenueAnchor := by norm_num [Anchors.builtin, EarthAnchor.builtin]
  costsAnchor := by norm_num [Anchors.builtin, EarthAnchor.builtin]
  revenueFactor := ⟨_, earlier_revenueFactor, telling_of_one_lt (by norm_num)⟩
  costFactor := ⟨_, earlier_costFactor, telling_of_lt_one (by norm_num) (by norm_num)⟩
  revenueTarget := by norm_num [earlierFigures]
  costsTarget := by norm_num [earlierFigures]
  costsLeast := by norm_num [Anchors.builtin, EarthAnchor.builtin, earlierFigures]
  costsGreatest := by norm_num [Anchors.builtin, EarthAnchor.builtin, earlierFigures]

theorem fitCalibration_reproduces_earlier :
    ∃ c, fitCalibration [earlierPoint] .builtin "fitted" = .ok c ∧
      (Model.mk .builtin c).earth earlier = .ok 300 ∧
      ∃ b, (Model.mk .builtin c).breakdown earlier = .ok b ∧ b.revenue = 200 ∧ b.costs = 10 := by
  have htarget : earlierPoint.earth = some earlierFigures := rfl
  obtain ⟨hends, hmodel⟩ := fitCalibration_reproduces htarget earlier_reproducible "fitted"
  obtain ⟨c, hc⟩ := hends.mpr (Or.inl rfl)
  obtain ⟨b, hb, hrevenue, hcosts, hvalue⟩ := hmodel c hc
  have hf : Factors earlier 1.03 0.95 :=
    ⟨earlier_revenueFactor, earlier_costFactor, penetration_pos earlier_revenueFactor (by norm_num)⟩
  have hparts := Except.ok.inj ((hf.breakdown .builtin c).symm.trans hb)
  have hfactor : b.financialFactor = 1.6 := hparts ▸ earlier_financialFactor
  have hbefore : 0 < b.valueBeforeDiscount := by
    have hmultiple : 148.13 * b.revenueMultiplier = 200 := by
      rw [← show b.revenue = 200 from hrevenue, ← hparts]
      rfl
    have hleft : b.valueBeforeDiscount = 200 - 10 - 13.33 * b.revenueMultiplier := by
      rw [← show b.revenue = 200 from hrevenue, ← show b.costs = 10 from hcosts, ← hparts]
      rfl
    rw [hleft]
    norm_num at hmultiple ⊢
    linarith
  exact ⟨c, hc, hvalue (hfactor ▸ telling_of_one_lt (by norm_num)) hbefore
    (by norm_num [earlierFigures]), b, hb, hrevenue, hcosts⟩

end Appraisal.Valuation
