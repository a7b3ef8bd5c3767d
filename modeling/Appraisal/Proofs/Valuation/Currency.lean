import Appraisal.Proofs.Valuation.Reproduction

/-!
# A change of currency

Amounts may be counted in another unit, which multiplies all of them by the same positive number.
Targets are compared with anchors and with each other by quotients alone, so that a fit does not
notice, whatever its solver is; what is computed from the anchors is then counted in the new unit,
down to the value that is kept from being a loss.

* `EarthAnchor.scaled`, `Anchors.scaled`, `CalibrationPoint.scaled`, `EarthBreakdown.scaled` —
  amounts in another unit;
* `earthBreakdown_scaled` — the breakdown of scaled anchors is the scaled breakdown;
* `fitCalibration_scaled` — **a fit of scaled points to scaled anchors is the fit of the points**;
* `Model.valueOf_scaled` — the values of scaled anchors are the scaled values;
* `ofAnchors_scaled` — **the model that is built in, in another unit**.
-/

namespace Appraisal

/-! ## 1. Amounts in another unit -/

section

variable {α : Type} [Mul α]

/-- The figures with every amount multiplied. -/
def EarthAnchor.scaled (k : α) (e : EarthAnchor α) : EarthAnchor α :=
  ⟨k * e.revenue, k * e.costs, k * e.taxes, k * e.value⟩

/-- The anchors with every amount multiplied. The multiplier and the divisor of the total are no
    amounts. -/
def Anchors.scaled (k : α) (a : Anchors α) : Anchors α :=
  { a with
    earth := a.earth.scaled k
    marsValue := k * a.marsValue
    marsOptionValue := a.marsOptionValue.map (k * ·) }

/-- The scenario with every amount multiplied. -/
def CalibrationPoint.scaled (k : α) (p : CalibrationPoint α) : CalibrationPoint α :=
  { p with
    earth := p.earth.map (·.scaled k)
    marsValue := p.marsValue.map (k * ·) }

/-- The breakdown with every amount multiplied, and every factor as it is. -/
def Valuation.EarthBreakdown.scaled (k : α) (b : Valuation.EarthBreakdown α) :
    Valuation.EarthBreakdown α :=
  { b with
    revenue := k * b.revenue
    costs := k * b.costs
    taxes := k * b.taxes
    valueBeforeDiscount := k * b.valueBeforeDiscount
    value := k * b.value }

end

namespace Valuation

/-! ## 2. Breakdowns -/

section Breakdown

variable {k : ℝ}

theorem floor_scaled (hk : 0 < k) (x : ℝ) :
    (if 0.0 < k * x then k * x else 0.0) = k * if 0.0 < x then x else 0.0 := by
  rw [zero_point]
  by_cases hx : 0 < x
  · rw [if_pos hx, if_pos (mul_pos hk hx)]
  · rw [if_neg hx, if_neg fun h => hx ((mul_pos_iff_of_pos_left hk).mp h), mul_zero]

theorem breakdownOf_scaled (hk : 0 < k) (anchor : EarthAnchor ℝ) (c : Calibration ℝ)
    (f : FinancialParameters ℝ) (revenue costs : ℝ) :
    breakdownOf (anchor.scaled k) c f revenue costs =
      (breakdownOf anchor c f revenue costs).scaled k := by
  simp only [breakdownOf, EarthAnchor.scaled, EarthBreakdown.scaled, mul_assoc, ← mul_sub,
    floor_scaled hk]

/-- **The breakdown of scaled anchors is the scaled breakdown.** -/
theorem earthBreakdown_scaled (hk : 0 < k) (p : Parameters ℝ) (a : Anchors ℝ) (c : Calibration ℝ) :
    earthBreakdown p (a.scaled k) c = (earthBreakdown p a c).map (·.scaled k) := by
  have hzero : (EarthBreakdown.zero : EarthBreakdown ℝ).scaled k = .zero := by
    simp only [EarthBreakdown.scaled, EarthBreakdown.zero, zero_point, mul_zero]
  unfold earthBreakdown
  by_cases hnone : p.earth.starlinkPenetration ≤ 0.0
  · rw [if_pos hnone, if_pos hnone, Except.map, hzero]
  · rw [if_neg hnone, if_neg hnone]
    cases revenueFactor p.earth with
    | error fault => rfl
    | ok revenue =>
      cases costFactor p.earth with
      | error fault => rfl
      | ok costs => exact congrArg Except.ok (breakdownOf_scaled hk a.earth c p.financial _ _)

end Breakdown

/-! ## 3. The fit -/

section Fit

variable {k : ℝ}

theorem divide_scaled (hk : 0 < k) (x y : ℝ) : divide (k * x) (k * y) = divide x y := by
  by_cases hy : y = 0
  · rw [hy, mul_zero, divide_zero, divide_zero]
  · rw [divide_ok hy, divide_ok (mul_ne_zero hk.ne' hy), mul_div_mul_left _ _ hk.ne']

variable (a : Anchors ℝ) (p : CalibrationPoint ℝ)

theorem earthSamples_scaled (hk : 0 < k) :
    earthSamples (a.scaled k) (p.scaled k) = earthSamples a p := by
  have hparameters : (p.scaled k).parameters = p.parameters := rfl
  have hearth : (p.scaled k).earth = p.earth.map (·.scaled k) := rfl
  unfold earthSamples
  rw [hearth]
  cases p.earth with
  | none => rfl
  | some target =>
    simp only [Option.map_some, hparameters, earthBreakdown_scaled hk]
    cases earthBreakdown p.parameters a .identity with
    | error fault => rfl
    | ok b =>
      show (divide (k * target.revenue) (k * a.earth.revenue) >>= fun revenue =>
        divide (k * target.costs) (k * a.earth.costs) >>= fun costs => _) = _
      rw [divide_scaled hk, divide_scaled hk]
      rfl

theorem marsSample_scaled (hk : 0 < k) : marsSample (a.scaled k) (p.scaled k) = marsSample a p := by
  have hparameters : (p.scaled k).parameters = p.parameters := rfl
  have hmars : (p.scaled k).marsValue = p.marsValue.map (k * ·) := rfl
  unfold marsSample
  rw [hmars]
  cases p.marsValue with
  | none => rfl
  | some target =>
    simp only [Option.map_some, hparameters]
    cases marsFactor p.parameters.mars with
    | error fault => rfl
    | ok factor =>
      show (divide (k * target) (k * a.marsValue * bootstrapFactor p.parameters.mars) >>= _) = _
      rw [mul_assoc, divide_scaled hk]
      rfl

theorem firstSamples_scaled (hk : 0 < k) :
    firstSamples (a.scaled k) (p.scaled k) = firstSamples a p := by
  rw [firstSamples, earthSamples_scaled a p hk, marsSample_scaled a p hk]
  rfl

theorem valueSample_scaled (hk : 0 < k) (c : Calibration ℝ) :
    valueSample (a.scaled k) c (p.scaled k) = valueSample a c p := by
  have hparameters : (p.scaled k).parameters = p.parameters := rfl
  have hearth : (p.scaled k).earth = p.earth.map (·.scaled k) := rfl
  unfold valueSample
  rw [hearth]
  cases p.earth with
  | none => rfl
  | some target =>
    simp only [Option.map_some, hparameters, earthBreakdown_scaled hk]
    cases earthBreakdown p.parameters a c with
    | error fault => rfl
    | ok b =>
      show (if 0.0 < k * b.valueBeforeDiscount then
        divide (k * target.value) (k * b.valueBeforeDiscount) >>= fun goal => _ else _) = _
      rw [divide_scaled hk, zero_point]
      simp only [mul_pos_iff_of_pos_left hk]
      rw [← zero_point]
      rfl

/-- **A fit of scaled points to scaled anchors is the fit of the points**, also where it fails. -/
theorem fitCalibration_scaled [LeastSquares ℝ] (hk : 0 < k) (points : List (CalibrationPoint ℝ))
    (version : String) :
    fitCalibration (points.map (·.scaled k)) (a.scaled k) version =
      fitCalibration points a version := by
  have hfirst : (firstSamples (a.scaled k) ∘ fun p => p.scaled k) = firstSamples a :=
    funext fun p => firstSamples_scaled a p hk
  have hvalue : ∀ c, (valueSample (a.scaled k) c ∘ fun p => p.scaled k) = valueSample a c :=
    fun c => funext fun p => valueSample_scaled a p hk c
  have hnames : (points.map (·.scaled k)).map (·.name) = points.map (·.name) := List.map_map
  simp only [fitCalibration, List.mapM_map, hfirst, hvalue, hnames]

theorem optimisticPoint_scaled (k : ℝ) :
    optimisticPoint (a.scaled k) = (optimisticPoint a).scaled k := by
  simp only [optimisticPoint, CalibrationPoint.scaled, EarthAnchor.optimistic, Anchors.scaled,
    EarthAnchor.scaled, Option.map_some, Option.map_none, mul_assoc]

/-- The calibration that is built in does not depend on the unit. -/
theorem defaultCalibration_scaled [LeastSquares ℝ] (hk : 0 < k) :
    defaultCalibration (a.scaled k) = defaultCalibration a := by
  rw [defaultCalibration, optimisticPoint_scaled]
  exact fitCalibration_scaled a hk [optimisticPoint a] defaultVersion

theorem optimisticPoint_factors : ∃ revenue costs,
    Factors (optimisticPoint a).parameters revenue costs := by
  have hserved : 0 < (optimisticPoint a).parameters.earth.starlinkPenetration := by
    show (0 : ℝ) < 0.25
    norm_num
  exact ⟨_, _, rfl, rfl, hserved⟩

/-- The calibration that is built in exists for all anchors with revenue and costs. -/
theorem exists_defaultCalibration [LeastSquares ℝ]
    (hsolves : LeastSquares.Answers fun _ : ℝ => True) (hrevenue : a.earth.revenue ≠ 0)
    (hcosts : a.earth.costs ≠ 0) : ∃ c, defaultCalibration a = .ok c := by
  obtain ⟨revenue, costs, hf⟩ := optimisticPoint_factors a
  have htarget : (optimisticPoint a).earth = some a.earth.optimistic := rfl
  have hearth := earthSamples_of_factors htarget hf hrevenue hcosts
  exact exists_fit hsolves not_zero_of_pos (List.forall_mem_singleton.mpr ⟨_, hearth⟩)
    (List.forall_mem_singleton.mpr ⟨none, rfl⟩)

end Fit

/-! ## 4. The values of a model -/

namespace Model

/-- The model with every amount of its anchors multiplied. -/
def scaled {α : Type} [Mul α] (k : α) (m : Model α) : Model α :=
  ⟨m.anchors.scaled k, m.calibration⟩

section Values

variable {k : ℝ} (m : Model ℝ) (p : Parameters ℝ)

theorem earth_scaled (hk : 0 < k) : (m.scaled k).earth p = (m.earth p).map (k * ·) := by
  have hbreakdown : (m.scaled k).breakdown p = (m.breakdown p).map (·.scaled k) :=
    earthBreakdown_scaled hk p m.anchors m.calibration
  rw [earth, hbreakdown, earth]
  cases m.breakdown p <;> rfl

theorem mars_scaled (k : ℝ) : (m.scaled k).mars p = (m.mars p).map (k * ·) := by
  have hmultiplier : (m.scaled k).marsMultiplier p = m.marsMultiplier p := rfl
  rw [mars, hmultiplier, mars]
  cases m.marsMultiplier p with
  | error fault => rfl
  | ok multiplier => exact congrArg Except.ok (mul_assoc k m.anchors.marsValue multiplier)

theorem option_scaled (k : ℝ) : (m.scaled k).option p = (m.option p).map (k * ·) := by
  have hmultiplier : (m.scaled k).marsMultiplier p = m.marsMultiplier p := rfl
  have hanchor : (m.scaled k).anchors.marsOptionValue = m.anchors.marsOptionValue.map (k * ·) := rfl
  unfold option
  rw [hanchor]
  cases m.anchors.marsOptionValue with
  | none => exact m.mars_scaled p k
  | some anchor =>
    simp only [Option.map_some, hmultiplier]
    cases m.marsMultiplier p with
    | error fault => rfl
    | ok multiplier => exact congrArg Except.ok (mul_assoc k anchor multiplier)

theorem total_scaled (hk : 0 < k) : (m.scaled k).total p = (m.total p).map (k * ·) := by
  have hdilution : (m.scaled k).dilution p = m.dilution p := rfl
  have hdivisor : (m.scaled k).divisor = m.divisor := rfl
  rw [total, total, m.earth_scaled p hk, m.mars_scaled p k, hdilution, hdivisor]
  cases m.earth p with
  | error fault => rfl
  | ok earth =>
    cases m.mars p with
    | error fault => rfl
    | ok mars =>
      have hsum : (k * earth * m.dilution p + k * mars) / m.divisor =
          k * ((earth * m.dilution p + mars) / m.divisor) := by
        rw [mul_assoc, ← mul_add, mul_div_assoc]
      exact congrArg Except.ok hsum

/-- **The values of scaled anchors are the scaled values.** -/
theorem valueOf_scaled (hk : 0 < k) (o : Output) :
    (m.scaled k).valueOf p o = (m.valueOf p o).map (k * ·) := by
  cases o with
  | earth => exact m.earth_scaled p hk
  | mars => exact m.mars_scaled p k
  | marsOption => exact m.option_scaled p k
  | total => exact m.total_scaled p hk

theorem exists_earth : ∃ v, m.earth p = .ok v := by
  rw [earth, breakdown, earthBreakdown]
  split <;> exact ⟨_, rfl⟩

theorem exists_mars : ∃ v, m.mars p = .ok v := ⟨_, rfl⟩

/-- Exact valuations have every value. -/
theorem exists_valueOf (o : Output) : ∃ v, m.valueOf p o = .ok v := by
  obtain ⟨earth, hearth⟩ := m.exists_earth p
  obtain ⟨mars, hmars⟩ := m.exists_mars p
  cases o with
  | earth => exact ⟨earth, hearth⟩
  | mars => exact ⟨mars, hmars⟩
  | marsOption =>
    show ∃ v, m.option p = .ok v
    rw [option]
    split
    · exact ⟨_, rfl⟩
    · exact ⟨mars, hmars⟩
  | total =>
    show ∃ v, m.total p = .ok v
    rw [total, hearth, hmars]
    exact ⟨_, rfl⟩

end Values

/-- **The model that is built in, in another unit**: it has the same exponents, and its values are
    the same in that unit. Of the solver this takes that it answers, so that there are exponents. -/
theorem ofAnchors_scaled [LeastSquares ℝ] (hsolves : LeastSquares.Answers fun _ : ℝ => True)
    {a : Anchors ℝ} (hrevenue : a.earth.revenue ≠ 0) (hcosts : a.earth.costs ≠ 0) {k : ℝ}
    (hk : 0 < k) :
    ∃ c, ofAnchors a = .ok ⟨a, c⟩ ∧ ofAnchors (a.scaled k) = .ok ⟨a.scaled k, c⟩ ∧
      ∀ p o, ∃ v, (Model.mk a c).valueOf p o = .ok v ∧
        (Model.mk (a.scaled k) c).valueOf p o = .ok (k * v) := by
  obtain ⟨c, hc⟩ := exists_defaultCalibration a hsolves hrevenue hcosts
  refine ⟨c, ?_, ?_, fun p o => ?_⟩
  · rw [ofAnchors, hc]
    rfl
  · rw [ofAnchors, defaultCalibration_scaled a hk, hc]
    rfl
  · obtain ⟨v, hv⟩ := (Model.mk a c).exists_valueOf p o
    have hscaled := (Model.mk a c).valueOf_scaled p hk o
    rw [hv] at hscaled
    exact ⟨v, hv, hscaled⟩

/-- The anchors that are built in, with an option on Mars. -/
noncomputable def optionAnchors : Anchors ℝ :=
  { Anchors.builtin with marsOptionValue := some 1.245 }

/-- Billions counted as millions. -/
theorem ofAnchors_scaled_millions : ∃ c, ofAnchors optionAnchors = .ok ⟨optionAnchors, c⟩ ∧
    ofAnchors (optionAnchors.scaled 1000) = .ok ⟨optionAnchors.scaled 1000, c⟩ ∧
      ∀ p, ∃ v, (Model.mk optionAnchors c).option p = .ok v ∧
        (Model.mk (optionAnchors.scaled 1000) c).option p = .ok (1000 * v) := by
  have hrevenue : optionAnchors.earth.revenue ≠ 0 := by
    norm_num [optionAnchors, Anchors.builtin, EarthAnchor.builtin]
  have hcosts : optionAnchors.earth.costs ≠ 0 := by
    norm_num [optionAnchors, Anchors.builtin, EarthAnchor.builtin]
  obtain ⟨c, hc, hscaled, hvalues⟩ := ofAnchors_scaled (LeastSquares.closedForm_answers _)
    hrevenue hcosts (by norm_num : (0 : ℝ) < 1000)
  exact ⟨c, hc, hscaled, fun p => hvalues p .marsOption⟩

end Model

end Valuation

end Appraisal
