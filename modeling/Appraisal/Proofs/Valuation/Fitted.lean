import Appraisal.Proofs.Checked
import Appraisal.Valuation.Fit
import Mathlib.Data.List.Basic

/-!
# What a fit comes to

A fit takes samples from each of its points and asks the solver for four exponents, the one of the
value last. It fails where a sample cannot be computed or the solver refuses. The values before
discounting are divided by only where they are positive, so that the second stage brings no sample
that cannot be computed where the first has brought none.

* `toldRevenue`, `toldCosts`, `toldValue`, `toldMars` — the samples of a point, if it has them;
* `Fitted`, `fitCalibration_eq_ok_iff` — **the calibration that a fit comes to**;
* `EarthSolved`, `MarsSolved`, `exists_fit_iff` — **when it comes to one**, for any solver.
-/

namespace Appraisal.Valuation

variable {α : Type} [OfScientific α] [Add α] [Mul α] [Div α] [Neg α]
  [LT α] [DecidableLT α] [LE α] [DecidableLE α] [Transcendental α]

/-! ## 1. The samples of a point -/

/-- What a point says about the exponent of Mars, if anything. -/
def toldMars (a : Anchors α) (p : CalibrationPoint α) : Option (Sample α) :=
  (marsSample a p).toOption.bind id

variable [Sub α]

/-- What a point says about the exponent of revenue, if anything. -/
def toldRevenue (a : Anchors α) (p : CalibrationPoint α) : Option (Sample α) :=
  (earthSamples a p).toOption.bind (·.1)

/-- What a point says about the exponent of costs, if anything. -/
def toldCosts (a : Anchors α) (p : CalibrationPoint α) : Option (Sample α) :=
  (earthSamples a p).toOption.bind (·.2)

/-- What a point says about the exponent of the value, if anything, given those of revenue and
    costs. -/
def toldValue (a : Anchors α) (c : Calibration α) (p : CalibrationPoint α) : Option (Sample α) :=
  (valueSample a c p).toOption.bind id

section Point

variable {a : Anchors α} {p : CalibrationPoint α}

theorem firstSamples_eq_ok_iff {s : (Option (Sample α) × Option (Sample α)) × Option (Sample α)} :
    firstSamples a p = .ok s ↔ earthSamples a p = .ok s.1 ∧ marsSample a p = .ok s.2 := by
  constructor
  · intro h
    obtain ⟨earth, hearth, h⟩ := exists_of_bind_ok h
    obtain ⟨mars, hmars, h⟩ := exists_of_bind_ok h
    cases h
    exact ⟨hearth, hmars⟩
  · rintro ⟨hearth, hmars⟩
    rw [firstSamples, hearth, hmars]
    rfl

/-- What the first stage of a fit takes from the points. -/
theorem filterMap_firstSamples {points : List (CalibrationPoint α)} {samples : List _}
    (h : points.mapM (firstSamples a) = .ok samples) :
    samples.filterMap (·.1.1) = points.filterMap (toldRevenue a) ∧
      samples.filterMap (·.1.2) = points.filterMap (toldCosts a) ∧
      samples.filterMap (·.2) = points.filterMap (toldMars a) := by
  have hfirst : ∀ p ∈ points, ∃ s, firstSamples a p = .ok s := exists_mapM_ok_iff.mp ⟨samples, h⟩
  refine ⟨?_, ?_, ?_⟩
  all_goals
    rw [filterMap_of_mapM h]
    refine List.filterMap_congr fun p hp => ?_
    obtain ⟨s, hs⟩ := hfirst p hp
    obtain ⟨hearth, hmars⟩ := firstSamples_eq_ok_iff.mp hs
  · rw [hs, toldRevenue, hearth]; rfl
  · rw [hs, toldCosts, hearth]; rfl
  · rw [hs, toldMars, hmars]; rfl

/-- Where nothing positive is a zero, a point that has samples of the first stage has one of the
    second. -/
theorem exists_valueSample (hpos : ∀ x : α, 0.0 < x → ¬ (x ≤ 0.0 ∧ 0.0 ≤ x))
    (h : ∃ s, earthSamples a p = .ok s) (c : Calibration α) : ∃ s, valueSample a c p = .ok s := by
  obtain ⟨s, h⟩ := h
  unfold earthSamples at h
  unfold valueSample
  cases hearth : p.earth with
  | none => exact ⟨none, rfl⟩
  | some target =>
    rw [hearth] at h
    obtain ⟨b, hb, -⟩ := exists_of_bind_ok h
    -- the breakdowns of all calibrations have the same factors
    obtain ⟨b', hb'⟩ : ∃ b', earthBreakdown p.parameters a c = .ok b' := by
      unfold earthBreakdown at hb ⊢
      by_cases hnone : p.parameters.earth.starlinkPenetration ≤ 0.0
      · exact ⟨.zero, if_pos hnone⟩
      · rw [if_neg hnone] at hb ⊢
        obtain ⟨revenue, hrevenue, hb⟩ := exists_of_bind_ok hb
        obtain ⟨costs, hcosts, -⟩ := exists_of_bind_ok hb
        rw [hrevenue, hcosts]
        exact ⟨_, rfl⟩
    simp only [hb', ok_bind]
    split
    · next hbefore =>
      rw [divide, if_neg (hpos _ hbefore)]
      exact ⟨_, rfl⟩
    · exact ⟨none, rfl⟩

end Point

/-! ## 2. The result -/

/-- The calibration between the two stages of a fit: it has the exponents of revenue and costs. -/
def firstStage (version : String) (revenue costs : α) : Calibration α :=
  { Calibration.identity with
    version := version
    revenueExponent := revenue
    costExponent := costs }

variable [LeastSquares α]

/-- The calibration of points: every sample can be computed, and each exponent is what the solver
    finds for the samples. -/
structure Fitted (a : Anchors α) (version : String) (points : List (CalibrationPoint α))
    (c : Calibration α) : Prop where
  earth_ok : ∀ p ∈ points, ∃ s, earthSamples a p = .ok s
  mars_ok : ∀ p ∈ points, ∃ s, marsSample a p = .ok s
  value_ok : ∀ p ∈ points, ∃ s,
    valueSample a (firstStage version c.revenueExponent c.costExponent) p = .ok s
  revenue : fitExponent (points.filterMap (toldRevenue a)) = .ok c.revenueExponent
  costs : fitExponent (points.filterMap (toldCosts a)) = .ok c.costExponent
  value : fitExponent (points.filterMap
    (toldValue a (firstStage version c.revenueExponent c.costExponent))) = .ok c.valueExponent
  mars : fitExponent (points.filterMap (toldMars a)) = .ok c.marsExponent
  version_eq : c.version = version
  points_eq : c.points = points.map (·.name)

section Result

variable {a : Anchors α} {version : String} {points : List (CalibrationPoint α)}
  {c : Calibration α}

theorem fitted_of_ok (h : fitCalibration points a version = .ok c) : Fitted a version points c := by
  obtain ⟨samples, hsamples, h⟩ := exists_of_bind_ok h
  obtain ⟨revenue, hrevenue, h⟩ := exists_of_bind_ok h
  obtain ⟨costs, hcosts, h⟩ := exists_of_bind_ok h
  obtain ⟨values, hvalues, h⟩ := exists_of_bind_ok h
  obtain ⟨value, hvalue, h⟩ := exists_of_bind_ok h
  obtain ⟨mars, hmars, h⟩ := exists_of_bind_ok h
  cases h
  obtain ⟨hfirst, hsecond, hthird⟩ := filterMap_firstSamples hsamples
  have hends := exists_mapM_ok_iff.mp ⟨samples, hsamples⟩
  refine ⟨fun p hp => ?_, fun p hp => ?_, exists_mapM_ok_iff.mp ⟨values, hvalues⟩, hfirst ▸ hrevenue,
    hsecond ▸ hcosts, ?_, hthird ▸ hmars, rfl, rfl⟩
  · obtain ⟨s, hs⟩ := hends p hp
    exact ⟨s.1, (firstSamples_eq_ok_iff.mp hs).1⟩
  · obtain ⟨s, hs⟩ := hends p hp
    exact ⟨s.2, (firstSamples_eq_ok_iff.mp hs).2⟩
  · rw [filterMap_of_mapM hvalues] at hvalue
    exact hvalue

theorem Fitted.fitCalibration_eq (h : Fitted a version points c) :
    fitCalibration points a version = .ok c := by
  obtain ⟨samples, hsamples⟩ : ∃ samples, points.mapM (firstSamples a) = .ok samples :=
    exists_mapM_ok_iff.mpr fun p hp => by
      obtain ⟨earth, hearth⟩ := h.earth_ok p hp
      obtain ⟨mars, hmars⟩ := h.mars_ok p hp
      exact ⟨(earth, mars), firstSamples_eq_ok_iff.mpr ⟨hearth, hmars⟩⟩
  obtain ⟨values, hvalues⟩ := exists_mapM_ok_iff.mpr h.value_ok
  obtain ⟨hfirst, hsecond, hthird⟩ := filterMap_firstSamples hsamples
  have hvalue : fitExponent (values.filterMap id) = .ok c.valueExponent := by
    rw [filterMap_of_mapM hvalues]
    exact h.value
  rw [firstStage] at hvalues
  simp only [fitCalibration, hsamples, ok_bind, hfirst, hsecond, hthird, h.revenue, h.costs, hvalues,
    hvalue, h.mars]
  rw [← h.version_eq, ← h.points_eq]
  rfl

/-- **The calibration that a fit comes to.** -/
theorem fitCalibration_eq_ok_iff :
    fitCalibration points a version = .ok c ↔ Fitted a version points c :=
  ⟨fitted_of_ok, Fitted.fitCalibration_eq⟩

/-! ## 3. When there is one -/

/-- The solver answers the samples of revenue and costs, and those of the value that are left with
    these exponents. -/
def EarthSolved (a : Anchors α) (version : String) (points : List (CalibrationPoint α)) : Prop :=
  ∃ revenue costs value, fitExponent (points.filterMap (toldRevenue a)) = .ok revenue ∧
    fitExponent (points.filterMap (toldCosts a)) = .ok costs ∧
    fitExponent (points.filterMap (toldValue a (firstStage version revenue costs))) = .ok value

/-- The solver answers the samples of Mars. -/
def MarsSolved (a : Anchors α) (points : List (CalibrationPoint α)) : Prop :=
  ∃ mars, fitExponent (points.filterMap (toldMars a)) = .ok mars

theorem Fitted.earthSolved (h : Fitted a version points c) : EarthSolved a version points :=
  ⟨_, _, _, h.revenue, h.costs, h.value⟩

theorem Fitted.marsSolved (h : Fitted a version points c) : MarsSolved a points :=
  ⟨_, h.mars⟩

theorem earthSolved_of_answers (hsolves : LeastSquares.Answers fun _ : α => True) :
    EarthSolved a version points := by
  have hanswer : ∀ samples : List (Sample α), ∃ x, fitExponent samples = .ok x :=
    fun samples => hsolves.fitExponent_ok fun _ _ => trivial
  obtain ⟨revenue, hrevenue⟩ := hanswer (points.filterMap (toldRevenue a))
  obtain ⟨costs, hcosts⟩ := hanswer (points.filterMap (toldCosts a))
  obtain ⟨value, hvalue⟩ :=
    hanswer (points.filterMap (toldValue a (firstStage version revenue costs)))
  exact ⟨revenue, costs, value, hrevenue, hcosts, hvalue⟩

omit [Sub α] in
theorem marsSolved_of_answers (hsolves : LeastSquares.Answers fun _ : α => True) :
    MarsSolved a points :=
  hsolves.fitExponent_ok fun _ _ => trivial

/-- **A fit comes to a calibration** exactly if the samples of the first stage can be computed and the
    solver answers. -/
theorem exists_fit_iff (hpos : ∀ x : α, 0.0 < x → ¬ (x ≤ 0.0 ∧ 0.0 ≤ x)) :
    (∃ c, fitCalibration points a version = .ok c) ↔
      ((∀ p ∈ points, ∃ s, earthSamples a p = .ok s) ∧ EarthSolved a version points) ∧
        (∀ p ∈ points, ∃ s, marsSample a p = .ok s) ∧ MarsSolved a points := by
  constructor
  · rintro ⟨c, hc⟩
    have h := fitted_of_ok hc
    exact ⟨⟨h.earth_ok, h.earthSolved⟩, h.mars_ok, h.marsSolved⟩
  · rintro ⟨⟨hearth, revenue, costs, value, hrevenue, hcosts, hvalue⟩, hsamples, mars, hmars⟩
    refine ⟨⟨version, revenue, costs, value, mars, points.map (·.name)⟩, fitCalibration_eq_ok_iff.mpr
      ⟨hearth, hsamples, fun p hp => ?_, hrevenue, hcosts, hvalue, hmars, rfl, rfl⟩⟩
    exact exists_valueSample hpos (hearth p hp) _

/-- With a solver that answers all samples, a fit comes to a calibration wherever the samples of the
    first stage can be computed. -/
theorem exists_fit (hsolves : LeastSquares.Answers fun _ : α => True)
    (hpos : ∀ x : α, 0.0 < x → ¬ (x ≤ 0.0 ∧ 0.0 ≤ x))
    (hearth : ∀ p ∈ points, ∃ s, earthSamples a p = .ok s)
    (hmars : ∀ p ∈ points, ∃ s, marsSample a p = .ok s) :
    ∃ c, fitCalibration points a version = .ok c :=
  (exists_fit_iff hpos).mpr
    ⟨⟨hearth, earthSolved_of_answers hsolves⟩, hmars, marsSolved_of_answers hsolves⟩

end Result

end Appraisal.Valuation
