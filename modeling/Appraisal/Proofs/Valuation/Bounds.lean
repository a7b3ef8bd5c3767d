import Appraisal.Proofs.Valuation.Baseline
import Appraisal.Proofs.Valuation.Penetration

/-!
# Bounds of an Earth valuation

Parameters, anchors and exponents may be any floats, and what is computed from infinite and undefined
ones is infinite or undefined in turn. A comparison with the undefined float fails, so bounds hold of
a result only if a failed comparison leads to a bound. That is so for the multiplier of the costs and
for the value.

* `clampCost_cases`, `clampCost_bounds` — the multiplier of the costs;
* `floored_bounds` — an amount that is never a loss;
* `EarthBreakdown.InBounds`, `earthBreakdown_inBounds` — **what is in bounds in every breakdown**.
-/

namespace Appraisal.Valuation

/-! ## 1. Guards -/

/-- A cost multiplier is one of the bounds, or lies between them and is kept. -/
theorem clampCost_cases (x : Float) : clampCost x = leastCost ∨ clampCost x = greatestCost ∨
    (clampCost x = x ∧ leastCost < x ∧ x < greatestCost) := by
  unfold clampCost
  by_cases hdefined : x ≤ x
  · rw [if_pos hdefined]
    by_cases hleast : leastCost < x
    · simp only [if_pos hleast]
      by_cases hgreatest : x < greatestCost
      · exact Or.inr (Or.inr ⟨if_pos hgreatest, hleast, hgreatest⟩)
      · exact Or.inr (Or.inl (if_neg hgreatest))
    · simp only [if_neg hleast]
      exact Or.inl (if_pos (by decide))
  · exact Or.inr (Or.inl (if_neg hdefined))

theorem clampCost_bounds (x : Float) : leastCost ≤ clampCost x ∧ clampCost x ≤ greatestCost := by
  rcases clampCost_cases x with hx | hx | ⟨hx, hleast, hgreatest⟩
  · rw [hx]
    decide
  · rw [hx]
    decide
  · rw [hx]
    exact ⟨Number.le_of_lt hleast, Number.le_of_lt hgreatest⟩

/-- What is floored is defined and no loss, also where it was undefined before. -/
theorem floored_bounds (x : Float) : (floored x).isNaN = false ∧ 0.0 ≤ floored x := by
  rw [floored]
  by_cases hpos : 0.0 < x
  · rw [if_pos hpos]
    exact ⟨Number.isNaN_of_lt hpos, Number.le_of_lt hpos⟩
  · rw [if_neg hpos]
    decide

/-! ## 2. Breakdowns -/

/-- The cost multiplier is between a tenth and two, the taxes follow the revenue, and the value is
    defined and no loss. -/
structure EarthBreakdown.InBounds (b : EarthBreakdown Float) : Prop where
  costs_least : 0.1 ≤ b.costMultiplier
  costs_greatest : b.costMultiplier ≤ 2.0
  taxes_eq : b.taxMultiplier = b.revenueMultiplier
  value_defined : b.value.isNaN = false
  value_nonneg : 0.0 ≤ b.value

theorem breakdownOf_inBounds (anchor : EarthAnchor Float) (c : Calibration Float)
    (f : FinancialParameters Float) (revenue costs : Float) :
    (breakdownOf anchor c f revenue costs).InBounds :=
  { costs_least := (clampCost_bounds _).1
    costs_greatest := (clampCost_bounds _).2
    taxes_eq := rfl
    value_defined := (floored_bounds _).1
    value_nonneg := (floored_bounds _).2 }

/-- **What is in bounds in every breakdown**, whatever floats the parameters, the anchors and the
    exponents are. Without penetration there is always a breakdown, and its value is nothing; an
    undefined penetration does not count as none. -/
theorem earthBreakdown_inBounds (p : Parameters Float) (a : Anchors Float) (c : Calibration Float) :
    (p.earth.starlinkPenetration ≤ 0.0 → ∃ b, earthBreakdown p a c = .ok b ∧ b.value = 0.0) ∧
      (¬ p.earth.starlinkPenetration ≤ 0.0 → ∀ b, earthBreakdown p a c = .ok b → b.InBounds) := by
  constructor
  · intro hnone
    exact ⟨.zero, if_pos hnone, rfl⟩
  · intro hserved b hb
    rw [earthBreakdown, if_neg hserved] at hb
    obtain ⟨revenue, -, hb⟩ := exists_of_bind_ok hb
    obtain ⟨costs, -, hb⟩ := exists_of_bind_ok hb
    cases hb
    exact breakdownOf_inBounds a.earth c p.financial revenue costs

/-- Anchors whose revenue and taxes are infinite and whose costs are undefined. -/
def extremeAnchors : Anchors Float :=
  { Anchors.builtin with
    earth := ⟨Number.infinity, Number.undefined, -Number.infinity, Number.undefined⟩ }

theorem earthBreakdown_inBounds_extreme :
    (∃ b, earthBreakdown (Parameters.baseline.withPenetration Number.undefined) extremeAnchors
      .identity = .ok b ∧ b.InBounds) ∧
    ∃ b, earthBreakdown (Parameters.baseline.withPenetration (-Number.infinity)) extremeAnchors
      .identity = .ok b ∧ b.value = 0.0 := by
  obtain ⟨b, hb⟩ : ∃ b, earthBreakdown (Parameters.baseline.withPenetration Number.undefined)
      extremeAnchors .identity = .ok b := exists_of_toOption (by decide +kernel)
  exact ⟨⟨b, hb, (earthBreakdown_inBounds _ _ _).2 (by decide) b hb⟩,
    (earthBreakdown_inBounds _ _ _).1 (by decide)⟩

end Appraisal.Valuation
