import Appraisal.Parameters.Scenario

/-!
# Anchors and calibrations

* `Anchors` — the figures that a valuation takes at the baseline, in billions;
* `Calibration` — the exponents by which its factors are bent. Every factor is one at the baseline,
  so the anchors hold for any exponents;
* `CalibrationPoint` — a known scenario: parameters and the figures that belong to them;
* `optimisticPoint` — the known scenario that is built in.
-/

namespace Appraisal

variable {α : Type}

/-- Earth figures in billions. -/
structure EarthAnchor (α : Type) where
  /-- The revenue. -/
  revenue : α
  /-- The costs. -/
  costs : α
  /-- The taxes. -/
  taxes : α
  /-- The value. -/
  value : α
deriving DecidableEq

/-- The figures at the baseline, in billions. -/
structure Anchors (α : Type) where
  /-- The Earth figures. -/
  earth : EarthAnchor α
  /-- The value of Mars. -/
  marsValue : α
  /-- The value of the option on Mars, if it is known. -/
  marsOptionValue : Option α
  /-- By what the value of the Earth is multiplied in the total. -/
  dilutionMultiplier : α
  /-- By what the total is divided. -/
  normalizationDivisor : α
deriving DecidableEq

/-- The Earth figures that are built in. -/
def EarthAnchor.builtin [OfScientific α] : EarthAnchor α :=
  ⟨148.13, 10.32, 13.33, 124.48⟩

/-- The figures that are built in. -/
def Anchors.builtin [OfScientific α] : Anchors α :=
  ⟨.builtin, 0.745, none, 18.0, 1.0⟩

/-- The exponents of the factors. -/
structure Calibration (α : Type) where
  /-- The name of the calibration. -/
  version : String
  /-- The exponent of the revenue factor. -/
  revenueExponent : α
  /-- The exponent of the cost factor. -/
  costExponent : α
  /-- The exponent of the financial factor. -/
  valueExponent : α
  /-- The exponent of the Mars factor. -/
  marsExponent : α
  /-- The names of the points that it was fitted to. -/
  points : List String
deriving DecidableEq

/-- The calibration that leaves every factor as it is. -/
def Calibration.identity [OfScientific α] : Calibration α :=
  ⟨"identity", 1.0, 1.0, 1.0, 1.0, []⟩

/-- A known scenario. It constrains the exponents for whose figures it has a target. -/
structure CalibrationPoint (α : Type) where
  /-- Its name. -/
  name : String
  /-- Its parameters. -/
  parameters : Parameters α
  /-- Its Earth figures, if they are known. -/
  earth : Option (EarthAnchor α)
  /-- Its value of Mars, if it is known. -/
  marsValue : Option α

/-- The optimistic Earth figures that belong to baseline figures: revenue, costs and taxes by fixed
    multiples, and the value in the proportion of two known values. -/
def EarthAnchor.optimistic [OfScientific α] [Mul α] [Div α] (e : EarthAnchor α) :
    EarthAnchor α :=
  ⟨e.revenue * 3.38, e.costs * 0.30, e.taxes * 3.38, e.value * (452.45 / 124.48)⟩

/-- The optimistic scenario that is built in, over the given anchors. -/
def optimisticPoint [OfScientific α] [Mul α] [Div α] (a : Anchors α) : CalibrationPoint α :=
  ⟨"optimistic", Scenario.optimistic.parameters, some a.earth.optimistic, none⟩

end Appraisal
