import Appraisal.Parameters.Basic

/-!
# Scenarios

* `Scenario`, `Scenario.parameters` — three scenarios and their parameters;
* `detectScenario` — the scenario that parameters look like.
-/

namespace Appraisal

/-- A scenario. -/
inductive Scenario where
  /-- The baseline. -/
  | base
  /-- The venture does well. -/
  | optimistic
  /-- The venture does badly. -/
  | bear
deriving DecidableEq

/-- The name of a scenario. -/
def Scenario.name : Scenario → String
  | .base => "base"
  | .optimistic => "optimistic"
  | .bear => "bear"

/-- The scenario of a name. -/
def Scenario.ofName? (name : String) : Option Scenario :=
  [Scenario.base, .optimistic, .bear].find? fun s => s.name == name

section

variable {α : Type} [OfScientific α]

/-- The Earth parameters when the venture does well. -/
def EarthParameters.optimistic : EarthParameters α :=
  { EarthParameters.baseline with
    starlinkPenetration := 0.25
    launchVolume := 200.0
    bandwidthPriceDecline := 0.05
    launchPriceDecline := 0.05 }

/-- The Mars parameters when the venture does well. -/
def MarsParameters.optimistic : MarsParameters α :=
  { MarsParameters.baseline with
    firstColonyYear := 2028
    populationGrowth := 0.70 }

/-- The Earth parameters when the venture does badly. -/
def EarthParameters.bear : EarthParameters α :=
  { EarthParameters.baseline with
    starlinkPenetration := 0.12
    launchVolume := 120.0
    bandwidthPriceDecline := 0.11 }

/-- The financial parameters when the venture does badly. -/
def FinancialParameters.bear : FinancialParameters α :=
  { FinancialParameters.baseline with discountRate := 0.14 }

/-- The parameters of a scenario. -/
def Scenario.parameters : Scenario → Parameters α
  | .base => .baseline
  | .optimistic => ⟨.optimistic, .optimistic, .baseline⟩
  | .bear => ⟨.bear, .baseline, .bear⟩

end

section

variable {α : Type} [OfScientific α] [LE α] [DecidableLE α]

/-- Whether the venture does well on Earth. -/
def EarthParameters.looksOptimistic (e : EarthParameters α) : Bool :=
  decide (0.20 ≤ e.starlinkPenetration) && decide (180.0 ≤ e.launchVolume) &&
    decide (e.bandwidthPriceDecline ≤ 0.06)

/-- Whether the venture does well on Mars. -/
def MarsParameters.looksOptimistic (m : MarsParameters α) : Bool :=
  decide (m.firstColonyYear ≤ 2029) && decide (0.65 ≤ m.populationGrowth)

/-- Whether the venture does badly. -/
def Parameters.looksBear (p : Parameters α) : Bool :=
  decide (p.earth.starlinkPenetration ≤ 0.12) && decide (p.earth.launchVolume ≤ 120.0) &&
    decide (0.11 ≤ p.earth.bandwidthPriceDecline) && decide (0.14 ≤ p.financial.discountRate)

/-- The scenario that parameters look like: optimistic if one of the planets is, else bear if all
    its signs are there, else the baseline. -/
def detectScenario (p : Parameters α) : Scenario :=
  if p.earth.looksOptimistic || p.mars.looksOptimistic then .optimistic
  else if p.looksBear then .bear
  else .base

end

end Appraisal
