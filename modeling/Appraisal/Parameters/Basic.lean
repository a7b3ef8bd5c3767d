/-!
# Parameters

What a valuation is computed from besides its anchors: how the venture does on Earth, how it does on
Mars, and how money is counted. Rates and amounts are of a type of one's choice, so that the same
rules can be read over floats and over the real numbers.

* `EarthParameters`, `MarsParameters`, `FinancialParameters`, `Parameters` — the parameters;
* `Parameters.baseline` — the ones at which a valuation equals its anchors.
-/

namespace Appraisal

/-- How the venture does on Earth. -/
structure EarthParameters (α : Type) where
  /-- The share of the market that the constellation reaches. -/
  starlinkPenetration : α
  /-- The number of launches a year. -/
  launchVolume : α
  /-- The yearly decline of the price of bandwidth. -/
  bandwidthPriceDecline : α
  /-- The yearly decline of the price of a launch. -/
  launchPriceDecline : α
  /-- The year from which ships are reused. -/
  starshipReusabilityYear : Int
  /-- The year from which ships earn money. -/
  starshipCommercialViabilityYear : Int
  /-- The payload of a ship. -/
  starshipPayloadCapacity : α
  /-- The greatest yearly increase of production. -/
  maxRocketProductionIncrease : α
  /-- The learning rate of the cost of a launch. -/
  wrightsLawLaunchCost : α
  /-- The learning rate of the time between launches. -/
  wrightsLawTurnaroundTime : α
  /-- The learning rate of the bandwidth of a satellite. -/
  wrightsLawSatelliteGbps : α
  /-- The part of the bandwidth market that is realized. -/
  realizedBandwidthTamMultiplier : α
  /-- The share of the launches that serve the constellation. -/
  starshipLaunchesForStarlink : α
  /-- The yearly growth of the market for other launches. -/
  nonStarlinkLaunchMarketGrowth : α
  /-- The rate of return at which money moves to Mars. -/
  irrThresholdEarthToMars : α
  /-- The share of cash that is held back. -/
  cashBufferPercent : α
deriving DecidableEq

/-- How the venture does on Mars. -/
structure MarsParameters (α : Type) where
  /-- The year of the first colony. -/
  firstColonyYear : Int
  /-- The yearly growth of the population. -/
  populationGrowth : α
  /-- The yearly decline of the cost of transport. -/
  transportCostDecline : α
  /-- The flag for an industry that builds itself up. -/
  industrialBootstrap : Bool
  /-- The cost of a robot in 2026. -/
  optimusCost2026 : α
  /-- The yearly decline of the cost of a robot. -/
  optimusAnnualCostDecline : α
  /-- The output of a robot against a worker's. -/
  optimusProductivityMultiplier : α
  /-- The learning rate of the robots. -/
  optimusLearningRate : α
  /-- The share of robots in the payload. -/
  marsPayloadOptimusVsTooling : α
deriving DecidableEq

/-- How money is counted. -/
structure FinancialParameters (α : Type) where
  /-- The discount rate. -/
  discountRate : α
  /-- The growth in the terminal period. -/
  terminalGrowth : α
  /-- The share lost to new owners. -/
  dilutionFactor : α
deriving DecidableEq

/-- All parameters of a valuation. -/
structure Parameters (α : Type) where
  /-- How the venture does on Earth. -/
  earth : EarthParameters α
  /-- How the venture does on Mars. -/
  mars : MarsParameters α
  /-- How money is counted. -/
  financial : FinancialParameters α
deriving DecidableEq

/-- The baseline on Earth. -/
def EarthParameters.baseline {α : Type} [OfScientific α] : EarthParameters α where
  starlinkPenetration := 0.15
  launchVolume := 150.0
  bandwidthPriceDecline := 0.08
  launchPriceDecline := 0.08
  starshipReusabilityYear := 2026
  starshipCommercialViabilityYear := 2025
  starshipPayloadCapacity := 75000.0
  maxRocketProductionIncrease := 0.25
  wrightsLawLaunchCost := 0.05
  wrightsLawTurnaroundTime := 0.05
  wrightsLawSatelliteGbps := 0.07
  realizedBandwidthTamMultiplier := 0.5
  starshipLaunchesForStarlink := 0.9
  nonStarlinkLaunchMarketGrowth := 0.01
  irrThresholdEarthToMars := 0.0
  cashBufferPercent := 0.10

/-- The baseline on Mars. -/
def MarsParameters.baseline {α : Type} [OfScientific α] : MarsParameters α where
  firstColonyYear := 2030
  populationGrowth := 0.50
  transportCostDecline := 0.20
  industrialBootstrap := true
  optimusCost2026 := 50000.0
  optimusAnnualCostDecline := 0.05
  optimusProductivityMultiplier := 0.25
  optimusLearningRate := 0.05
  marsPayloadOptimusVsTooling := 0.01

/-- The baseline of counting money. -/
def FinancialParameters.baseline {α : Type} [OfScientific α] : FinancialParameters α where
  discountRate := 0.12
  terminalGrowth := 0.03
  dilutionFactor := 0.15

/-- The baseline parameters. -/
def Parameters.baseline {α : Type} [OfScientific α] : Parameters α :=
  ⟨.baseline, .baseline, .baseline⟩

end Appraisal
