import Appraisal.Parameters.Basic

/-!
# Fields of the parameters

Each parameter is a field of one group and goes by two names: words joined by underscores, and a
label in which each word after the first begins with a capital.

* `Group`, `Field` — the groups and their fields;
* `Field.name`, `Field.label`, `Group.field?` — the names, and the field that has a name;
* `Setting`, `Field.get`, `Field.set` — what a field holds, read and written.
-/

namespace Appraisal

/-! ## 1. Groups and fields -/

/-- A group of parameters. -/
inductive Group where
  /-- Those of the Earth. -/
  | earth
  /-- Those of Mars. -/
  | mars
  /-- Those of money. -/
  | financial
deriving DecidableEq

/-- The groups in order. -/
def Group.all : List Group :=
  [.earth, .mars, .financial]

/-- The name of a group. -/
def Group.name : Group → String
  | .earth => "earth"
  | .mars => "mars"
  | .financial => "financial"

/-- The group of a name. -/
def Group.ofName? (name : String) : Option Group :=
  Group.all.find? fun g => g.name == name

/-- A parameter. -/
inductive Field where
  /-- The share of the market that the constellation reaches. -/
  | starlinkPenetration
  /-- The number of launches a year. -/
  | launchVolume
  /-- The yearly decline of the price of bandwidth. -/
  | bandwidthPriceDecline
  /-- The yearly decline of the price of a launch. -/
  | launchPriceDecline
  /-- The year from which ships are reused. -/
  | starshipReusabilityYear
  /-- The year from which ships earn money. -/
  | starshipCommercialViabilityYear
  /-- The payload of a ship. -/
  | starshipPayloadCapacity
  /-- The greatest yearly increase of production. -/
  | maxRocketProductionIncrease
  /-- The learning rate of the cost of a launch. -/
  | wrightsLawLaunchCost
  /-- The learning rate of the time between launches. -/
  | wrightsLawTurnaroundTime
  /-- The learning rate of the bandwidth of a satellite. -/
  | wrightsLawSatelliteGbps
  /-- The part of the bandwidth market that is realized. -/
  | realizedBandwidthTamMultiplier
  /-- The share of the launches that serve the constellation. -/
  | starshipLaunchesForStarlink
  /-- The yearly growth of the market for other launches. -/
  | nonStarlinkLaunchMarketGrowth
  /-- The rate of return at which money moves to Mars. -/
  | irrThresholdEarthToMars
  /-- The share of cash that is held back. -/
  | cashBufferPercent
  /-- The year of the first colony. -/
  | firstColonyYear
  /-- The yearly growth of the population. -/
  | populationGrowth
  /-- The yearly decline of the cost of transport. -/
  | transportCostDecline
  /-- The flag for an industry that builds itself up. -/
  | industrialBootstrap
  /-- The cost of a robot in 2026. -/
  | optimusCost2026
  /-- The yearly decline of the cost of a robot. -/
  | optimusAnnualCostDecline
  /-- The output of a robot against a worker's. -/
  | optimusProductivityMultiplier
  /-- The learning rate of the robots. -/
  | optimusLearningRate
  /-- The share of robots in the payload. -/
  | marsPayloadOptimusVsTooling
  /-- The discount rate. -/
  | discountRate
  /-- The growth in the terminal period. -/
  | terminalGrowth
  /-- The share lost to new owners. -/
  | dilutionFactor
deriving DecidableEq

/-- The fields of a group in order. -/
def Group.fields : Group → List Field
  | .earth =>
    [.starlinkPenetration, .launchVolume, .bandwidthPriceDecline, .launchPriceDecline,
      .starshipReusabilityYear, .starshipCommercialViabilityYear, .starshipPayloadCapacity,
      .maxRocketProductionIncrease, .wrightsLawLaunchCost, .wrightsLawTurnaroundTime,
      .wrightsLawSatelliteGbps, .realizedBandwidthTamMultiplier, .starshipLaunchesForStarlink,
      .nonStarlinkLaunchMarketGrowth, .irrThresholdEarthToMars, .cashBufferPercent]
  | .mars =>
    [.firstColonyYear, .populationGrowth, .transportCostDecline, .industrialBootstrap,
      .optimusCost2026, .optimusAnnualCostDecline, .optimusProductivityMultiplier,
      .optimusLearningRate, .marsPayloadOptimusVsTooling]
  | .financial => [.discountRate, .terminalGrowth, .dilutionFactor]

/-! ## 2. Names -/

/-- The name of a field in words joined by underscores. -/
def Field.name : Field → String
  | .starlinkPenetration => "starlink_penetration"
  | .launchVolume => "launch_volume"
  | .bandwidthPriceDecline => "bandwidth_price_decline"
  | .launchPriceDecline => "launch_price_decline"
  | .starshipReusabilityYear => "starship_reusability_year"
  | .starshipCommercialViabilityYear => "starship_commercial_viability_year"
  | .starshipPayloadCapacity => "starship_payload_capacity"
  | .maxRocketProductionIncrease => "max_rocket_production_increase"
  | .wrightsLawLaunchCost => "wrights_law_launch_cost"
  | .wrightsLawTurnaroundTime => "wrights_law_turnaround_time"
  | .wrightsLawSatelliteGbps => "wrights_law_satellite_gbps"
  | .realizedBandwidthTamMultiplier => "realized_bandwidth_tam_multiplier"
  | .starshipLaunchesForStarlink => "starship_launches_for_starlink"
  | .nonStarlinkLaunchMarketGrowth => "non_starlink_launch_market_growth"
  | .irrThresholdEarthToMars => "irr_threshold_earth_to_mars"
  | .cashBufferPercent => "cash_buffer_percent"
  | .firstColonyYear => "first_colony_year"
  | .populationGrowth => "population_growth"
  | .transportCostDecline => "transport_cost_decline"
  | .industrialBootstrap => "industrial_bootstrap"
  | .optimusCost2026 => "optimus_cost_2026"
  | .optimusAnnualCostDecline => "optimus_annual_cost_decline"
  | .optimusProductivityMultiplier => "optimus_productivity_multiplier"
  | .optimusLearningRate => "optimus_learning_rate"
  | .marsPayloadOptimusVsTooling => "mars_payload_optimus_vs_tooling"
  | .discountRate => "discount_rate"
  | .terminalGrowth => "terminal_growth"
  | .dilutionFactor => "dilution_factor"

/-- Words joined by underscores with each word after the first capitalized instead. -/
def capitalized : List Char → List Char
  | '_' :: c :: cs => c.toUpper :: capitalized cs
  | c :: cs => c :: capitalized cs
  | [] => []

/-- The name of a field with its words after the first capitalized. -/
def Field.capitalizedName (f : Field) : String :=
  String.ofList (capitalized f.name.toList)

/-- The label of a field whose abbreviation stands in capitals. -/
def Field.abbreviated? : Field → Option String
  | .wrightsLawSatelliteGbps => some "wrightsLawSatelliteGBPS"
  | .realizedBandwidthTamMultiplier => some "realizedBandwidthTAMMultiplier"
  | _ => none

/-- The label that a field is written with. -/
def Field.label (f : Field) : String :=
  f.abbreviated?.getD f.capitalizedName

/-- Whether a text names a field: by its name, by its label or by its capitalized name. -/
def Field.isNamed (f : Field) (text : String) : Bool :=
  f.name == text || f.capitalizedName == text || f.abbreviated? == some text

/-- The field of a group that a text names. -/
def Group.field? (g : Group) (text : String) : Option Field :=
  g.fields.find? fun f => f.isNamed text

/-! ## 3. Settings -/

/-- What a field can hold. -/
inductive Kind where
  /-- A rate or an amount. -/
  | real
  /-- A year. -/
  | year
  /-- A flag. -/
  | flag
deriving DecidableEq

/-- What a field holds. -/
inductive Setting (α : Type) where
  /-- A rate or an amount. -/
  | real (x : α)
  /-- A year. -/
  | year (n : Int)
  /-- A flag. -/
  | flag (b : Bool)
deriving DecidableEq

/-- What a field can hold: all hold rates and amounts but for three years and a flag. -/
def Field.kind : Field → Kind
  | .starshipReusabilityYear => .year
  | .starshipCommercialViabilityYear => .year
  | .firstColonyYear => .year
  | .industrialBootstrap => .flag
  | _ => .real

variable {α : Type}

/-- The group of a field. -/
def Field.group (f : Field) : Group :=
  if f ∈ Group.earth.fields then .earth
  else if f ∈ Group.mars.fields then .mars
  else .financial

/-- What a field holds. -/
def Field.get (p : Parameters α) : Field → Setting α
  | .starlinkPenetration => .real p.earth.starlinkPenetration
  | .launchVolume => .real p.earth.launchVolume
  | .bandwidthPriceDecline => .real p.earth.bandwidthPriceDecline
  | .launchPriceDecline => .real p.earth.launchPriceDecline
  | .starshipReusabilityYear => .year p.earth.starshipReusabilityYear
  | .starshipCommercialViabilityYear => .year p.earth.starshipCommercialViabilityYear
  | .starshipPayloadCapacity => .real p.earth.starshipPayloadCapacity
  | .maxRocketProductionIncrease => .real p.earth.maxRocketProductionIncrease
  | .wrightsLawLaunchCost => .real p.earth.wrightsLawLaunchCost
  | .wrightsLawTurnaroundTime => .real p.earth.wrightsLawTurnaroundTime
  | .wrightsLawSatelliteGbps => .real p.earth.wrightsLawSatelliteGbps
  | .realizedBandwidthTamMultiplier => .real p.earth.realizedBandwidthTamMultiplier
  | .starshipLaunchesForStarlink => .real p.earth.starshipLaunchesForStarlink
  | .nonStarlinkLaunchMarketGrowth => .real p.earth.nonStarlinkLaunchMarketGrowth
  | .irrThresholdEarthToMars => .real p.earth.irrThresholdEarthToMars
  | .cashBufferPercent => .real p.earth.cashBufferPercent
  | .firstColonyYear => .year p.mars.firstColonyYear
  | .populationGrowth => .real p.mars.populationGrowth
  | .transportCostDecline => .real p.mars.transportCostDecline
  | .industrialBootstrap => .flag p.mars.industrialBootstrap
  | .optimusCost2026 => .real p.mars.optimusCost2026
  | .optimusAnnualCostDecline => .real p.mars.optimusAnnualCostDecline
  | .optimusProductivityMultiplier => .real p.mars.optimusProductivityMultiplier
  | .optimusLearningRate => .real p.mars.optimusLearningRate
  | .marsPayloadOptimusVsTooling => .real p.mars.marsPayloadOptimusVsTooling
  | .discountRate => .real p.financial.discountRate
  | .terminalGrowth => .real p.financial.terminalGrowth
  | .dilutionFactor => .real p.financial.dilutionFactor

/-- The Earth parameters with a field written. A setting of another kind changes nothing. -/
def EarthParameters.write (e : EarthParameters α) : Field → Setting α → EarthParameters α
  | .starlinkPenetration, .real x => { e with starlinkPenetration := x }
  | .launchVolume, .real x => { e with launchVolume := x }
  | .bandwidthPriceDecline, .real x => { e with bandwidthPriceDecline := x }
  | .launchPriceDecline, .real x => { e with launchPriceDecline := x }
  | .starshipReusabilityYear, .year n => { e with starshipReusabilityYear := n }
  | .starshipCommercialViabilityYear, .year n => { e with starshipCommercialViabilityYear := n }
  | .starshipPayloadCapacity, .real x => { e with starshipPayloadCapacity := x }
  | .maxRocketProductionIncrease, .real x => { e with maxRocketProductionIncrease := x }
  | .wrightsLawLaunchCost, .real x => { e with wrightsLawLaunchCost := x }
  | .wrightsLawTurnaroundTime, .real x => { e with wrightsLawTurnaroundTime := x }
  | .wrightsLawSatelliteGbps, .real x => { e with wrightsLawSatelliteGbps := x }
  | .realizedBandwidthTamMultiplier, .real x => { e with realizedBandwidthTamMultiplier := x }
  | .starshipLaunchesForStarlink, .real x => { e with starshipLaunchesForStarlink := x }
  | .nonStarlinkLaunchMarketGrowth, .real x => { e with nonStarlinkLaunchMarketGrowth := x }
  | .irrThresholdEarthToMars, .real x => { e with irrThresholdEarthToMars := x }
  | .cashBufferPercent, .real x => { e with cashBufferPercent := x }
  | _, _ => e

/-- The Mars parameters with a field written. A setting of another kind changes nothing. -/
def MarsParameters.write (m : MarsParameters α) : Field → Setting α → MarsParameters α
  | .firstColonyYear, .year n => { m with firstColonyYear := n }
  | .populationGrowth, .real x => { m with populationGrowth := x }
  | .transportCostDecline, .real x => { m with transportCostDecline := x }
  | .industrialBootstrap, .flag b => { m with industrialBootstrap := b }
  | .optimusCost2026, .real x => { m with optimusCost2026 := x }
  | .optimusAnnualCostDecline, .real x => { m with optimusAnnualCostDecline := x }
  | .optimusProductivityMultiplier, .real x => { m with optimusProductivityMultiplier := x }
  | .optimusLearningRate, .real x => { m with optimusLearningRate := x }
  | .marsPayloadOptimusVsTooling, .real x => { m with marsPayloadOptimusVsTooling := x }
  | _, _ => m

/-- The financial parameters with a field written. A setting of another kind changes nothing. -/
def FinancialParameters.write (f : FinancialParameters α) :
    Field → Setting α → FinancialParameters α
  | .discountRate, .real x => { f with discountRate := x }
  | .terminalGrowth, .real x => { f with terminalGrowth := x }
  | .dilutionFactor, .real x => { f with dilutionFactor := x }
  | _, _ => f

/-- The parameters with a field written. A setting of another kind changes nothing. -/
def Field.set (f : Field) (s : Setting α) (p : Parameters α) : Parameters α :=
  ⟨p.earth.write f s, p.mars.write f s, p.financial.write f s⟩

end Appraisal
