import Appraisal.Proofs.Checked
import Appraisal.Proofs.Number.Range
import Appraisal.Proofs.Valuation.GroundTruth
import Appraisal.Valuation.Consistency

/-!
# Model and workbook at the baseline

Every factor is exactly one at the baseline, whatever the fit made of the exponents. So the model of
a workbook gives back the workbook's own figures for Mars and its option, and for the Earth what
revenue, costs and taxes leave, or nothing where that is a loss. The value that the workbook states
for the Earth is a figure of its own, which need not be what the others leave.

* `revenueFactor_baseline`, `costFactor_baseline`, `marsFactor_baseline`, `power_one` — the factors;
* `EarthAnchor.net`, `floored` — what the figures leave, and never less than nothing;
* `Model.earth_baseline`, `Model.mars_baseline`, `Model.option_baseline` — **the values of any model
  at the baseline are its anchors**;
* `Value.IsFinite`, `KeyFigures.FiniteBase` — finite figures;
* `Agree`, `Check.passed_usual` — when a check passes;
* `Model.ofWorkbook_baseline` — **the model of a workbook against the workbook**.
-/

namespace Appraisal

open Appraisal.Valuation

/-- What the figures leave: revenue less costs and taxes. -/
def EarthAnchor.net (e : EarthAnchor Float) : Float :=
  e.revenue - e.costs - e.taxes

namespace Valuation

/-! ## 1. Factors -/

theorem revenueFactor_baseline :
    revenueFactor (EarthParameters.baseline : EarthParameters Float) = .ok 1.0 :=
  eq_ok_of_toOption (by decide +kernel)

theorem costFactor_baseline :
    costFactor (EarthParameters.baseline : EarthParameters Float) = .ok 1.0 :=
  eq_ok_of_toOption (by decide +kernel)

theorem marsFactor_baseline :
    marsFactor (MarsParameters.baseline : MarsParameters Float) = .ok 1.0 :=
  eq_ok_of_toOption (by decide +kernel)

theorem financialFactor_baseline :
    discountFactor (FinancialParameters.baseline : FinancialParameters Float) *
      terminalGrowthFactor FinancialParameters.baseline = 1.0 := by
  decide

/-- A factor of one stays one, whatever it is bent by. -/
theorem power_one (exponent : Float) : power 1.0 exponent = 1.0 := by
  have hpos : (0.0 : Float) < 1.0 := by decide
  have hone : ((1.0 : Float) == 1.0) = true := by decide
  rw [power, if_pos hpos]
  show Number.positivePower 1.0 exponent = 1.0
  rw [Number.positivePower, hone, Bool.true_or, if_pos rfl]

theorem clampCost_one : clampCost (1.0 : Float) = 1.0 := by
  decide

/-! ## 2. Values -/

/-- An amount, or nothing in place of a loss. -/
def floored (x : Float) : Float :=
  if 0.0 < x then x else 0.0

theorem breakdownOf_baseline (a : EarthAnchor Float) (c : Calibration Float) :
    (breakdownOf a c .baseline 1.0 1.0).value = floored a.net := by
  simp only [breakdownOf, power_one, clampCost_one, financialFactor_baseline,
    Number.float_mul_one, floored, EarthAnchor.net]
  rfl

theorem earthBreakdown_baseline (a : Anchors Float) (c : Calibration Float) :
    earthBreakdown .baseline a c = .ok (breakdownOf a.earth c .baseline 1.0 1.0) := by
  have hserved : ¬ (Parameters.baseline : Parameters Float).earth.starlinkPenetration ≤ 0.0 := by
    decide
  have hrevenue : revenueFactor (Parameters.baseline : Parameters Float).earth = .ok 1.0 :=
    revenueFactor_baseline
  have hcosts : costFactor (Parameters.baseline : Parameters Float).earth = .ok 1.0 :=
    costFactor_baseline
  rw [earthBreakdown, if_neg hserved, hrevenue, hcosts]
  rfl

namespace Model

/-- **The value of the Earth at the baseline** is what its anchors leave, whatever the
    calibration. -/
theorem earth_baseline (m : Model Float) :
    m.earth .baseline = .ok (floored m.anchors.earth.net) := by
  rw [earth, breakdown, earthBreakdown_baseline, ← breakdownOf_baseline _ m.calibration]
  rfl

theorem marsMultiplier_baseline (m : Model Float) : m.marsMultiplier .baseline = .ok 1.0 := by
  have hfactor : marsFactor (Parameters.baseline : Parameters Float).mars = .ok 1.0 :=
    marsFactor_baseline
  have hbuilds : (Parameters.baseline : Parameters Float).mars.industrialBootstrap = true := rfl
  rw [marsMultiplier, hfactor, Except.map]
  simp only [hbuilds, if_true, power_one]

/-- **The value of Mars at the baseline** is its anchor. -/
theorem mars_baseline (m : Model Float) : m.mars .baseline = .ok m.anchors.marsValue := by
  rw [mars, marsMultiplier_baseline, Except.map, Number.float_mul_one]

/-- **The value of the option at the baseline** is its anchor, or that of Mars. -/
theorem option_baseline (m : Model Float) :
    m.option .baseline = .ok (m.anchors.marsOptionValue.getD m.anchors.marsValue) := by
  unfold option
  cases m.anchors.marsOptionValue with
  | none => exact mars_baseline m
  | some x =>
    simp only [marsMultiplier_baseline, Except.map, Number.float_mul_one, Option.getD_some]

end Model

end Valuation

/-! ## 3. Anchors -/

namespace KeyFigures

variable {f : KeyFigures} {m : Model Float} {refit fitMars : Bool}

/-- A model that is refitted has been given the optimistic figures. -/
theorem optimistic_of_model [LeastSquares Float] (h : f.model true fitMars = .ok m) :
    ∃ earth mars, f.earthOptimistic.anchor = .ok earth ∧
      (if fitMars then billions f.marsOptimistic.value else pure none) = .ok mars := by
  obtain ⟨a, -, hrest⟩ := exists_of_bind_ok h
  obtain ⟨earth, hearth, hrest⟩ := exists_of_bind_ok hrest
  cases fitMars with
  | false => exact ⟨earth, none, hearth, rfl⟩
  | true =>
    obtain ⟨mars, hmars, -⟩ := exists_of_bind_ok (x := billions f.marsOptimistic.value) hrest
    exact ⟨earth, mars, hearth, hmars⟩

theorem anchors_of_ofAnchors [LeastSquares Float] {a : Anchors Float}
    (h : Model.ofAnchors a = .ok m) : m.anchors = a := by
  obtain ⟨c, -, rfl⟩ := exists_of_map_ok h
  rfl

/-- The anchors of a model are those of its figures. -/
theorem anchors_of_model [LeastSquares Float] (h : f.model refit fitMars = .ok m) :
    f.anchors = .ok m.anchors := by
  obtain ⟨a, ha, hrest⟩ := exists_of_bind_ok h
  cases refit with
  | false => rw [ha, anchors_of_ofAnchors hrest]
  | true =>
    obtain ⟨earth, mars, hearth, hmars⟩ := optimistic_of_model h
    rw [model_eq_refitted ha hearth hmars, refitted] at h
    split at h
    · rw [ha, anchors_of_ofAnchors h]
    · obtain ⟨c, -, rfl⟩ := exists_of_map_ok h
      exact ha

theorem anchors_cases {a : Anchors Float} (h : f.anchors = .ok a) :
    ∃ earth mars, f.earth.anchor = .ok earth ∧ billions f.mars.value = .ok mars ∧
      f.mars.optionValue = .ok a.marsOptionValue ∧ a.earth = earth.getD .builtin ∧
      a.marsValue = mars.getD (Anchors.builtin : Anchors Float).marsValue := by
  obtain ⟨earth, hearth, hrest⟩ := exists_of_bind_ok h
  obtain ⟨mars, hmars, hrest⟩ := exists_of_bind_ok hrest
  obtain ⟨option, hoption, hrest⟩ := exists_of_bind_ok hrest
  cases hrest
  exact ⟨earth, mars, hearth, hmars, hoption, rfl, rfl⟩

end KeyFigures

/-! ## 4. Finite figures -/

/-- The value is a finite number. -/
def Value.IsFinite (v : Value) : Prop :=
  ∃ n, v.number? = some n ∧ n.isFinite = true

instance (v : Value) : Decidable v.IsFinite :=
  decidable_of_iff (v.number?.any Number.isFinite = true) (by
    rw [Option.any_eq_true]
    rfl)

/-- The base figures of a workbook are finite numbers. -/
structure KeyFigures.FiniteBase (f : KeyFigures) : Prop where
  earth : ∀ v ∈ f.earth.values, v.IsFinite
  mars : ∀ v ∈ f.mars.values, v.IsFinite

theorem Value.IsFinite.billions_cases {v : Value} (hv : v.IsFinite) {x : Option Float}
    (h : billions v = .ok x) : ∃ y, x = some y ∧ Number.Below 996 y := by
  obtain ⟨n, hn, hfinite⟩ := hv
  unfold billions at h
  rw [hn] at h
  obtain ⟨y, hy, rfl⟩ := exists_of_map_ok h
  exact ⟨y / 1e9, rfl, Number.below_billions (Number.toFloat_isFinite hfinite hy)⟩

theorem EarthFigures.exists_of_anchor {f : EarthFigures} (hf : ∀ v ∈ f.values, v.IsFinite)
    {x : Option (EarthAnchor Float)} (h : f.anchor = .ok x) :
    ∃ e, x = some e ∧ e.value.isFinite = true := by
  obtain ⟨revenue, hrevenue, h⟩ := exists_of_bind_ok h
  obtain ⟨costs, hcosts, h⟩ := exists_of_bind_ok h
  obtain ⟨taxes, htaxes, h⟩ := exists_of_bind_ok h
  simp only [values, List.forall_mem_cons] at hf
  obtain ⟨r, rfl, -⟩ := hf.1.billions_cases hrevenue
  obtain ⟨c, rfl, -⟩ := hf.2.1.billions_cases hcosts
  obtain ⟨t, rfl, -⟩ := hf.2.2.1.billions_cases htaxes
  obtain ⟨value, hvalue, h⟩ := exists_of_bind_ok h
  obtain ⟨v, rfl, hv⟩ := hf.2.2.2.1.billions_cases hvalue
  exact ⟨⟨r, c, t, v⟩, (Except.ok.inj h).symm, hv.isFinite⟩

theorem MarsFigures.exists_of_optionValue {f : MarsFigures} (hf : ∀ v ∈ f.values, v.IsFinite)
    {x : Option Float} (h : f.optionValue = .ok x) : ∃ y, x = some y ∧ y.isFinite = true := by
  obtain ⟨value, hvalue, h⟩ := exists_of_bind_ok h
  obtain ⟨revenue, hrevenue, h⟩ := exists_of_bind_ok h
  obtain ⟨costs, hcosts, h⟩ := exists_of_bind_ok h
  simp only [values, List.forall_mem_cons] at hf
  obtain ⟨v, rfl, hv⟩ := hf.1.billions_cases hvalue
  obtain ⟨r, rfl, hr⟩ := hf.2.1.billions_cases hrevenue
  obtain ⟨c, rfl, hc⟩ := hf.2.2.1.billions_cases hcosts
  have hsum : Number.Below 998 (v + r) := hv.add hr (by decide) (by decide)
  have hoption : Number.Below 1000 (v + r - c) :=
    hsum.sub (hc.mono (by decide)) (by decide) (by decide)
  exact ⟨v + r - c, (Except.ok.inj h).symm, hoption.isFinite⟩

/-! ## 5. Checks -/

namespace Valuation

/-- By how much a figure may differ from an expected one, with the usual tolerances. -/
def usualTolerance (expected : Float) : Float :=
  if 1e-6 < 1e-3 * expected.abs then 1e-3 * expected.abs else 1e-6

/-- The figures differ by no more than the usual tolerances. -/
def Agree (expected actual : Float) : Prop :=
  (actual - expected).abs ≤ usualTolerance expected

instance (expected actual : Float) : Decidable (Agree expected actual) :=
  inferInstanceAs (Decidable (_ ≤ _))

/-- A finite figure agrees with itself. -/
theorem agree_self {x : Float} (h : x.isFinite = true) : Agree x x := by
  have hdeviation : (x - x).abs = 0.0 := by
    rw [Number.float_sub_self h]
    decide
  have hpos : (0.0 : Float) < 1e-6 := by decide
  have hleast : (0.0 : Float) ≤ 1e-6 := by decide
  rw [Agree, hdeviation, usualTolerance]
  split
  · next hlarger => exact Number.le_of_pos_of_lt hpos hlarger
  · exact hleast

/-- The check of a figure with the usual tolerances. -/
def Check.usual (name : String) (expected actual : Float) : Check :=
  ⟨name, .float expected, .float actual, usualRelativeTolerance, usualAbsoluteTolerance⟩

theorem Check.passed_usual (name : String) (expected actual : Float) :
    (Check.usual name expected actual).passed = .ok (decide (Agree expected actual)) := by
  have hdeviation : (Check.usual name expected actual).deviation =
      .ok (.float (actual - expected).abs) := rfl
  have htolerance : (Check.usual name expected actual).tolerance =
      .ok (.float (usualTolerance expected)) := by
    have hlarger : Number.larger (.float 1e-6) (.float (1e-3 * expected.abs)) =
        .float (usualTolerance expected) := by
      unfold Number.larger usualTolerance Number.lt
      by_cases hless : (1e-6 : Float) < 1e-3 * expected.abs
      · rw [if_pos hless, if_pos (decide_eq_true hless)]
      · rw [if_neg hless, if_neg (by rwa [decide_eq_true_eq])]
    exact congrArg Except.ok hlarger
  rw [passed, hdeviation, htolerance]
  rfl

theorem Report.judged_ok {checks : List Check} (h : ∀ c ∈ checks, ∃ b, c.passed = .ok b) :
    Report.judged checks = .ok ⟨checks⟩ := by
  have hfailures : ∃ r, Report.failures ⟨checks⟩ = .ok r :=
    exists_filterM_ok fun c hc => by
      obtain ⟨b, hb⟩ := h c hc
      rw [hb]
      exact ⟨!b, rfl⟩
  obtain ⟨r, hr⟩ := hfailures
  unfold Report.judged
  simp only [hr]
  rfl

/-- The report on figures with the usual tolerances: an expected and an actual one by a name. -/
def Report.usual (figures : List (String × Float × Float)) : Report :=
  ⟨figures.map fun p => Check.usual p.1 p.2.1 p.2.2⟩

theorem Report.judged_usual (figures : List (String × Float × Float)) :
    Report.judged (Report.usual figures).checks = .ok (.usual figures) := by
  refine Report.judged_ok fun c hc => ?_
  obtain ⟨p, -, rfl⟩ := List.mem_map.mp hc
  exact ⟨_, Check.passed_usual p.1 p.2.1 p.2.2⟩

/-- The report has a check of the name that passes. -/
def Report.Passes (r : Report) (name : String) : Prop :=
  ∃ c ∈ r.checks, c.name = name ∧ c.passed = .ok true

/-- Figures whose names are all different pass where they agree. -/
theorem Report.passes_usual {figures : List (String × Float × Float)} {name : String}
    {expected actual : Float} (hn : (figures.map (·.1)).Nodup)
    (hmem : (name, expected, actual) ∈ figures) :
    (Report.usual figures).Passes name ↔ Agree expected actual := by
  constructor
  · intro ⟨c, hc, hname, hpassed⟩
    obtain ⟨p, hp, rfl⟩ := List.mem_map.mp hc
    obtain rfl : p = (name, expected, actual) := List.inj_on_of_nodup_map hn hp hmem hname
    rw [Check.passed_usual] at hpassed
    exact of_decide_eq_true (Except.ok.inj hpassed)
  · intro hagree
    refine ⟨_, List.mem_map_of_mem hmem, rfl, ?_⟩
    rw [Check.passed_usual, decide_eq_true hagree]

/-! ## 6. Model and workbook -/

theorem Model.exists_earth_optimistic (m : Model Float) :
    ∃ x, m.earth Scenario.optimistic.parameters = .ok x := by
  obtain ⟨b, hb⟩ := optimistic_rated.earthBreakdown_ok (a := m.anchors) (c := m.calibration)
  refine ⟨b.value, ?_⟩
  rw [earth, breakdown, hb]
  rfl

section Compare

variable (m : Model Float) {f : KeyFigures} {truth : EarthAnchor Float} {mars option : Float}
  {optimistic : Option (EarthAnchor Float)} (hearth : f.earth.anchor = .ok (some truth))
  (hoptimistic : f.earthOptimistic.anchor = .ok optimistic)
  (hmars : billions f.mars.value = .ok (some mars))
  (hoption : f.mars.optionValue = .ok (some option))
include hearth hoptimistic hmars hoption

/-- The checks of a model against figures that are all there, the optimistic ones possibly aside. -/
theorem Model.exists_compare_eq : ∃ x, m.compare f {} = .ok (.usual
    (("earth.base", truth.value, floored m.anchors.earth.net) ::
      (optimistic.map fun o => ("earth.optimistic", o.value, x)).toList ++
      [("mars.base", mars, m.anchors.marsValue),
        ("mars.option.base", option, m.anchors.marsOptionValue.getD m.anchors.marsValue)])) := by
  obtain ⟨x, hx⟩ := m.exists_earth_optimistic
  have hbase : (Scenario.base.parameters : Parameters Float) = .baseline := rfl
  let figures : List (String × Float × Float) :=
    ("earth.base", truth.value, floored m.anchors.earth.net) ::
      (optimistic.map fun o => ("earth.optimistic", o.value, x)).toList ++
      [("mars.base", mars, m.anchors.marsValue),
        ("mars.option.base", option, m.anchors.marsOptionValue.getD m.anchors.marsValue)]
  refine ⟨x, ?_⟩
  unfold compare
  simp only [hearth, hmars, hoption, hoptimistic, hx, hbase, earth_baseline, mars_baseline,
    option_baseline]
  cases optimistic with
  | none => exact Report.judged_usual figures
  | some o => exact Report.judged_usual figures

/-- The report on a model against figures that are all there, the optimistic ones possibly aside. -/
theorem Model.exists_compare : ∃ report, m.compare f {} = .ok report ∧
    (report.Passes "earth.base" ↔ Agree truth.value (floored m.anchors.earth.net)) ∧
    (report.Passes "mars.base" ↔ Agree mars m.anchors.marsValue) ∧
    (report.Passes "mars.option.base" ↔
      Agree option (m.anchors.marsOptionValue.getD m.anchors.marsValue)) := by
  obtain ⟨x, hcompare⟩ := m.exists_compare_eq hearth hoptimistic hmars hoption
  refine ⟨_, hcompare, ?_⟩
  cases optimistic with
  | none =>
    have hnames : ["earth.base", "mars.base", "mars.option.base"].Nodup := by decide
    exact ⟨Report.passes_usual hnames (by simp), Report.passes_usual hnames (by simp),
      Report.passes_usual hnames (by simp)⟩
  | some o =>
    have hnames : ["earth.base", "earth.optimistic", "mars.base", "mars.option.base"].Nodup := by
      decide
    exact ⟨Report.passes_usual hnames (by simp), Report.passes_usual hnames (by simp),
      Report.passes_usual hnames (by simp)⟩

end Compare

/-- A model whose anchors are the finite base figures of a workbook. -/
structure Anchored (m : Model Float) (f : KeyFigures) (truth : EarthAnchor Float)
    (mars option : Float) : Prop where
  earth_figures : f.earth.anchor = .ok (some truth)
  mars_figure : billions f.mars.value = .ok (some mars)
  option_figure : f.mars.optionValue = .ok (some option)
  net_eq : m.anchors.earth.net = truth.net
  mars_eq : m.anchors.marsValue = mars
  option_eq : m.anchors.marsOptionValue.getD m.anchors.marsValue = option
  finite_value : truth.value.isFinite = true
  finite_mars : mars.isFinite = true
  finite_option : option.isFinite = true

/-- The model of finite base figures has them for its anchors. -/
theorem exists_anchored [LeastSquares Float] {m : Model Float} {f : KeyFigures}
    {refit fitMars : Bool}
    (hm : f.model refit fitMars = .ok m) (hfinite : f.FiniteBase) :
    ∃ truth mars option, Anchored m f truth mars option := by
  obtain ⟨earth, mars, hearth, hmars, hoption, htruth, hvalue⟩ :=
    KeyFigures.anchors_cases (KeyFigures.anchors_of_model hm)
  obtain ⟨truth, rfl, hfiniteTruth⟩ := EarthFigures.exists_of_anchor hfinite.earth hearth
  obtain ⟨x, rfl, hx⟩ := (hfinite.mars f.mars.value List.mem_cons_self).billions_cases hmars
  obtain ⟨y, hy, hfiniteOption⟩ := MarsFigures.exists_of_optionValue hfinite.mars hoption
  exact ⟨truth, x, y,
    { earth_figures := hearth
      mars_figure := hmars
      option_figure := hoption.trans (congrArg Except.ok hy)
      net_eq := congrArg EarthAnchor.net htruth
      mars_eq := hvalue
      option_eq := by rw [hy]; rfl
      finite_value := hfiniteTruth
      finite_mars := hx.isFinite
      finite_option := hfiniteOption }⟩

/-- The report on a model against the figures that it is anchored in. -/
theorem Anchored.exists_report {m : Model Float} {f : KeyFigures} {truth : EarthAnchor Float}
    {mars option : Float} {optimistic : Option (EarthAnchor Float)}
    (h : Anchored m f truth mars option)
    (hoptimistic : f.earthOptimistic.anchor = .ok optimistic) :
    ∃ report, m.compare f {} = .ok report ∧ report.Passes "mars.base" ∧
      report.Passes "mars.option.base" ∧
      (report.Passes "earth.base" ↔ Agree truth.value (floored truth.net)) := by
  obtain ⟨report, hreport, hearth, hmars, hoption⟩ :=
    m.exists_compare h.earth_figures hoptimistic h.mars_figure h.option_figure
  rw [h.net_eq] at hearth
  rw [h.mars_eq] at hmars
  rw [h.option_eq] at hoption
  exact ⟨report, hreport, hmars.mpr (agree_self h.finite_mars),
    hoption.mpr (agree_self h.finite_option), hearth⟩

/-- The report on a model against the figures that it is anchored in, where none are optimistic. -/
theorem Anchored.compare_eq {m : Model Float} {f : KeyFigures} {truth : EarthAnchor Float}
    {mars option : Float} (h : Anchored m f truth mars option)
    (hoptimistic : f.earthOptimistic.anchor = .ok none) :
    m.compare f {} = .ok (.usual [("earth.base", truth.value, floored truth.net),
      ("mars.base", mars, mars), ("mars.option.base", option, option)]) := by
  obtain ⟨_, hcompare⟩ :=
    m.exists_compare_eq h.earth_figures hoptimistic h.mars_figure h.option_figure
  rw [hcompare, h.net_eq, h.option_eq, h.mars_eq]
  rfl

theorem checkConsistency_eq {e : Evaluator} {f : KeyFigures} (hf : e.freshFigures = .ok f)
    (m : Model Float) (t : Tolerances) : checkConsistency m e t = m.compare f t := by
  rw [checkConsistency, hf]
  rfl

/-- **The model of a workbook at the baseline.** For Mars and its option it has the workbook's own
    figures, and their checks pass. For the Earth it has what revenue, costs and taxes leave, or
    nothing in place of a loss, and its check passes exactly if the value that the workbook states
    agrees with that. The checks can be made if the optimistic figures of the Earth have floats,
    which a model that is refitted has asked for. -/
theorem Model.ofWorkbook_baseline [LeastSquares Float] (e : Evaluator) (refit fitMars : Bool)
    {f : KeyFigures} {m : Model Float} (hf : e.freshFigures = .ok f) (hfinite : f.FiniteBase)
    (hm : Model.ofWorkbook e refit fitMars = .ok m) :
    ∃ truth mars option,
      (f.earthAnchor "base" = .ok (some truth) ∧
        m.earth .baseline = .ok (floored truth.net)) ∧
      (f.marsValue "base" = .ok (some mars) ∧ m.mars .baseline = .ok mars) ∧
      (f.marsOptionValue "base" = .ok (some option) ∧ m.option .baseline = .ok option) ∧
      (truth.value = floored truth.net → Agree truth.value (floored truth.net)) ∧
      ((refit = true ∨ ∃ x, f.earthOptimistic.anchor = .ok x) →
        ∃ report, checkConsistency m e {} = .ok report ∧ report.Passes "mars.base" ∧
          report.Passes "mars.option.base" ∧
          (report.Passes "earth.base" ↔ Agree truth.value (floored truth.net))) := by
  rw [Model.ofWorkbook_eq hf] at hm
  obtain ⟨truth, mars, option, h⟩ := exists_anchored hm hfinite
  refine ⟨truth, mars, option, ⟨h.earth_figures, ?_⟩, ⟨h.mars_figure, ?_⟩, ⟨h.option_figure, ?_⟩,
    fun hstated => ?_, fun hoptimistic => ?_⟩
  · rw [m.earth_baseline, h.net_eq]
  · rw [m.mars_baseline, h.mars_eq]
  · rw [m.option_baseline, h.option_eq]
  · rw [← hstated]
    exact agree_self h.finite_value
  · obtain ⟨x, hx⟩ : ∃ x, f.earthOptimistic.anchor = .ok x := by
      rcases hoptimistic with rfl | hx
      · obtain ⟨x, -, hx, -⟩ := KeyFigures.optimistic_of_model hm
        exact ⟨x, hx⟩
      · exact hx
    rw [checkConsistency_eq hf]
    exact h.exists_report hx

end Valuation

/-! ## 7. Three workbooks -/

/-- Base figures of the Earth, with base figures of Mars. -/
def books (revenue costs taxes value : Int) : Evaluator where
  workbook :=
    { snapshot := ⟨[("Earth", ⟨"Earth", [("O119", ⟨"O119", .number (.whole revenue), none⟩),
        ("O144", ⟨"O144", .number (.whole costs), none⟩),
        ("O152", ⟨"O152", .number (.whole taxes), none⟩),
        ("O153", ⟨"O153", .number (.whole value), none⟩)]⟩),
        ("Mars", ⟨"Mars", [("K54", ⟨"K54", .number (.whole 745000000), none⟩),
        ("K8", ⟨"K8", .number (.whole 800000000), none⟩),
        ("K27", ⟨"K27", .number (.whole 300000000), none⟩)]⟩)]⟩
      library := .standard
      recompute := false }
  figures := {}

/-- Books that state what the figures leave. -/
def balanced : Evaluator :=
  books 148130000000 10320000000 13330000000 124480000000

theorem balanced_freshFigures :
    balanced.freshFigures = .ok (balanced.figures.figures balanced.workbook.stored) :=
  freshFigures_of_stored (by decide +kernel)

theorem balanced_model : ∃ m, Model.ofWorkbook balanced true true = .ok m := by
  have hfit : (balanced.figures.figures balanced.workbook.stored).FitsFloat := by decide +kernel
  have hzero : ¬ (balanced.figures.figures balanced.workbook.stored).ZeroDivisor true true := by
    decide +kernel
  rw [Model.ofWorkbook_eq balanced_freshFigures]
  exact (KeyFigures.model_failsIff (LeastSquares.closedForm_answers _) hfit true true).ok_iff.mpr
    hzero

theorem balanced_finiteBase : (balanced.figures.figures balanced.workbook.stored).FiniteBase :=
  ⟨by decide +kernel, by decide +kernel⟩

theorem balanced_agree {truth : EarthAnchor Float}
    (h : (balanced.figures.figures balanced.workbook.stored).earth.anchor = .ok (some truth)) :
    Agree truth.value (floored truth.net) := by
  have hagree : (balanced.figures.figures balanced.workbook.stored).earth.anchor.toOption.all
      (·.all fun truth => decide (Agree truth.value (floored truth.net))) = true := by
    decide +kernel
  rw [h] at hagree
  exact of_decide_eq_true hagree

theorem ofWorkbook_baseline_balanced : ∃ f m, balanced.freshFigures = .ok f ∧ f.FiniteBase ∧
    Model.ofWorkbook balanced true true = .ok m ∧
    ∃ report, checkConsistency m balanced {} = .ok report ∧ report.Passes "earth.base" ∧
      report.Passes "mars.base" ∧ report.Passes "mars.option.base" := by
  have hfinite := balanced_finiteBase
  obtain ⟨m, hm⟩ := balanced_model
  obtain ⟨truth, mars, option, ⟨htruth, -⟩, -, -, -, hreport⟩ :=
    Model.ofWorkbook_baseline balanced true true balanced_freshFigures hfinite hm
  obtain ⟨report, hrun, hmars, hoption, hearth⟩ := hreport (Or.inl rfl)
  exact ⟨_, m, balanced_freshFigures, hfinite, hm, report, hrun, hearth.mpr (balanced_agree htruth),
    hmars, hoption⟩

/-- Books of a loss. -/
def losing : Evaluator :=
  books 10000000000 20000000000 0 (-10000000000)

/-- Books that state more than the figures leave. -/
def overstated : Evaluator :=
  books 148130000000 10320000000 13330000000 200000000000

/-- The workbook has finite base figures and a model, and the check of its value of the Earth
    fails. -/
def Disagrees (e : Evaluator) : Prop :=
  (∃ f, e.freshFigures = .ok f ∧ f.FiniteBase) ∧
    ∃ m report, Model.ofWorkbook e true false = .ok m ∧ checkConsistency m e {} = .ok report ∧
      ¬ report.Passes "earth.base"

/-- Where the stated value does not agree with what the figures leave, the check fails. -/
theorem disagrees_of_not_agree {e : Evaluator} {f : KeyFigures}
    (hfigures : e.freshFigures = .ok f) (hfinite : f.FiniteBase) (hfit : f.FitsFloat)
    (hzero : ¬ f.ZeroDivisor true false)
    (hdisagree : f.earth.anchor.toOption.any
      (·.any fun truth => decide (Agree truth.value (floored truth.net))) = false) :
    Disagrees e := by
  have hfails := KeyFigures.model_failsIff (LeastSquares.closedForm_answers _) hfit true false
  obtain ⟨m, hm⟩ := hfails.ok_iff.mpr hzero
  obtain ⟨x, -, hx, -⟩ := KeyFigures.optimistic_of_model hm
  obtain ⟨truth, mars, option, h⟩ := exists_anchored hm hfinite
  obtain ⟨report, hreport, -, -, hpass⟩ := h.exists_report hx
  rw [h.earth_figures] at hdisagree
  refine ⟨⟨_, hfigures, hfinite⟩, m, report, ?_, ?_, fun hpassed => ?_⟩
  · rw [Model.ofWorkbook_eq hfigures]
    exact hm
  · rw [checkConsistency_eq hfigures]
    exact hreport
  · exact of_decide_eq_false hdisagree (hpass.mp hpassed)

/-- **The model of a workbook need not have its value of the Earth**: not for a loss, and not for a
    stated value that is another than what the figures leave. -/
theorem baseline_disagrees : Disagrees losing ∧ Disagrees overstated := by
  constructor
  all_goals refine disagrees_of_not_agree (freshFigures_of_stored ?_) ⟨?_, ?_⟩ ?_ ?_ ?_
  all_goals decide +kernel

end Appraisal
