import Appraisal.Proofs.Evaluation.KeyFigures
import Appraisal.Proofs.Evaluation.Operand
import Appraisal.Proofs.Valuation.Fit
import Appraisal.Valuation.GroundTruth

/-!
# When a workbook has a model

The anchors of a workbook are its base figures, and nothing keeps them away from zero. The fit that
makes the model divides by the revenue and the costs if it has Earth figures to meet, which it lacks
only where it is given a value of Mars alone; and by the value of Mars if it has one to meet.

* `KeyFigures.FitsFloat` — figures none of which is a number beyond the floats;
* `KeyFigures.ZeroDivisor` — a base figure that the fit divides by is a zero;
* `KeyFigures.anchors_ok` — the anchors, and when they are zero;
* `Model.ofWorkbook_ok_iff` — **a workbook has a model exactly if no such figure is a zero**, with any
  solver that answers the optimistic scenario.
-/

namespace Appraisal

open Appraisal.Valuation

/-! ## 1. Amounts -/

theorem Value.eq_of_number? {v : Value} {n : Number} (h : v.number? = some n) :
    v = .number n := by
  unfold number? at h
  split at h
  · rw [Option.some.inj h]
  · cases h

/-- The value is no number beyond the floats. -/
def Value.IsAmount (v : Value) : Prop :=
  ∀ n, v.number? = some n → n.fitsFloat = true

instance (v : Value) : Decidable v.IsAmount :=
  decidable_of_iff (v.number?.all Number.fitsFloat = true) (Option.all_eq_true _ _)

/-- The value is a number that is zero in billions. -/
def IsZeroAmount (v : Value) : Prop :=
  ∃ x, billions v = .ok (some x) ∧ IsZero x

theorem isZeroAmount_iff {v : Value} {x : Float} (h : billions v = .ok (some x)) :
    IsZeroAmount v ↔ IsZero x := by
  refine ⟨fun ⟨y, hy, hzero⟩ => ?_, fun hzero => ⟨x, h, hzero⟩⟩
  rw [h] at hy
  cases hy
  exact hzero

theorem not_isZeroAmount {v : Value} (h : billions v = .ok none) : ¬ IsZeroAmount v := by
  intro ⟨y, hy, _⟩
  rw [h] at hy
  cases hy

instance (v : Value) : Decidable (IsZeroAmount v) :=
  match h : billions v with
  | .ok (some _) => decidable_of_iff _ (isZeroAmount_iff h).symm
  | .ok none => isFalse (not_isZeroAmount h)
  | .error _ => isFalse fun ⟨_, hx, _⟩ => nomatch h.symm.trans hx

theorem billions_ok {v : Value} (h : v.IsAmount) :
    ∃ x, billions v = .ok x ∧ x.isSome = v.number?.isSome := by
  unfold billions
  cases hv : v.number? with
  | none => exact ⟨none, rfl, rfl⟩
  | some n =>
    cases hx : n.toFloat with
    | ok x => exact ⟨some (x / 1e9), by simp only [hx]; rfl, rfl⟩
    | error fault =>
      have hbeyond : n.fitsFloat = false := (Number.toFloat_error hx).2
      rw [h n hv] at hbeyond
      cases hbeyond

/-- The Earth figures as they stand in the workbook. -/
def EarthFigures.values (f : EarthFigures) : List Value :=
  [f.revenue, f.costs, f.taxes, f.value]

/-- Whether revenue, costs and taxes are all numbers. -/
def EarthFigures.isComplete (f : EarthFigures) : Bool :=
  f.revenue.number?.isSome && f.costs.number?.isSome && f.taxes.number?.isSome

/-- The figures are complete, and the revenue or the costs are zero. -/
def EarthFigures.ZeroDivisor (f : EarthFigures) : Prop :=
  f.isComplete = true ∧ (IsZeroAmount f.revenue ∨ IsZeroAmount f.costs)

instance (f : EarthFigures) : Decidable f.ZeroDivisor :=
  inferInstanceAs (Decidable (_ ∧ _))

/-- The Mars figures as they stand in the workbook. -/
def MarsFigures.values (f : MarsFigures) : List Value :=
  [f.value, f.revenue, f.costs]

theorem EarthFigures.anchor_ok {f : EarthFigures} (h : ∀ v ∈ f.values, v.IsAmount) :
    ∃ x, f.anchor = .ok x ∧ x.isSome = f.isComplete ∧
      ∀ e, x = some e → billions f.revenue = .ok (some e.revenue) ∧
        billions f.costs = .ok (some e.costs) := by
  obtain ⟨revenue, hrevenue, hr⟩ := billions_ok (h f.revenue (by simp [values]))
  obtain ⟨costs, hcosts, hc⟩ := billions_ok (h f.costs (by simp [values]))
  obtain ⟨taxes, htaxes, ht⟩ := billions_ok (h f.taxes (by simp [values]))
  obtain ⟨value, hvalue, -⟩ := billions_ok (h f.value (by simp [values]))
  have hcomplete : f.isComplete = (revenue.isSome && costs.isSome && taxes.isSome) := by
    rw [isComplete, hr, hc, ht]
  rw [hcomplete]
  unfold anchor
  simp only [hrevenue, hcosts, htaxes, hvalue]
  -- one missing amount is enough to leave no figures
  cases revenue with
  | none => exact ⟨none, rfl, rfl, fun e he => nomatch he⟩
  | some r =>
    cases costs with
    | none => exact ⟨none, rfl, rfl, fun e he => nomatch he⟩
    | some c =>
      cases taxes with
      | none => exact ⟨none, rfl, rfl, fun e he => nomatch he⟩
      | some t =>
        refine ⟨some ⟨r, c, t, value.getD (r - c - t)⟩, rfl, rfl, fun e he => ?_⟩
        cases he
        exact ⟨rfl, rfl⟩

theorem MarsFigures.optionValue_ok {f : MarsFigures} (h : ∀ v ∈ f.values, v.IsAmount) :
    ∃ x, f.optionValue = .ok x := by
  obtain ⟨value, hvalue, -⟩ := billions_ok (h f.value (by simp [values]))
  obtain ⟨revenue, hrevenue, -⟩ := billions_ok (h f.revenue (by simp [values]))
  obtain ⟨costs, hcosts, -⟩ := billions_ok (h f.costs (by simp [values]))
  unfold optionValue
  simp only [hvalue, hrevenue, hcosts]
  cases value with
  | none => exact ⟨none, rfl⟩
  | some v =>
    cases revenue with
    | none => exact ⟨none, rfl⟩
    | some r =>
      cases costs with
      | none => exact ⟨none, rfl⟩
      | some c => exact ⟨some (v + r - c), rfl⟩

namespace KeyFigures

/-! ## 2. Anchors -/

/-- The figures as they stand in the workbook. -/
def values (f : KeyFigures) : List Value :=
  f.earth.values ++ f.earthOptimistic.values ++ f.mars.values ++ f.marsOptimistic.values

/-- None of the figures is a number beyond the floats. -/
def FitsFloat (f : KeyFigures) : Prop :=
  ∀ v ∈ f.values, v.IsAmount

instance (f : KeyFigures) : Decidable f.FitsFloat :=
  inferInstanceAs (Decidable (∀ v ∈ f.values, v.IsAmount))

section Figures

variable {f : KeyFigures}

theorem FitsFloat.earth (h : f.FitsFloat) : ∀ v ∈ f.earth.values, v.IsAmount :=
  fun v hv => h v (by simp [values, hv])

theorem FitsFloat.earthOptimistic (h : f.FitsFloat) :
    ∀ v ∈ f.earthOptimistic.values, v.IsAmount :=
  fun v hv => h v (by simp [values, hv])

theorem FitsFloat.mars (h : f.FitsFloat) : ∀ v ∈ f.mars.values, v.IsAmount :=
  fun v hv => h v (by simp [values, hv])

theorem FitsFloat.marsOptimistic (h : f.FitsFloat) : ∀ v ∈ f.marsOptimistic.values, v.IsAmount :=
  fun v hv => h v (by simp [values, hv])

/-- **The anchors are zero where the figures are.** Built-in anchors are not. -/
theorem anchors_ok (h : f.FitsFloat) : ∃ a, f.anchors = .ok a ∧
    ((IsZero a.earth.revenue ∨ IsZero a.earth.costs) ↔ f.earth.ZeroDivisor) ∧
    (IsZero a.marsValue ↔ IsZeroAmount f.mars.value) := by
  obtain ⟨earth, hearth, hcomplete, hfigures⟩ := EarthFigures.anchor_ok h.earth
  obtain ⟨mars, hmars, -⟩ := billions_ok (h.mars f.mars.value (by simp [MarsFigures.values]))
  obtain ⟨option, hoption⟩ := MarsFigures.optionValue_ok h.mars
  refine ⟨_, by unfold anchors; simp only [hearth, hmars, hoption]; rfl, ?_, ?_⟩
  · cases earth with
    | none =>
      have hbuiltin : ¬ (IsZero (148.13 : Float) ∨ IsZero (10.32 : Float)) := by decide
      refine ⟨fun hzero => absurd hzero hbuiltin, fun hzero => ?_⟩
      rw [hzero.1] at hcomplete
      cases hcomplete
    | some e =>
      obtain ⟨hr, hc⟩ := hfigures e rfl
      rw [EarthFigures.ZeroDivisor, ← hcomplete, isZeroAmount_iff hr, isZeroAmount_iff hc]
      exact ⟨fun hzero => ⟨rfl, hzero⟩, fun hzero => hzero.2⟩
  · cases mars with
    | none =>
      have hbuiltin : ¬ IsZero (0.745 : Float) := by decide
      exact ⟨fun hzero => absurd hzero hbuiltin, fun hzero => absurd hzero (not_isZeroAmount hmars)⟩
    | some x => exact (isZeroAmount_iff hmars).symm

/-! ## 3. The model -/

/-- Whether the model is to meet an optimistic value of Mars. -/
def meetsMars (f : KeyFigures) (refit fitMars : Bool) : Bool :=
  refit && fitMars && f.marsOptimistic.value.number?.isSome

/-- Whether the model is to meet optimistic figures of the Earth, be they built in. -/
def meetsEarth (f : KeyFigures) (refit fitMars : Bool) : Bool :=
  !refit || f.earthOptimistic.isComplete || !f.meetsMars refit fitMars

/-- A base figure is a zero, and the model is to meet an optimistic figure in its place. -/
def ZeroDivisor (f : KeyFigures) (refit fitMars : Bool) : Prop :=
  (f.meetsEarth refit fitMars = true ∧ f.earth.ZeroDivisor) ∨
    (f.meetsMars refit fitMars = true ∧ IsZeroAmount f.mars.value)

instance (refit fitMars : Bool) : Decidable (f.ZeroDivisor refit fitMars) :=
  inferInstanceAs (Decidable (_ ∨ _))

/-- What an optimistic value of Mars gives the fit to meet. -/
theorem marsTarget_ok (h : f.FitsFloat) (fitMars : Bool) :
    ∃ x, (if fitMars then billions f.marsOptimistic.value else pure none) = .ok x ∧
      x.isSome = f.meetsMars true fitMars := by
  cases fitMars with
  | false => exact ⟨none, rfl, rfl⟩
  | true =>
    exact billions_ok (h.marsOptimistic f.marsOptimistic.value (by simp [MarsFigures.values]))

/-- The known scenario of optimistic figures. -/
def optimisticFigures (earth : Option (EarthAnchor Float)) (mars : Option Float) :
    CalibrationPoint Float :=
  ⟨"snapshot-optimistic", Scenario.optimistic.parameters, earth, mars⟩

section Solver

variable [LeastSquares Float]

/-- A fit to one point with the parameters of the optimistic scenario. -/
theorem fitCalibration_optimistic_failsIff
    (hsolves : LeastSquares.Answers (HasLog Scenario.optimistic.parameters))
    {p : CalibrationPoint Float} (hp : p.parameters = Scenario.optimistic.parameters)
    (a : Anchors Float) (version : String) :
    FailsIff (Valuation.ZeroDivisor a p) (fitCalibration [p] a version) := by
  have hfit : FailsIff _ (fitCalibration [p] a version) :=
    fitCalibration_failsIff hsolves (List.forall_mem_singleton.mpr (hp ▸ optimistic_rated))
      (List.forall_mem_singleton.mpr fun x hx => hp ▸ hx) a version
  exact hfit.congr (by simp)

theorem ofAnchors_failsIff
    (hsolves : LeastSquares.Answers (HasLog Scenario.optimistic.parameters)) (a : Anchors Float) :
    FailsIff (IsZero a.earth.revenue ∨ IsZero a.earth.costs) (Model.ofAnchors a) := by
  have hfit : FailsIff _ (defaultCalibration a) :=
    fitCalibration_optimistic_failsIff hsolves rfl a defaultVersion
  refine (hfit.map fun c => (⟨a, c⟩ : Model Float)).congr ?_
  simp [Valuation.ZeroDivisor, optimisticPoint]

/-- The model of anchors that is calibrated to optimistic figures, if there are any. -/
def refitted (a : Anchors Float) (earth : Option (EarthAnchor Float)) (mars : Option Float) :
    Except Fault (Model Float) :=
  if earth.isNone && mars.isNone then Model.ofAnchors a
  else (fitCalibration [optimisticFigures earth mars] a "snapshot").map fun c => ⟨a, c⟩

theorem model_eq_refitted {a : Anchors Float} {earth : Option (EarthAnchor Float)}
    {mars : Option Float} {fitMars : Bool} (ha : f.anchors = .ok a)
    (hearth : f.earthOptimistic.anchor = .ok earth)
    (hmars : (if fitMars then billions f.marsOptimistic.value else pure none) = .ok mars) :
    f.model true fitMars = refitted a earth mars := by
  unfold model
  simp only [ha, hearth]
  cases fitMars with
  | false =>
    cases hmars
    rfl
  | true =>
    rw [if_pos rfl] at hmars
    simp only [hmars]
    rfl

theorem refitted_failsIff
    (hsolves : LeastSquares.Answers (HasLog Scenario.optimistic.parameters)) (a : Anchors Float) (earth : Option (EarthAnchor Float))
    (mars : Option Float) :
    FailsIff (((earth.isSome || !mars.isSome) = true ∧
        (IsZero a.earth.revenue ∨ IsZero a.earth.costs)) ∨
      (mars.isSome = true ∧ IsZero a.marsValue)) (refitted a earth mars) := by
  unfold refitted
  by_cases hnone : (earth.isNone && mars.isNone) = true
  · rw [if_pos hnone]
    obtain ⟨rfl, rfl⟩ : earth = none ∧ mars = none := by simpa using hnone
    exact (ofAnchors_failsIff hsolves a).congr (by simp)
  · have hfit : FailsIff _ (fitCalibration [optimisticFigures earth mars] a "snapshot") :=
      fitCalibration_optimistic_failsIff hsolves rfl a "snapshot"
    have hunit : bootstrapFactor (Scenario.optimistic.parameters : Parameters Float).mars = 1.0 :=
      rfl
    have hsome : (earth.isSome || !mars.isSome) = earth.isSome := by
      revert hnone
      cases earth <;> cases mars <;> simp
    rw [if_neg hnone, hsome]
    refine (hfit.map _).congr ?_
    simp [Valuation.ZeroDivisor, optimisticFigures, hunit]

/-- **A model is made exactly if no base figure that is divided by is a zero.** -/
theorem model_failsIff
    (hsolves : LeastSquares.Answers (HasLog Scenario.optimistic.parameters)) (h : f.FitsFloat)
    (refit fitMars : Bool) :
    FailsIff (f.ZeroDivisor refit fitMars) (f.model refit fitMars) := by
  obtain ⟨a, ha, hearth, hmars⟩ := anchors_ok h
  cases refit with
  | false =>
    unfold model
    simp only [ha]
    refine ((ofAnchors_failsIff hsolves a).congr hearth).congr ?_
    simp [ZeroDivisor, meetsEarth, meetsMars]
  | true =>
    obtain ⟨earth, hanchor, hcomplete, -⟩ := EarthFigures.anchor_ok h.earthOptimistic
    obtain ⟨mars, htarget, hmeets⟩ := marsTarget_ok h fitMars
    have hpoint : f.meetsEarth true fitMars = (earth.isSome || !mars.isSome) := by
      rw [meetsEarth, ← hcomplete, ← hmeets]
      rfl
    rw [model_eq_refitted ha hanchor htarget, ZeroDivisor, hpoint, ← hmeets, ← hearth, ← hmars]
    exact refitted_failsIff hsolves a earth mars

end Solver

end Figures

end KeyFigures

theorem Valuation.Model.ofWorkbook_eq [LeastSquares Float] {e : Evaluator} {refit fitMars : Bool} {f : KeyFigures}
    (hf : e.freshFigures = .ok f) : Model.ofWorkbook e refit fitMars = f.model refit fitMars := by
  rw [Model.ofWorkbook, hf]
  rfl

/-- **A workbook has a model exactly if no base figure that is divided by is a zero**; otherwise the
    division by it is reported. Of the solver this takes that it answers samples whose factors are
    those of the optimistic scenario, which are a few finite numbers. -/
theorem Valuation.Model.ofWorkbook_ok_iff [LeastSquares Float]
    (hsolves : LeastSquares.Answers (HasLog Scenario.optimistic.parameters)) (e : Evaluator) (refit fitMars : Bool) {f : KeyFigures}
    (hf : e.freshFigures = .ok f) (hfit : f.FitsFloat) :
    ((∃ m, Model.ofWorkbook e refit fitMars = .ok m) ↔ ¬ f.ZeroDivisor refit fitMars) ∧
      (f.ZeroDivisor refit fitMars → Model.ofWorkbook e refit fitMars = .error .divisionByZero) := by
  have hfails := KeyFigures.model_failsIff hsolves hfit refit fitMars
  rw [Model.ofWorkbook_eq hf]
  exact ⟨hfails.ok_iff, hfails.error⟩

/-! ## 4. Two workbooks -/

/-- Base figures of the Earth and Mars, with a cell for the revenue. -/
def ledger (revenue : Cell) : Evaluator where
  workbook :=
    { snapshot := ⟨[("Earth", ⟨"Earth", [("O119", revenue),
        ("O144", ⟨"O144", .number (.whole 10320000000), none⟩),
        ("O152", ⟨"O152", .number (.whole 13330000000), none⟩),
        ("O153", ⟨"O153", .number (.whole 124480000000), none⟩)]⟩),
        ("Mars", ⟨"Mars", [("K54", ⟨"K54", .number (.whole 745000000), none⟩)]⟩)]⟩
      library := .standard
      recompute := false }
  figures := {}

/-- Figures that are stored are the headline figures. -/
theorem freshFigures_of_stored {e : Evaluator}
    (h : ∀ key ∈ e.figures.keys, e.workbook.formula? key = none) :
    e.freshFigures = .ok (e.figures.figures e.workbook.stored) :=
  (Workbook.gives_keyFigures (fun key hkey =>
    Workbook.Worth.of_formula?_eq_none (h key hkey)) [] Workbook.sound_nil).1

/-- A workbook with a number for its revenue. -/
def earning : Evaluator :=
  ledger ⟨"O119", .number (.whole 148130000000), none⟩

theorem earning_freshFigures :
    earning.freshFigures = .ok (earning.figures.figures earning.workbook.stored) :=
  freshFigures_of_stored (by decide +kernel)

theorem ofWorkbook_ok_earning : ∃ f, earning.freshFigures = .ok f ∧ f.FitsFloat ∧
    ∃ m, Model.ofWorkbook earning true true = .ok m := by
  have hfit : (earning.figures.figures earning.workbook.stored).FitsFloat := by
    decide +kernel
  have hzero : ¬ (earning.figures.figures earning.workbook.stored).ZeroDivisor true true := by
    decide +kernel
  exact ⟨_, earning_freshFigures, hfit,
    (Model.ofWorkbook_ok_iff (LeastSquares.closedForm_answers _) earning true true
      earning_freshFigures hfit).1.mpr hzero⟩

/-- A workbook whose revenue is a sum over blank cells. -/
def idle : Evaluator :=
  ledger ⟨"O119", .blank, some "=SUM(B1:B3)"⟩

/-- What its keys are worth: the sum is a zero, and the other figures are stored. -/
def idleValue (key : String) : Value :=
  if key = "Earth!O119" then .whole 0 else idle.workbook.stored key

theorem idle_worth : ∀ key ∈ idle.figures.keys, idle.workbook.Worth key (idleValue key) := by
  have hreads : ∀ read ∈ idle.workbook.reads "Earth!O119", idle.workbook.formula? read = none := by
    decide +kernel
  have hsum : (idle.workbook.keyValue idle.workbook.stored "Earth!O119").toOption.bind
      Value.number? = some (.whole 0) := by
    decide +kernel
  have hstored : ∀ key ∈ idle.figures.keys, key ≠ "Earth!O119" →
      idle.workbook.formula? key = none := by
    decide +kernel
  intro key hkey
  unfold idleValue
  by_cases hrevenue : key = "Earth!O119"
  · obtain ⟨v, hv, hnumber⟩ := Option.bind_eq_some_iff.mp hsum
    obtain rfl : v = .whole 0 := Value.eq_of_number? hnumber
    rw [if_pos hrevenue, hrevenue]
    exact .of_keyValue idle.workbook.stored
      (fun read hread => .of_formula?_eq_none (hreads read hread)) (eq_ok_of_toOption hv)
  · rw [if_neg hrevenue]
    exact .of_formula?_eq_none (hstored key hkey hrevenue)

/-- **The division by its revenue is reported in place of a model.** -/
theorem ofWorkbook_idle : ∃ f, idle.freshFigures = .ok f ∧ f.FitsFloat ∧
    Model.ofWorkbook idle true false = .error .divisionByZero := by
  have hfigures : idle.freshFigures = .ok (idle.figures.figures idleValue) :=
    (Workbook.gives_keyFigures idle_worth [] Workbook.sound_nil).1
  have hfit : (idle.figures.figures idleValue).FitsFloat := by
    decide +kernel
  have hzero : (idle.figures.figures idleValue).ZeroDivisor true false := by
    decide +kernel
  refine ⟨_, hfigures, hfit, ?_⟩
  rw [Model.ofWorkbook_eq hfigures]
  exact (KeyFigures.model_failsIff (LeastSquares.closedForm_answers _) hfit true false).error hzero

end Appraisal
