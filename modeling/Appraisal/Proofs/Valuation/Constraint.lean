import Appraisal.Proofs.Valuation.Baseline
import Appraisal.Proofs.Valuation.Fitted
import Appraisal.Proofs.Valuation.Totality

/-!
# What a point says to a fit

A point may carry figures of the Earth, a value of Mars, both or none. A fit reads the parameters of
a point only for the figures that it carries: those of the Earth and of money for the exponents of
revenue, costs and value, and those of Mars for the exponent of Mars. And a factor of one says
nothing about its exponent, so that a point at the baseline is as silent as one without figures.

* `CalibrationPoint.earthPart`, `CalibrationPoint.marsPart` — a point cut down to what it carries;
* `Fitted.same_earth`, `Fitted.same_mars` — the exponents depend on the parts alone, and so does
  (`earthSolved_congr`, `marsSolved_congr`) whether the solver finds them;
* `Silent`, `Silent.fitCalibration_insert` — a point that changes nothing but the list of names;
* `fitCalibration_constrained` — **a point constrains only what it carries**, whatever the solver.
-/

namespace Appraisal

/-! ## 1. Parts of a point -/

section Parts

variable {α : Type} [OfScientific α]

/-- What a point with figures of the Earth says about it: the point without its name, its value of
    Mars and its parameters of Mars. -/
def CalibrationPoint.earthPart (p : CalibrationPoint α) : Option (CalibrationPoint α) :=
  p.earth.map fun target => ⟨"", { p.parameters with mars := .baseline }, some target, none⟩

/-- What a point with a value of Mars says about it: the point without its name, its figures of the
    Earth and its other parameters. -/
def CalibrationPoint.marsPart (p : CalibrationPoint α) : Option (CalibrationPoint α) :=
  p.marsValue.map fun target => ⟨"", { Parameters.baseline with mars := p.parameters.mars }, none,
    some target⟩

variable {p p' : CalibrationPoint α}

/-- The part of the Earth stays where anything of Mars is changed, added or removed. -/
theorem CalibrationPoint.earthPart_congr (hearth : p'.parameters.earth = p.parameters.earth)
    (hmoney : p'.parameters.financial = p.parameters.financial) (hfigures : p'.earth = p.earth) :
    p'.earthPart = p.earthPart := by
  simp only [earthPart, hearth, hmoney, hfigures]

/-- The part of Mars stays where anything of the Earth or of money is changed, added or removed. -/
theorem CalibrationPoint.marsPart_congr (hmars : p'.parameters.mars = p.parameters.mars)
    (hvalue : p'.marsValue = p.marsValue) : p'.marsPart = p.marsPart := by
  simp only [marsPart, hmars, hvalue]

end Parts

namespace Valuation

section Lists

variable {β γ : Type} {told : β → Option γ} {part : β → Option β} {l l' : List β}

/-- What is told by the parts of members alone is the same for lists with the same parts. -/
theorem filterMap_told (htold : ∀ x, told x = (part x).bind told)
    (h : l'.filterMap part = l.filterMap part) : l'.filterMap told = l.filterMap told := by
  have hparts : ∀ l : List β, l.filterMap told = (l.filterMap part).filterMap told := fun l => by
    rw [List.filterMap_filterMap]
    exact List.filterMap_congr fun x _ => htold x
  rw [hparts, h, ← hparts]

/-- Members changed one by one, each with its part kept, leave the parts of the list. -/
theorem filterMap_part_congr (h : List.Forall₂ (fun x x' => part x' = part x) l l') :
    l'.filterMap part = l.filterMap part := by
  induction h with
  | nil => rfl
  | cons hpart _ ih => rw [List.filterMap_cons, List.filterMap_cons, hpart, ih]

/-- The part of a member is also that of a member of any list with the same parts. -/
theorem exists_same_part (h : l'.filterMap part = l.filterMap part) {x y : β} (hx : x ∈ l')
    (hy : part x = some y) : ∃ z ∈ l, part z = some y := by
  have hmem : y ∈ l'.filterMap part := List.mem_filterMap.mpr ⟨x, hx, hy⟩
  rwa [h, List.mem_filterMap] at hmem

/-! A computation that takes from a member only its part, and is silent where it has none. -/

section Computed

variable {δ ε : Type} {f : β → Except ε δ} {silent : δ}

/-- What is told by the part of a member alone, if anything. -/
theorem bind_part {pick : δ → Option γ} (hnone : ∀ {x}, part x = none → f x = .ok silent)
    (hsome : ∀ {x y}, part x = some y → f x = f y) (hsilent : pick silent = none) (x : β) :
    (f x).toOption.bind pick = (part x).bind fun y => (f y).toOption.bind pick := by
  cases hpart : part x with
  | none =>
    rw [hnone hpart]
    exact hsilent
  | some y =>
    rw [hsome hpart]
    rfl

/-- Where it succeeds on a list, it succeeds on every list with the same parts. -/
theorem exists_ok_of_same_part (hnone : ∀ {x}, part x = none → f x = .ok silent)
    (hsome : ∀ {x y}, part x = some y → f x = f y) (h : l'.filterMap part = l.filterMap part)
    (hl : ∀ x ∈ l, ∃ s, f x = .ok s) : ∀ x ∈ l', ∃ s, f x = .ok s := by
  intro x hx
  cases hpart : part x with
  | none => exact ⟨silent, hnone hpart⟩
  | some y =>
    obtain ⟨z, hz, hsame⟩ := exists_same_part h hx hpart
    rw [hsome hpart, ← hsome hsame]
    exact hl z hz

end Computed

theorem filterMap_insert {x : β} (h : told x = none) (before after : List β) :
    (before ++ x :: after).filterMap told = (before ++ after).filterMap told := by
  rw [List.filterMap_append, List.filterMap_cons_none h, ← List.filterMap_append]

theorem forall_mem_insert {P : β → Prop} {x : β} {before after : List β} (hx : P x)
    (h : ∀ y ∈ before ++ after, P y) : ∀ y ∈ before ++ x :: after, P y := by
  intro y hy
  rcases List.mem_append.mp hy with hy | hy
  · exact h y (List.mem_append_left after hy)
  · rcases List.mem_cons.mp hy with rfl | hy
    · exact hx
    · exact h y (List.mem_append_right before hy)

end Lists

/-- The solver finds one exponent for one list of samples. -/
theorem fitExponent_unique {α : Type} [OfScientific α] [LeastSquares α]
    {samples samples' : List (Sample α)} (hsame : samples' = samples) {x x' : α}
    (hx : fitExponent samples = .ok x) (hx' : fitExponent samples' = .ok x') : x' = x := by
  rw [hsame, hx] at hx'
  exact (Except.ok.inj hx').symm

variable {α : Type} [OfScientific α] [Add α] [Mul α] [Div α] [Neg α]
  [LT α] [DecidableLT α] [LE α] [DecidableLE α] [Transcendental α]

/-! ## 2. What the parts say -/

section Mars

variable (a : Anchors α) {p q : CalibrationPoint α}

theorem marsSample_of_none (h : p.marsPart = none) : marsSample a p = .ok none := by
  rw [marsSample, Option.map_eq_none_iff.mp h]

/-- The sample of Mars is that of its part. -/
theorem marsSample_of_part (h : p.marsPart = some q) : marsSample a p = marsSample a q := by
  obtain ⟨target, htarget, rfl⟩ := Option.map_eq_some_iff.mp h
  rw [marsSample, htarget]
  rfl

theorem toldMars_eq (p : CalibrationPoint α) : toldMars a p = p.marsPart.bind (toldMars a) :=
  bind_part (marsSample_of_none a) (marsSample_of_part a) rfl p

section Same

variable {a : Anchors α} {points points' : List (CalibrationPoint α)}
  (h : points'.filterMap (·.marsPart) = points.filterMap (·.marsPart))
include h

theorem marsSample_ok_of_same (hp : ∀ p ∈ points, ∃ s, marsSample a p = .ok s) :
    ∀ p ∈ points', ∃ s, marsSample a p = .ok s :=
  exists_ok_of_same_part (marsSample_of_none a) (marsSample_of_part a) h hp

theorem filterMap_toldMars_congr :
    points'.filterMap (toldMars a) = points.filterMap (toldMars a) :=
  filterMap_told (toldMars_eq a) h

theorem marsSolved_congr [LeastSquares α] : MarsSolved a points' ↔ MarsSolved a points := by
  rw [MarsSolved, MarsSolved, filterMap_toldMars_congr h]

end Same

end Mars

variable [Sub α]

section Earth

variable (a : Anchors α) (c : Calibration α) {p q : CalibrationPoint α}

theorem earthSamples_of_none (h : p.earthPart = none) : earthSamples a p = .ok (none, none) := by
  rw [earthSamples, Option.map_eq_none_iff.mp h]

theorem valueSample_of_none (h : p.earthPart = none) : valueSample a c p = .ok none := by
  rw [valueSample, Option.map_eq_none_iff.mp h]

/-- The samples of the Earth are those of its part. -/
theorem earthSamples_of_part (h : p.earthPart = some q) :
    earthSamples a p = earthSamples a q := by
  obtain ⟨target, htarget, rfl⟩ := Option.map_eq_some_iff.mp h
  rw [earthSamples, htarget]
  rfl

theorem valueSample_of_part (h : p.earthPart = some q) : valueSample a c p = valueSample a c q := by
  obtain ⟨target, htarget, rfl⟩ := Option.map_eq_some_iff.mp h
  rw [valueSample, htarget]
  rfl

theorem toldRevenue_eq (p : CalibrationPoint α) :
    toldRevenue a p = p.earthPart.bind (toldRevenue a) :=
  bind_part (earthSamples_of_none a) (earthSamples_of_part a) rfl p

theorem toldCosts_eq (p : CalibrationPoint α) :
    toldCosts a p = p.earthPart.bind (toldCosts a) :=
  bind_part (earthSamples_of_none a) (earthSamples_of_part a) rfl p

theorem toldValue_eq (p : CalibrationPoint α) :
    toldValue a c p = p.earthPart.bind (toldValue a c) :=
  bind_part (valueSample_of_none a c) (valueSample_of_part a c) rfl p

section Same

variable {a : Anchors α} {points points' : List (CalibrationPoint α)}
  (h : points'.filterMap (·.earthPart) = points.filterMap (·.earthPart))
include h

theorem earthSamples_ok_of_same (hp : ∀ p ∈ points, ∃ s, earthSamples a p = .ok s) :
    ∀ p ∈ points', ∃ s, earthSamples a p = .ok s :=
  exists_ok_of_same_part (earthSamples_of_none a) (earthSamples_of_part a) h hp

theorem filterMap_toldRevenue_congr :
    points'.filterMap (toldRevenue a) = points.filterMap (toldRevenue a) :=
  filterMap_told (toldRevenue_eq a) h

theorem filterMap_toldCosts_congr :
    points'.filterMap (toldCosts a) = points.filterMap (toldCosts a) :=
  filterMap_told (toldCosts_eq a) h

theorem filterMap_toldValue_congr (c : Calibration α) :
    points'.filterMap (toldValue a c) = points.filterMap (toldValue a c) :=
  filterMap_told (toldValue_eq a c) h

theorem earthSolved_congr [LeastSquares α] {version : String} :
    EarthSolved a version points' ↔ EarthSolved a version points := by
  simp only [EarthSolved, filterMap_toldRevenue_congr h, filterMap_toldCosts_congr h,
    filterMap_toldValue_congr h]

end Same

end Earth

/-! ## 3. Exponents of the same parts -/

section Agreement

variable [LeastSquares α] {a : Anchors α} {version : String}
  {points points' : List (CalibrationPoint α)} {c c' : Calibration α}

/-- **The exponents of the Earth depend on its parts alone.** -/
theorem Fitted.same_earth (hc : Fitted a version points c) (hc' : Fitted a version points' c')
    (h : points'.filterMap (·.earthPart) = points.filterMap (·.earthPart)) :
    c'.revenueExponent = c.revenueExponent ∧ c'.costExponent = c.costExponent ∧
      c'.valueExponent = c.valueExponent := by
  have hrevenue := fitExponent_unique (filterMap_toldRevenue_congr h) hc.revenue hc'.revenue
  have hcosts := fitExponent_unique (filterMap_toldCosts_congr h) hc.costs hc'.costs
  have hvalue := hc'.value
  rw [hrevenue, hcosts] at hvalue
  exact ⟨hrevenue, hcosts, fitExponent_unique (filterMap_toldValue_congr h _) hc.value hvalue⟩

/-- **The exponent of Mars depends on the parts of Mars alone.** -/
theorem Fitted.same_mars (hc : Fitted a version points c) (hc' : Fitted a version points' c')
    (h : points'.filterMap (·.marsPart) = points.filterMap (·.marsPart)) :
    c'.marsExponent = c.marsExponent :=
  fitExponent_unique (filterMap_toldMars_congr h) hc.mars hc'.mars

end Agreement

/-! ## 4. Points that say nothing -/

/-- The point says nothing about any exponent. -/
structure Silent (a : Anchors α) (q : CalibrationPoint α) : Prop where
  earth : earthSamples a q = .ok (none, none)
  mars : marsSample a q = .ok none
  value : ∀ c, valueSample a c q = .ok none

section Silence

variable {a : Anchors α} {version : String} {q : CalibrationPoint α}
  {before after : List (CalibrationPoint α)}

/-- A point without figures says nothing. -/
theorem silent_of_none (hearth : q.earth = none) (hmars : q.marsValue = none) : Silent a q :=
  have hearthPart : q.earthPart = none := Option.map_eq_none_iff.mpr hearth
  { earth := earthSamples_of_none a hearthPart
    mars := marsSample_of_none a (Option.map_eq_none_iff.mpr hmars)
    value := fun c => valueSample_of_none a c hearthPart }

variable [LeastSquares α] {c : Calibration α}

theorem Silent.fitted_insert (h : Silent a q) (hc : Fitted a version (before ++ after) c) :
    Fitted a version (before ++ q :: after)
      { c with points := (before ++ q :: after).map (·.name) } where
  earth_ok := forall_mem_insert ⟨_, h.earth⟩ hc.earth_ok
  mars_ok := forall_mem_insert ⟨_, h.mars⟩ hc.mars_ok
  value_ok := forall_mem_insert ⟨_, h.value _⟩ hc.value_ok
  revenue := by
    have hq : toldRevenue a q = none := by rw [toldRevenue, h.earth]; rfl
    rw [filterMap_insert hq]
    exact hc.revenue
  costs := by
    have hq : toldCosts a q = none := by rw [toldCosts, h.earth]; rfl
    rw [filterMap_insert hq]
    exact hc.costs
  value := by
    have hq : ∀ d, toldValue a d q = none := fun d => by rw [toldValue, h.value]; rfl
    rw [filterMap_insert (hq _)]
    exact hc.value
  mars := by
    have hq : toldMars a q = none := by rw [toldMars, h.mars]; rfl
    rw [filterMap_insert hq]
    exact hc.mars
  version_eq := hc.version_eq
  points_eq := rfl

/-- **A silent point changes nothing but the list of names**, wherever it stands. -/
theorem Silent.fitCalibration_insert (h : Silent a q)
    (hc : fitCalibration (before ++ after) a version = .ok c) :
    fitCalibration (before ++ q :: after) a version =
      .ok { c with points := (before ++ q :: after).map (·.name) } :=
  (h.fitted_insert (fitted_of_ok hc)).fitCalibration_eq

end Silence

/-! ## 5. Fits over floats -/

section Float

variable {a : Anchors Float} {p q : CalibrationPoint Float}

theorem sample?_one (target : Float) : sample? 1.0 target = none := by
  have hlog : Transcendental.log (1.0 : Float) = 0.0 := by decide
  have hnear : ¬ ((1e-9 : Float) < 0.0 ∨ (0.0 : Float) < -1e-9) := by decide
  rw [sample?]
  simp only [hlog, if_neg hnear, ite_self]

/-- A point at the baseline says nothing, whatever its figures are. -/
theorem silent_of_baseline (hrevenue : ¬ IsZero a.earth.revenue) (hcosts : ¬ IsZero a.earth.costs)
    (hmars : ¬ IsZero a.marsValue) (hq : q.parameters = .baseline) : Silent a q where
  earth := by
    unfold earthSamples
    cases q.earth with
    | none => rfl
    | some target =>
      simp only [hq, earthBreakdown_baseline, divide_ok_of_ne _ hrevenue,
        divide_ok_of_ne _ hcosts, ok_bind]
      show Except.ok (sample? 1.0 _, sample? 1.0 _) = _
      rw [sample?_one, sample?_one]
  mars := by
    have hfactor : marsFactor (Parameters.baseline : Parameters Float).mars = .ok 1.0 :=
      marsFactor_baseline
    have hwhole : bootstrapFactor (Parameters.baseline : Parameters Float).mars = 1.0 := rfl
    unfold marsSample
    cases q.marsValue with
    | none => rfl
    | some target =>
      simp only [hq, hfactor, hwhole, Number.float_mul_one, divide_ok_of_ne _ hmars,
        ok_bind, sample?_one]
      rfl
  value c := by
    unfold valueSample
    cases q.earth with
    | none => rfl
    | some target =>
      have hfactor : ∀ r s, (breakdownOf a.earth c .baseline r s).financialFactor = 1.0 :=
        fun _ _ => financialFactor_baseline
      simp only [hq, earthBreakdown_baseline, ok_bind, hfactor]
      split
      · next hpos =>
        simp only [divide_ok_of_ne _ (not_isZero_of_pos hpos), ok_bind, sample?_one]
        rfl
      · rfl

/-- There is a sample of Mars unless growth leaves the range or the divisor is zero. -/
theorem exists_marsSample_iff : (∃ s, marsSample a p = .ok s) ↔ (p.marsValue.isSome = true →
    MarsInRange p.parameters.mars ∧ ¬ IsZero (a.marsValue * bootstrapFactor p.parameters.mars)) := by
  unfold marsSample
  cases p.marsValue with
  | none => exact ⟨fun _ => nofun, fun _ => ⟨none, rfl⟩⟩
  | some target =>
    constructor
    · rintro ⟨s, hs⟩ -
      obtain ⟨factor, hfactor, hs⟩ := exists_of_bind_ok hs
      obtain ⟨goal, hgoal, -⟩ := exists_of_bind_ok hs
      exact ⟨(marsFactor_returnsIff _).ok_iff.mp ⟨factor, hfactor⟩,
        (divide_failsIff _ _).ok_iff.mp ⟨goal, hgoal⟩⟩
    · intro h
      obtain ⟨hrange, hzero⟩ := h rfl
      obtain ⟨factor, hfactor⟩ := (marsFactor_returnsIff _).ok_iff.mpr hrange
      simp only [hfactor, divide_ok_of_ne _ hzero, ok_bind]
      exact ⟨_, rfl⟩

theorem exists_earthBreakdown_iff (p : Parameters Float) (a : Anchors Float)
    (c : Calibration Float) : (∃ b, earthBreakdown p a c = .ok b) ↔ EarthInRange p.earth := by
  rw [← (earth_returnsIff ⟨a, c⟩ p).ok_iff]
  constructor
  · rintro ⟨b, hb⟩
    refine ⟨b.value, ?_⟩
    rw [Model.earth, Model.breakdown, hb]
    rfl
  · rintro ⟨x, hx⟩
    obtain ⟨b, hb, -⟩ := exists_of_map_ok hx
    exact ⟨b, hb⟩

/-- There are samples of the Earth unless growth leaves the range. -/
theorem exists_earthSamples_iff (hrevenue : ¬ IsZero a.earth.revenue)
    (hcosts : ¬ IsZero a.earth.costs) : (∃ s, earthSamples a p = .ok s) ↔
      (p.earth.isSome = true → EarthInRange p.parameters.earth) := by
  unfold earthSamples
  cases p.earth with
  | none => exact ⟨fun _ => nofun, fun _ => ⟨_, rfl⟩⟩
  | some target =>
    constructor
    · rintro ⟨s, hs⟩ -
      obtain ⟨b, hb, -⟩ := exists_of_bind_ok hs
      exact (exists_earthBreakdown_iff _ _ _).mp ⟨b, hb⟩
    · intro h
      obtain ⟨b, hb⟩ := (exists_earthBreakdown_iff p.parameters a .identity).mpr (h rfl)
      simp only [hb, divide_ok_of_ne _ hrevenue, divide_ok_of_ne _ hcosts, ok_bind]
      exact ⟨_, rfl⟩

/-- **A point constrains only what it carries.** Changes to Mars leave the exponents of the Earth,
    changes to the Earth or to money leave that of Mars, and a point at the baseline or without
    figures leaves all of them. The changed points can be fitted unless what was changed makes growth
    leave the range, takes so much off the value of Mars that nothing is left to divide by, or is
    refused by the solver. -/
theorem fitCalibration_constrained [LeastSquares Float] (hrevenue : ¬ IsZero a.earth.revenue)
    (hcosts : ¬ IsZero a.earth.costs) (hmars : ¬ IsZero a.marsValue)
    {points : List (CalibrationPoint Float)} {version : String} {c : Calibration Float}
    (h : fitCalibration points a version = .ok c) :
    (∀ points' : List (CalibrationPoint Float),
      points'.filterMap (·.earthPart) = points.filterMap (·.earthPart) →
        ((∃ c', fitCalibration points' a version = .ok c') ↔
          (∀ p ∈ points', p.marsValue.isSome = true → MarsInRange p.parameters.mars ∧
            ¬ IsZero (a.marsValue * bootstrapFactor p.parameters.mars)) ∧ MarsSolved a points') ∧
        ∀ c', fitCalibration points' a version = .ok c' →
          c'.revenueExponent = c.revenueExponent ∧ c'.costExponent = c.costExponent ∧
            c'.valueExponent = c.valueExponent) ∧
    (∀ points' : List (CalibrationPoint Float),
      points'.filterMap (·.marsPart) = points.filterMap (·.marsPart) →
        ((∃ c', fitCalibration points' a version = .ok c') ↔
          (∀ p ∈ points', p.earth.isSome = true → EarthInRange p.parameters.earth) ∧
            EarthSolved a version points') ∧
        ∀ c', fitCalibration points' a version = .ok c' → c'.marsExponent = c.marsExponent) ∧
    ∀ before q after, points = before ++ after →
      q.parameters = .baseline ∨ (q.earth = none ∧ q.marsValue = none) →
        fitCalibration (before ++ q :: after) a version =
          .ok { c with points := (before ++ q :: after).map (·.name) } := by
  have hc := fitted_of_ok h
  have hends : ∀ points', (∃ c', fitCalibration points' a version = .ok c') ↔ _ := fun points' =>
    exists_fit_iff fun _ => not_isZero_of_pos
  refine ⟨fun points' hsame => ⟨?_, fun c' hc' => hc.same_earth (fitted_of_ok hc') hsame⟩,
    fun points' hsame => ⟨?_, fun c' hc' => hc.same_mars (fitted_of_ok hc') hsame⟩, ?_⟩
  · have hearth := earthSamples_ok_of_same hsame hc.earth_ok
    have hsolved := (earthSolved_congr hsame).mpr hc.earthSolved
    rw [hends, and_iff_right ⟨hearth, hsolved⟩]
    exact and_congr_left' (forall₂_congr fun p _ => exists_marsSample_iff)
  · have hmars := marsSample_ok_of_same hsame hc.mars_ok
    have hsolved := (marsSolved_congr hsame).mpr hc.marsSolved
    rw [hends, and_iff_left ⟨hmars, hsolved⟩]
    exact and_congr_left' (forall₂_congr fun p _ => exists_earthSamples_iff hrevenue hcosts)
  · rintro before q after rfl hq
    have hsilent : Silent a q := hq.elim (silent_of_baseline hrevenue hcosts hmars)
      fun hnone => silent_of_none hnone.1 hnone.2
    exact hsilent.fitCalibration_insert h

/-- The optimistic scenario with an early colony and a value of Mars. -/
def settled : CalibrationPoint Float :=
  { optimisticPoint .builtin with
    parameters := { Scenario.optimistic.parameters with
      mars := { MarsParameters.optimistic with firstColonyYear := 2020 } }
    marsValue := some 3.0 }

/-- The optimistic scenario with no figures and other parameters of the Earth and of money. -/
def unreported : CalibrationPoint Float :=
  { optimisticPoint .builtin with
    parameters := { Scenario.optimistic.parameters with earth := .bear, financial := .bear }
    earth := none }

/-- A point at the baseline with figures of its own. -/
def usual : CalibrationPoint Float :=
  ⟨"usual", .baseline, some ⟨100.0, 20.0, 5.0, 400.0⟩, some 2.0⟩

theorem exists_fit_optimistic (version : String) :
    ∃ c, fitCalibration [optimisticPoint .builtin] .builtin version = .ok c := by
  have hrated : ∀ p ∈ [optimisticPoint (.builtin : Anchors Float)], Rated p.parameters := by
    intro p hp
    rw [List.mem_singleton.mp hp]
    exact optimistic_rated
  refine (fitCalibration_failsIff (LeastSquares.closedForm_answers fun _ => True) hrated
    (fun _ _ _ _ => trivial) _ _).ok_iff.mpr ?_
  rintro ⟨p, hp, ⟨-, hzero | hzero⟩ | ⟨hmars, -⟩⟩
  · exact absurd hzero (by decide)
  · exact absurd hzero (by decide)
  · rw [List.mem_singleton.mp hp] at hmars
    cases hmars

/-- Mars has no bearing on the Earth, nor the Earth on Mars, and the usual says nothing. -/
theorem fitCalibration_constrained_settled : ∃ c c' c'',
    fitCalibration [optimisticPoint .builtin] .builtin "fitted" = .ok c ∧
    (fitCalibration [settled] .builtin "fitted" = .ok c' ∧
      c'.revenueExponent = c.revenueExponent ∧ c'.costExponent = c.costExponent ∧
      c'.valueExponent = c.valueExponent) ∧
    (fitCalibration [unreported] .builtin "fitted" = .ok c'' ∧
      c''.marsExponent = c.marsExponent) ∧
    fitCalibration [usual, optimisticPoint .builtin] .builtin "fitted" =
      .ok { c with points := ["usual", "optimistic"] } := by
  obtain ⟨c, hc⟩ := exists_fit_optimistic "fitted"
  obtain ⟨hearth, hmars, hsilent⟩ :=
    fitCalibration_constrained (by decide) (by decide) (by decide) hc
  obtain ⟨hends, hsame⟩ := hearth [settled] (filterMap_part_congr
    (.cons (CalibrationPoint.earthPart_congr rfl rfl rfl) .nil))
  obtain ⟨hends', hsame'⟩ := hmars [unreported] (filterMap_part_congr
    (.cons (CalibrationPoint.marsPart_congr rfl rfl) .nil))
  have hsolves := LeastSquares.closedForm_answers fun _ : Float => True
  have hrange : ∀ p ∈ [settled], p.marsValue.isSome = true → MarsInRange p.parameters.mars ∧
      ¬ IsZero (Anchors.builtin.marsValue * bootstrapFactor p.parameters.mars) := fun p hp _ => by
    rw [List.mem_singleton.mp hp]
    exact ⟨compounds_of_le_hundred (by decide) (by decide) (by decide), by decide⟩
  have hrange' : ∀ p ∈ [unreported], p.earth.isSome = true → EarthInRange p.parameters.earth :=
    fun p hp hfigures => by
      rw [List.mem_singleton.mp hp] at hfigures
      cases hfigures
  obtain ⟨c', hc'⟩ := hends.mpr ⟨hrange, marsSolved_of_answers hsolves⟩
  obtain ⟨c'', hc''⟩ := hends'.mpr ⟨hrange', earthSolved_of_answers hsolves⟩
  exact ⟨c, c', c'', hc, ⟨hc', hsame c' hc'⟩, ⟨hc'', hsame' c'' hc''⟩,
    hsilent [] usual _ rfl (Or.inl rfl)⟩

end Float

end Valuation

end Appraisal
