import Appraisal.Proofs.Number.Unit
import Appraisal.Proofs.Snapshot
import Appraisal.Proofs.Valuation.Fitted

/-!
# When a fit divides by zero

A fit divides the targets of its points by the anchors. It comes to an end exactly if none of these
divisors is zero: the values before discounting, by which it divides as well, are asked for their
sign first, and the quotients of the factors are guarded. Of the solver this takes that it answers
the samples of the points, whose factors are known from the parameters alone.

* `FailsIff` — a computation that fails exactly on a condition, by a division by zero;
  `FailsIff.bind`, `FailsIff.mapM`;
* `Rated` — parameters whose factors can be computed; `optimistic_rated`;
* `HasLog` — the logarithms of the factors, which a solver has to answer;
* `ZeroDivisor` — a point whose targets are divided by zero;
* `fitCalibration_failsIff` — **a fit fails exactly if one of its points is divided by zero**.
-/

namespace Appraisal.Valuation

/-! ## 1. Computations that fail on a condition -/

section FailsIff

variable {α β : Type} {p q : Prop}

/-- The computation divides by zero if the condition holds, and has a result if it does not. -/
def FailsIff (p : Prop) (x : Except Fault α) : Prop :=
  (p ∧ x = .error .divisionByZero) ∨ (¬ p ∧ ∃ a, x = .ok a)

theorem FailsIff.ok (a : α) : FailsIff False (.ok a : Except Fault α) :=
  Or.inr ⟨id, a, rfl⟩

theorem FailsIff.congr {x : Except Fault α} (h : FailsIff p x) (hpq : p ↔ q) : FailsIff q x :=
  propext hpq ▸ h

theorem FailsIff.bind_of {x : Except Fault α} {f : α → Except Fault β} (hx : FailsIff p x)
    (hf : ∀ a, x = .ok a → FailsIff q (f a)) : FailsIff (p ∨ q) (x >>= f) := by
  rcases hx with ⟨hp, rfl⟩ | ⟨hp, a, rfl⟩
  · exact Or.inl ⟨Or.inl hp, rfl⟩
  · exact (hf a rfl).congr ⟨Or.inr, fun h => h.resolve_left hp⟩

theorem FailsIff.bind {x : Except Fault α} {f : α → Except Fault β} (hx : FailsIff p x)
    (hf : ∀ a, FailsIff q (f a)) : FailsIff (p ∨ q) (x >>= f) :=
  hx.bind_of fun a _ => hf a

theorem FailsIff.map {x : Except Fault α} (hx : FailsIff p x) (f : α → β) :
    FailsIff p (x.map f) := by
  rcases hx with ⟨hp, rfl⟩ | ⟨hp, a, rfl⟩
  · exact Or.inl ⟨hp, rfl⟩
  · exact Or.inr ⟨hp, f a, rfl⟩

theorem FailsIff.mapM {p : α → Prop} {f : α → Except Fault β} {l : List α}
    (h : ∀ a ∈ l, FailsIff (p a) (f a)) : FailsIff (∃ a ∈ l, p a) (l.mapM f) := by
  induction l with
  | nil =>
    rw [List.mapM_nil]
    exact (FailsIff.ok []).congr ⟨False.elim, fun ⟨a, ha, _⟩ => List.not_mem_nil ha⟩
  | cons a l ih =>
    obtain ⟨ha, hl⟩ := List.forall_mem_cons.mp h
    rw [List.mapM_cons]
    refine (ha.bind fun b => (ih hl).bind fun bs => FailsIff.ok (b :: bs)).congr ?_
    simp

theorem FailsIff.ok_iff {x : Except Fault α} (h : FailsIff p x) : (∃ a, x = .ok a) ↔ ¬ p := by
  rcases h with ⟨hp, rfl⟩ | ⟨hp, a, rfl⟩
  · exact ⟨fun ⟨_, ha⟩ => (nomatch ha), fun hnot => absurd hp hnot⟩
  · exact ⟨fun _ => hp, fun _ => ⟨a, rfl⟩⟩

theorem FailsIff.error {x : Except Fault α} (h : FailsIff p x) (hp : p) :
    x = .error .divisionByZero :=
  h.elim (·.2) fun h => absurd hp h.1

end FailsIff

/-! ## 2. Factors and the solver -/

/-- The number is the logarithm of a factor of the parameters: of revenue, of costs, of money or of
    Mars. -/
def HasLog (p : Parameters Float) (x : Float) : Prop :=
  ∃ factor, x = Transcendental.log factor ∧
    (revenueFactor p.earth = .ok factor ∨ costFactor p.earth = .ok factor ∨
      discountFactor p.financial * terminalGrowthFactor p.financial = factor ∨
      marsFactor p.mars = .ok factor)

theorem LeastSquares.Answers.fitExponent_failsIff [LeastSquares Float] {kind : Float → Prop}
    (h : LeastSquares.Answers kind) {samples : List (Sample Float)}
    (hs : ∀ s ∈ samples, kind s.factor) : FailsIff False (fitExponent samples) :=
  Or.inr ⟨id, h.fitExponent_ok hs⟩

theorem factor_of_sample? {factor target : Float} {s : Sample Float}
    (h : sample? factor target = some s) :
    0.0 < factor ∧ s.factor = Transcendental.log factor := by
  unfold sample? at h
  split at h
  · next hpos =>
    obtain ⟨-, hs⟩ := Option.ite_none_right_eq_some.mp h
    cases hs
    exact ⟨hpos.1, rfl⟩
  · cases h

/-! ## 3. Divisors -/

/-- The float is zero, of either sign. -/
def IsZero (x : Float) : Prop :=
  x ≤ 0.0 ∧ 0.0 ≤ x

instance (x : Float) : Decidable (IsZero x) :=
  inferInstanceAs (Decidable (x ≤ 0.0 ∧ 0.0 ≤ x))

theorem not_isZero_of_pos {x : Float} (h : 0.0 < x) : ¬ IsZero x :=
  fun hzero => Number.not_le_of_pos h hzero.1

theorem divide_failsIff (x y : Float) : FailsIff (IsZero y) (divide x y) := by
  by_cases hy : IsZero y
  · exact Or.inl ⟨hy, if_pos hy⟩
  · exact Or.inr ⟨hy, x / y, if_neg hy⟩

/-- The factors of the parameters can be computed: no growth over years leaves the range. -/
structure Rated (p : Parameters Float) : Prop where
  revenue : ∃ x, revenueFactor p.earth = .ok x
  costs : ∃ x, costFactor p.earth = .ok x
  mars : ∃ x, marsFactor p.mars = .ok x

theorem optimistic_rated : Rated Scenario.optimistic.parameters where
  revenue := exists_of_toOption (by decide)
  costs := exists_of_toOption (by decide)
  mars := exists_of_toOption (by decide)

section Point

variable {a : Anchors Float} {c : Calibration Float} {p : CalibrationPoint Float}

theorem Rated.earthBreakdown_ok {p : Parameters Float} (h : Rated p) :
    ∃ b, earthBreakdown p a c = .ok b := by
  by_cases hnone : p.earth.starlinkPenetration ≤ 0.0
  · exact ⟨.zero, if_pos hnone⟩
  · obtain ⟨revenue, hrevenue⟩ := h.revenue
    obtain ⟨costs, hcosts⟩ := h.costs
    refine ⟨breakdownOf a.earth c p.financial revenue costs, ?_⟩
    rw [earthBreakdown, if_neg hnone, hrevenue, hcosts]
    rfl

/-- A target of the point is divided by zero: one of the Earth by the revenue or the costs, or one
    of Mars by the value of Mars after the penalty. -/
def ZeroDivisor (a : Anchors Float) (p : CalibrationPoint Float) : Prop :=
  (p.earth.isSome = true ∧ (IsZero a.earth.revenue ∨ IsZero a.earth.costs)) ∨
    (p.marsValue.isSome = true ∧ IsZero (a.marsValue * bootstrapFactor p.parameters.mars))

/-! ## 4. The factors of samples -/

/-- The factors of a breakdown are those of the parameters, unless there is no penetration. -/
theorem factors_of_earthBreakdown {p : Parameters Float} {b : EarthBreakdown Float}
    (h : earthBreakdown p a c = .ok b) :
    b = .zero ∨ revenueFactor p.earth = .ok b.revenueFactor ∧ costFactor p.earth = .ok b.costFactor ∧
      discountFactor p.financial * terminalGrowthFactor p.financial = b.financialFactor := by
  unfold earthBreakdown at h
  split at h
  · cases h
    exact Or.inl rfl
  · obtain ⟨revenue, hrevenue, h⟩ := exists_of_bind_ok h
    obtain ⟨costs, hcosts, h⟩ := exists_of_bind_ok h
    cases h
    exact Or.inr ⟨hrevenue, hcosts, rfl⟩

theorem hasLog_of_earthBreakdown {p : Parameters Float} {b : EarthBreakdown Float}
    (h : earthBreakdown p a c = .ok b) {factor target : Float} {s : Sample Float}
    (hfactor : factor = b.revenueFactor ∨ factor = b.costFactor ∨ factor = b.financialFactor)
    (hs : sample? factor target = some s) : HasLog p s.factor := by
  obtain ⟨hpos, hlog⟩ := factor_of_sample? hs
  refine ⟨factor, hlog, ?_⟩
  rcases factors_of_earthBreakdown h with rfl | ⟨hrevenue, hcosts, hmoney⟩
  · -- a factor of zero gives no sample
    have hzero : factor = 0.0 := hfactor.elim id fun hrest => hrest.elim id id
    rw [hzero] at hpos
    exact absurd hpos (by decide)
  · rcases hfactor with rfl | rfl | rfl
    · exact Or.inl hrevenue
    · exact Or.inr (Or.inl hcosts)
    · exact Or.inr (Or.inr (Or.inl hmoney))

theorem earthSamples_hasLog {s : Option (Sample Float) × Option (Sample Float)}
    (h : earthSamples a p = .ok s) :
    (∀ x ∈ s.1, HasLog p.parameters x.factor) ∧ ∀ x ∈ s.2, HasLog p.parameters x.factor := by
  unfold earthSamples at h
  cases hearth : p.earth with
  | none =>
    rw [hearth] at h
    cases h
    exact ⟨nofun, nofun⟩
  | some target =>
    rw [hearth] at h
    obtain ⟨b, hb, h⟩ := exists_of_bind_ok h
    obtain ⟨revenue, -, h⟩ := exists_of_bind_ok h
    obtain ⟨costs, -, h⟩ := exists_of_bind_ok h
    cases h
    exact ⟨fun x hx => hasLog_of_earthBreakdown hb (Or.inl rfl) hx,
      fun x hx => hasLog_of_earthBreakdown hb (Or.inr (Or.inl rfl)) hx⟩

theorem marsSample_hasLog {s : Option (Sample Float)} (h : marsSample a p = .ok s) :
    ∀ x ∈ s, HasLog p.parameters x.factor := by
  unfold marsSample at h
  cases hmars : p.marsValue with
  | none =>
    rw [hmars] at h
    cases h
    exact nofun
  | some target =>
    rw [hmars] at h
    obtain ⟨factor, hfactor, h⟩ := exists_of_bind_ok h
    obtain ⟨goal, -, h⟩ := exists_of_bind_ok h
    cases h
    exact fun x hx => ⟨factor, (factor_of_sample? hx).2, Or.inr (Or.inr (Or.inr hfactor))⟩

theorem valueSample_hasLog {s : Option (Sample Float)} (h : valueSample a c p = .ok s) :
    ∀ x ∈ s, HasLog p.parameters x.factor := by
  unfold valueSample at h
  cases hearth : p.earth with
  | none =>
    rw [hearth] at h
    cases h
    exact nofun
  | some target =>
    rw [hearth] at h
    obtain ⟨b, hb, h⟩ := exists_of_bind_ok h
    split at h
    · obtain ⟨goal, -, h⟩ := exists_of_bind_ok h
      cases h
      exact fun x hx => hasLog_of_earthBreakdown hb (Or.inr (Or.inr rfl)) hx
    · cases h
      exact nofun

/-! ## 5. The fit -/

theorem earthSamples_failsIff (h : Rated p.parameters) :
    FailsIff (p.earth.isSome = true ∧ (IsZero a.earth.revenue ∨ IsZero a.earth.costs))
      (earthSamples a p) := by
  unfold earthSamples
  cases p.earth with
  | none => exact (FailsIff.ok _).congr ⟨False.elim, fun h => Bool.noConfusion h.1⟩
  | some target =>
    obtain ⟨b, hb⟩ := h.earthBreakdown_ok (a := a) (c := .identity)
    have hquotients : FailsIff (IsZero a.earth.revenue ∨ IsZero a.earth.costs ∨ False) _ :=
      (divide_failsIff target.revenue a.earth.revenue).bind fun revenue =>
        (divide_failsIff target.costs a.earth.costs).bind fun costs =>
          FailsIff.ok (sample? b.revenueFactor revenue, sample? b.costFactor costs)
    simp only [hb]
    exact hquotients.congr (by simp)

theorem marsSample_failsIff (h : Rated p.parameters) :
    FailsIff (p.marsValue.isSome = true ∧
      IsZero (a.marsValue * bootstrapFactor p.parameters.mars)) (marsSample a p) := by
  unfold marsSample
  cases p.marsValue with
  | none => exact (FailsIff.ok none).congr ⟨False.elim, fun h => Bool.noConfusion h.1⟩
  | some target =>
    obtain ⟨factor, hfactor⟩ := h.mars
    have hquotient :
        FailsIff (IsZero (a.marsValue * bootstrapFactor p.parameters.mars) ∨ False) _ :=
      (divide_failsIff target _).bind fun goal => FailsIff.ok (sample? factor goal)
    simp only [hfactor]
    exact hquotient.congr (by simp)

theorem firstSamples_failsIff (h : Rated p.parameters) :
    FailsIff (ZeroDivisor a p) (firstSamples a p) := by
  have hsamples : FailsIff (_ ∨ _ ∨ False) (firstSamples a p) :=
    (earthSamples_failsIff h).bind fun earth => (marsSample_failsIff h).bind fun mars =>
      FailsIff.ok (earth, mars)
  exact hsamples.congr (by rw [or_false, ZeroDivisor])

/-- The value before discounting is no divisor unless it is positive. -/
theorem valueSample_failsIff (h : Rated p.parameters) : FailsIff False (valueSample a c p) := by
  unfold valueSample
  cases p.earth with
  | none => exact FailsIff.ok none
  | some target =>
    obtain ⟨b, hb⟩ := h.earthBreakdown_ok (a := a) (c := c)
    simp only [hb]
    show FailsIff False (if 0.0 < b.valueBeforeDiscount then _ else _)
    by_cases hpos : 0.0 < b.valueBeforeDiscount
    · have hquotient : FailsIff (IsZero b.valueBeforeDiscount ∨ False) _ :=
        (divide_failsIff target.value b.valueBeforeDiscount).bind fun goal =>
          FailsIff.ok (sample? b.financialFactor goal)
      have hnot : ¬ IsZero b.valueBeforeDiscount := not_isZero_of_pos hpos
      rw [if_pos hpos]
      exact hquotient.congr (by simp [hnot])
    · rw [if_neg hpos]
      exact FailsIff.ok none

end Point

section Fit

variable {kind : Float → Prop} {points : List (CalibrationPoint Float)} {a : Anchors Float}

/-- The factors of the first stage are of the kind that those of the points are of. -/
theorem kind_of_firstSamples (hkind : ∀ p ∈ points, ∀ x, HasLog p.parameters x → kind x)
    {samples : List _} (h : points.mapM (firstSamples a) = .ok samples) :
    (∀ s ∈ samples.filterMap (·.1.1), kind s.factor) ∧
      (∀ s ∈ samples.filterMap (·.1.2), kind s.factor) ∧
      ∀ s ∈ samples.filterMap (·.2), kind s.factor := by
  have hparts : ∀ x ∈ samples, (∀ s ∈ x.1.1, kind s.factor) ∧ (∀ s ∈ x.1.2, kind s.factor) ∧
      ∀ s ∈ x.2, kind s.factor := by
    intro x hx
    obtain ⟨p, hp, hfirst⟩ := exists_of_mem_mapM h hx
    obtain ⟨hearth, hmars⟩ := firstSamples_eq_ok_iff.mp hfirst
    have hlogs := earthSamples_hasLog hearth
    exact ⟨fun s hs => hkind p hp _ (hlogs.1 s hs), fun s hs => hkind p hp _ (hlogs.2 s hs),
      fun s hs => hkind p hp _ (marsSample_hasLog hmars s hs)⟩
  refine ⟨?_, ?_, ?_⟩
  all_goals
    intro s hs
    obtain ⟨x, hx, hpart⟩ := List.mem_filterMap.mp hs
  · exact (hparts x hx).1 s hpart
  · exact (hparts x hx).2.1 s hpart
  · exact (hparts x hx).2.2 s hpart

theorem kind_of_valueSample (hkind : ∀ p ∈ points, ∀ x, HasLog p.parameters x → kind x)
    {c : Calibration Float} {values : List _} (h : points.mapM (valueSample a c) = .ok values) :
    ∀ s ∈ values.filterMap id, kind s.factor := by
  intro s hs
  obtain ⟨x, hx, hpart⟩ := List.mem_filterMap.mp hs
  obtain ⟨p, hp, hvalue⟩ := exists_of_mem_mapM h hx
  exact hkind p hp _ (valueSample_hasLog hvalue s hpart)

/-- **A fit fails exactly if one of its points is divided by zero**, with a solver that answers the
    samples of the points. -/
theorem fitCalibration_failsIff [LeastSquares Float] (hsolves : LeastSquares.Answers kind)
    (h : ∀ p ∈ points, Rated p.parameters)
    (hkind : ∀ p ∈ points, ∀ x, HasLog p.parameters x → kind x) (a : Anchors Float)
    (version : String) :
    FailsIff (∃ p ∈ points, ZeroDivisor a p) (fitCalibration points a version) := by
  have hfirst : FailsIff (∃ p ∈ points, ZeroDivisor a p) (points.mapM (firstSamples a)) :=
    FailsIff.mapM fun p hp => firstSamples_failsIff (h p hp)
  have hvalues : ∀ c, FailsIff (∃ p ∈ points, False) (points.mapM (valueSample a c)) :=
    fun c => FailsIff.mapM fun p hp => valueSample_failsIff (h p hp)
  have hfit : FailsIff (_ ∨ _ ∨ _ ∨ _ ∨ _ ∨ _ ∨ False) (fitCalibration points a version) :=
    hfirst.bind_of fun samples hsamples =>
      (hsolves.fitExponent_failsIff (kind_of_firstSamples hkind hsamples).1).bind fun revenue =>
      (hsolves.fitExponent_failsIff (kind_of_firstSamples hkind hsamples).2.1).bind fun costs =>
      (hvalues _).bind_of fun values hvalues =>
      (hsolves.fitExponent_failsIff (kind_of_valueSample hkind hvalues)).bind fun value =>
      (hsolves.fitExponent_failsIff (kind_of_firstSamples hkind hsamples).2.2).bind fun mars =>
      FailsIff.ok _
  exact hfit.congr (by simp)

end Fit

end Appraisal.Valuation
