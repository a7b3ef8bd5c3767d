import Appraisal.Parameters.Settings
import Appraisal.Proofs.Number.Range
import Appraisal.Proofs.Valuation.Strict

/-!
# When a valuation overflows

A power of a factor that leaves the range is infinite, but nothing guards growth over years, which is
a fault where it leaves the range, or where no float can count the years.

* `Compounds`, `InRange` — growth over years that stays in range, and parameters for which that of
  an output does;
* `ReturnsIff` — a computation that has a result exactly on a condition;
* `valueOf_strict` — **a value is computed without a division by zero, and is missing exactly
  where a growth over years that it needs leaves the range**;
* `sweep_ok_iff` — when a sweep has a result;
* `valueOf_ok_of_early` — years up to a century before those of the baseline have every value;
* `valueOf_remote` — years beyond the floats have none.
-/

namespace Appraisal.Valuation

/-! ## 1. Growth over years -/

/-- Growth at the rate over the years stays in range: a float counts the years, and the power under
    them is finite, as it is for every rate up to two over up to a thousand years. -/
def Compounds (rate : Float) (years : Int) : Prop :=
  (Float.ofInt years).isInf = false ∧
    (Number.staysInRange rate (Float.ofInt years) = true ∨
      (Number.positivePower rate (Float.ofInt years)).isInf = false)

section ReturnsIff

variable {α β : Type} {p q : Prop}

/-- The computation has a result if the condition holds, and leaves the range if it does not. -/
def ReturnsIff (p : Prop) (x : Except Fault α) : Prop :=
  (p ∧ ∃ a, x = .ok a) ∨ (¬ p ∧ (x = .error .wholeTooLarge ∨ x = .error .outOfRange))

theorem ReturnsIff.ok (a : α) : ReturnsIff True (.ok a : Except Fault α) :=
  Or.inl ⟨trivial, a, rfl⟩

theorem ReturnsIff.congr {x : Except Fault α} (h : ReturnsIff p x) (hpq : p ↔ q) :
    ReturnsIff q x :=
  propext hpq ▸ h

theorem ReturnsIff.bind {x : Except Fault α} {f : α → Except Fault β} (hx : ReturnsIff p x)
    (hf : ∀ a, ReturnsIff q (f a)) : ReturnsIff (p ∧ q) (x >>= f) := by
  rcases hx with ⟨hp, a, rfl⟩ | ⟨hp, rfl | rfl⟩
  · exact (hf a).congr ⟨fun hq => ⟨hp, hq⟩, And.right⟩
  · exact Or.inr ⟨fun h => hp h.1, Or.inl rfl⟩
  · exact Or.inr ⟨fun h => hp h.1, Or.inr rfl⟩

theorem ReturnsIff.bind_pure {x : Except Fault α} (hx : ReturnsIff p x) (f : α → β) :
    ReturnsIff p (x >>= fun a => pure (f a)) :=
  (hx.bind fun a => ReturnsIff.ok (f a)).congr (by rw [and_true])

theorem ReturnsIff.map {x : Except Fault α} (hx : ReturnsIff p x) (f : α → β) :
    ReturnsIff p (x.map f) := by
  rcases hx with ⟨hp, a, rfl⟩ | ⟨hp, rfl | rfl⟩
  · exact Or.inl ⟨hp, f a, rfl⟩
  · exact Or.inr ⟨hp, Or.inl rfl⟩
  · exact Or.inr ⟨hp, Or.inr rfl⟩

theorem ReturnsIff.ok_iff {x : Except Fault α} (h : ReturnsIff p x) : (∃ a, x = .ok a) ↔ p := by
  rcases h with ⟨hp, a, rfl⟩ | ⟨hp, rfl | rfl⟩
  · exact ⟨fun _ => hp, fun _ => ⟨a, rfl⟩⟩
  all_goals exact ⟨fun ⟨_, ha⟩ => (nomatch ha), fun h => absurd h hp⟩

end ReturnsIff

theorem toFloat_whole {years : Int} (h : (Float.ofInt years).isInf = false) :
    (Number.whole years).toFloat = .ok (Float.ofInt years) := by
  rw [Number.toFloat]
  exact if_neg (Bool.eq_false_iff.mp h)

theorem compound_of_isInf (rate : Float) {years : Int} (h : (Float.ofInt years).isInf = true) :
    Transcendental.compound rate years = .error .wholeTooLarge := by
  have hfloat : (Number.whole years).toFloat = .error .wholeTooLarge := by
    rw [Number.toFloat]
    exact if_pos h
  show (Number.whole years).toFloat.bind (Number.checkedPower rate) = _
  rw [hfloat]
  rfl

theorem compound_bind_of_isInf {α : Type} (rate : Float) {years : Int}
    (h : (Float.ofInt years).isInf = true) (f : Float → Except Fault α) :
    (Transcendental.compound rate years >>= f) = .error .wholeTooLarge := by
  rw [compound_of_isInf rate h]
  rfl

/-- **Growth at a positive rate is a fault exactly where it leaves the range.** -/
theorem compound_returnsIff {rate : Float} (hpos : 0.0 < rate) (hrate : rate.isFinite = true)
    (years : Int) : ReturnsIff (Compounds rate years) (Transcendental.compound rate years) := by
  cases hinf : (Float.ofInt years).isInf with
  | true =>
    refine Or.inr ⟨fun hcompounds => ?_, Or.inl (compound_of_isInf rate hinf)⟩
    rw [hcompounds.1] at hinf
    cases hinf
  | false =>
    have hyears : (Float.ofInt years).isFinite = true :=
      Number.toFloat_isFinite (n := .whole years) rfl (toFloat_whole hinf)
    have hcompound : Transcendental.compound rate years =
        Number.checkedPower rate (Float.ofInt years) := by
      show (Number.whole years).toFloat.bind (Number.checkedPower rate) = _
      rw [toFloat_whole hinf]
      rfl
    rw [hcompound, Number.checkedPower, Compounds, hinf, hyears, hrate, beq_zero_of_pos hpos]
    cases Number.staysInRange rate (Float.ofInt years) <;>
      cases hpower : (Number.positivePower rate (Float.ofInt years)).isInf <;>
      simp [ReturnsIff]

/-- The growth over years that the Earth needs stays in range. Without penetration there is none. -/
def EarthInRange (e : EarthParameters Float) : Prop :=
  e.starlinkPenetration ≤ 0.0 ∨
    (Compounds 1.03 (2025 - e.starshipCommercialViabilityYear) ∧
      Compounds 0.95 (2026 - e.starshipReusabilityYear))

/-- The growth over years that Mars needs stays in range. -/
def MarsInRange (m : MarsParameters Float) : Prop :=
  Compounds 1.10 (2030 - m.firstColonyYear)

/-- The growth over years that a value needs stays in range. -/
def InRange (p : Parameters Float) : Output → Prop
  | .earth => EarthInRange p.earth
  | .mars | .marsOption => MarsInRange p.mars
  | .total => EarthInRange p.earth ∧ MarsInRange p.mars

/-! ## 2. Values -/

section Value

variable (m : Model Float) (p : Parameters Float)

theorem revenueFactor_returnsIff (e : EarthParameters Float) :
    ReturnsIff (Compounds 1.03 (2025 - e.starshipCommercialViabilityYear)) (revenueFactor e) :=
  (compound_returnsIff (by decide) (by decide) _).bind_pure _

theorem costFactor_returnsIff (e : EarthParameters Float) :
    ReturnsIff (Compounds 0.95 (2026 - e.starshipReusabilityYear)) (costFactor e) :=
  (compound_returnsIff (by decide) (by decide) _).bind_pure _

theorem marsFactor_returnsIff (mars : MarsParameters Float) :
    ReturnsIff (MarsInRange mars) (marsFactor mars) :=
  (compound_returnsIff (by decide) (by decide) _).bind_pure _

theorem earth_returnsIff : ReturnsIff (EarthInRange p.earth) (m.earth p) := by
  refine ReturnsIff.map ?_ _
  rw [Model.breakdown, earthBreakdown, EarthInRange]
  by_cases hnone : p.earth.starlinkPenetration ≤ 0.0
  · rw [if_pos hnone]
    exact (ReturnsIff.ok _).congr ⟨fun _ => Or.inl hnone, fun _ => trivial⟩
  · rw [if_neg hnone, or_iff_right hnone]
    exact (revenueFactor_returnsIff p.earth).bind fun revenue =>
      (costFactor_returnsIff p.earth).bind_pure _

theorem mars_returnsIff : ReturnsIff (MarsInRange p.mars) (m.mars p) :=
  ((marsFactor_returnsIff p.mars).map _).map _

theorem option_returnsIff : ReturnsIff (MarsInRange p.mars) (m.option p) := by
  rw [Model.option]
  cases m.anchors.marsOptionValue with
  | none => exact mars_returnsIff m p
  | some anchor => exact ((marsFactor_returnsIff p.mars).map _).map _

theorem total_returnsIff :
    ReturnsIff (EarthInRange p.earth ∧ MarsInRange p.mars) (m.total p) :=
  (earth_returnsIff m p).bind fun _ => (mars_returnsIff m p).bind_pure _

theorem valueOf_returnsIff (o : Output) : ReturnsIff (InRange p o) (m.valueOf p o) := by
  cases o with
  | earth => exact earth_returnsIff m p
  | mars => exact mars_returnsIff m p
  | marsOption => exact option_returnsIff m p
  | total => exact total_returnsIff m p

/-- **A value is computed without a division by zero, and is missing exactly where a growth over
    years that it needs leaves the range.** Nothing is asked of the floats: they may be infinite or
    undefined. -/
theorem valueOf_strict (o : Output) :
    Strict.valueOf m p o = m.valueOf p o ∧ ReturnsIff (InRange p o) (m.valueOf p o) :=
  ⟨Strict.valueOf_eq m p o, valueOf_returnsIff m p o⟩

/-- **A sweep has a result exactly if each of its values can be set and keeps growth in range.** -/
theorem sweep_ok_iff {path output : String} {o : Output} (ho : Output.ofName? output = some o)
    (values : List Appraisal.Value) : (∃ xs, m.sweep path values (.ok p) output = .ok xs) ↔
      ∀ v ∈ values, ∃ q, p.replace path v = .ok q ∧ InRange q o := by
  have hsweep : m.sweep path values (.ok p) output =
      values.mapM fun v => (p.replace path v).bind fun q => m.valueOf q o := by
    rw [Model.sweep, ho]
    rfl
  have hstep : ∀ v, (∃ x, ((p.replace path v).bind fun q => m.valueOf q o) = .ok x) ↔
      ∃ q, p.replace path v = .ok q ∧ InRange q o := by
    intro v
    cases p.replace path v with
    | error fault => exact ⟨fun ⟨_, hx⟩ => (nomatch hx), fun ⟨_, hq, _⟩ => (nomatch hq)⟩
    | ok q =>
      refine (valueOf_returnsIff m q o).ok_iff.trans ⟨fun hq => ⟨q, rfl, hq⟩, ?_⟩
      rintro ⟨_, hsame, hq⟩
      exact Except.ok.inj hsame ▸ hq
  rw [hsweep]
  exact exists_mapM_ok_iff.trans (forall₂_congr fun v _ => hstep v)

end Value

/-! ## 3. Early and remote years -/

theorem ofInt_of_le_hundred : ∀ n : Nat, n < 101 → (Float.ofInt n).isInf = false ∧
    0.0 ≤ Float.ofInt n ∧ Float.ofInt n ≤ 1000.0 := by
  decide +kernel

/-- Growth over up to a hundred years stays in range, at any rate up to two. -/
theorem compounds_of_le_hundred {rate : Float} (hrate : rate ≤ 2.0) {years : Int}
    (hleast : 0 ≤ years) (hgreatest : years ≤ 100) : Compounds rate years := by
  obtain ⟨n, rfl⟩ := Int.eq_ofNat_of_zero_le hleast
  obtain ⟨hinf, hzero, hthousand⟩ := ofInt_of_le_hundred n (by omega)
  refine ⟨hinf, Or.inl ?_⟩
  rw [Number.staysInRange, decide_eq_true hrate, decide_eq_true hzero, decide_eq_true hthousand]
  rfl

/-- **Years up to a century before those of the baseline have every value**, whatever the other
    parameters, the anchors and the exponents are. -/
theorem valueOf_ok_of_early (m : Model Float) {p : Parameters Float}
    (hviability : p.earth.starshipCommercialViabilityYear ∈ Set.Icc 1925 2025)
    (hreuse : p.earth.starshipReusabilityYear ∈ Set.Icc 1926 2026)
    (hcolony : p.mars.firstColonyYear ∈ Set.Icc 1930 2030) (o : Output) :
    ∃ x, m.valueOf p o = .ok x := by
  obtain ⟨hv, hv'⟩ := hviability
  obtain ⟨hr, hr'⟩ := hreuse
  obtain ⟨hc, hc'⟩ := hcolony
  have hearth : EarthInRange p.earth := Or.inr
    ⟨compounds_of_le_hundred (by decide) (by omega) (by omega),
      compounds_of_le_hundred (by decide) (by omega) (by omega)⟩
  have hmars : MarsInRange p.mars :=
    compounds_of_le_hundred (by decide) (by omega) (by omega)
  refine (valueOf_returnsIff m p o).ok_iff.mpr ?_
  cases o with
  | earth => exact hearth
  | mars => exact hmars
  | marsOption => exact hmars
  | total => exact ⟨hearth, hmars⟩

/-- The baseline with years of reuse and of the first colony that no float can count. -/
def remote : Parameters Float :=
  { Parameters.baseline with
    earth := { EarthParameters.baseline with starshipReusabilityYear := .pow 10 400 }
    mars := { MarsParameters.baseline with firstColonyYear := -.pow 10 400 } }

theorem remote_isInf : (Float.ofInt (2026 - .pow 10 400)).isInf = true ∧
    (Float.ofInt (2030 - -.pow 10 400)).isInf = true := by
  decide +kernel

theorem remote_costFactor : costFactor remote.earth = .error .wholeTooLarge :=
  compound_bind_of_isInf 0.95 remote_isInf.1 _

theorem remote_marsFactor : marsFactor remote.mars = .error .wholeTooLarge :=
  compound_bind_of_isInf 1.10 remote_isInf.2 _

theorem remote_earth (m : Model Float) : m.earth remote = .error .wholeTooLarge := by
  have hserved : ¬ remote.earth.starlinkPenetration ≤ 0.0 := by decide
  obtain ⟨revenue, hrevenue⟩ : ∃ x, revenueFactor remote.earth = .ok x :=
    (revenueFactor_returnsIff remote.earth).ok_iff.mpr
      (compounds_of_le_hundred (by decide) (by decide) (by decide))
  rw [Model.earth, Model.breakdown, earthBreakdown, if_neg hserved, hrevenue, remote_costFactor]
  rfl

theorem remote_mars (m : Model Float) : m.mars remote = .error .wholeTooLarge := by
  rw [Model.mars, Model.marsMultiplier, remote_marsFactor]
  rfl

theorem remote_option (m : Model Float) : m.option remote = .error .wholeTooLarge := by
  rw [Model.option]
  cases m.anchors.marsOptionValue with
  | none => exact remote_mars m
  | some anchor =>
    rw [Model.marsMultiplier, remote_marsFactor]
    rfl

theorem remote_total (m : Model Float) : m.total remote = .error .wholeTooLarge := by
  rw [Model.total, remote_earth]
  rfl

theorem remote_valueOf (m : Model Float) (o : Output) :
    m.valueOf remote o = .error .wholeTooLarge := by
  cases o with
  | earth => exact remote_earth m
  | mars => exact remote_mars m
  | marsOption => exact remote_option m
  | total => exact remote_total m

/-- **Not all parameters have a value**: with years that no float can count there is none, though all
    floats are those of the baseline, the anchors are those that are built in, and no factor is
    bent. -/
theorem valueOf_remote :
    Parameters.ofValue (.mapping [
        ("earth", .mapping [("starshipReusabilityYear", .whole (.pow 10 400))]),
        ("mars", .mapping [("firstColonyYear", .whole (-.pow 10 400))])]) = .ok remote ∧
      ∀ o, (Model.mk .builtin .identity).valueOf remote o = .error .wholeTooLarge :=
  ⟨rfl, remote_valueOf _⟩

end Appraisal.Valuation
