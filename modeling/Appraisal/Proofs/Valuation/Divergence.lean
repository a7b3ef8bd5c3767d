import Appraisal.Proofs.Number.Order
import Appraisal.Proofs.Valuation.Baseline

/-!
# What passes the checks

A check is passed by finite figures that differ by no more than the tolerance. It is also passed
where the tolerance has become infinite: where the expected figure is infinite and a part of it is
tolerated, and where the part that is tolerated of a finite figure is beyond the floats. Then any
defined figure passes, unless it is the same infinity. To raise a tolerance makes no check fail.

* `Tolerances.Proper`, `Tolerances.Raised` — finite tolerances, and no lower ones;
* `Check.Agrees`, `Check.Vacuous` — the two ways to pass;
* `Tolerances.passed_iff`, `Tolerances.passed_mono` — **one check**, and one with raised tolerances;
* `Model.figures`, `Model.compare_eq` — the figures that are checked, whatever the tolerances;
* `Report.verdict_ok_iff` — a report without failures;
* `checkConsistency_verdict` — **a model against a workbook**;
* `checkConsistency_boundless` — a check of an infinite figure that passes.
-/

namespace Appraisal.Valuation

/-! ## 1. Tolerances -/

/-- Finite tolerances that are not below zero. -/
structure Tolerances.Proper (t : Tolerances) : Prop where
  relative_finite : t.relative.count.isFinite = true
  relative_least : Number.le (.whole 0) t.relative.count = true
  absolute_finite : t.absolute.count.isFinite = true
  absolute_least : Number.le (.whole 0) t.absolute.count = true

/-- The second tolerances are no lower than the first. -/
structure Tolerances.Raised (t t' : Tolerances) : Prop where
  relative : Number.le t.relative.count t'.relative.count = true
  absolute : Number.le t.absolute.count t'.absolute.count = true

/-- The check of two figures. -/
def Tolerances.check (t : Tolerances) (name : String) (expected actual : Float) : Check :=
  ⟨name, .float expected, .float actual, t.relative, t.absolute⟩

/-! ## 2. One check -/

/-- Both figures are finite and differ by no more than they may. -/
structure Check.Agrees (c : Check) : Prop where
  expected_finite : c.expected.count.isFinite = true
  actual_finite : c.actual.count.isFinite = true
  within : ∃ d b, c.deviation = .ok d ∧ c.tolerance = .ok b ∧ Number.le d b = true

/-- The figures are different and defined, but one of them is infinite, and so is the tolerance: a
    part of an infinite expected figure, or a part beyond the floats of a finite one. -/
def Check.Vacuous (c : Check) : Prop :=
  ∃ x y, c.expected = .float x ∧ c.actual = .float y ∧ y.isNaN = false ∧ y ≠ x ∧
    ((x.isInf = true ∧ Number.lt (.whole 0) c.relativeTolerance.count = true) ∨
      (x.isFinite = true ∧ y.isInf = true ∧ ∃ p,
        Number.mul c.relativeTolerance.count (.float x.abs) = .ok (.float p) ∧ p.isInf = true))

theorem Check.passed_eq_true_iff (c : Check) : c.passed = .ok true ↔
    ∃ d b, c.deviation = .ok d ∧ c.tolerance = .ok b ∧ Number.le d b = true := by
  constructor
  · intro h
    obtain ⟨d, hd, h⟩ := exists_of_bind_ok h
    obtain ⟨b, hb, h⟩ := exists_of_bind_ok h
    exact ⟨d, b, hd, hb, Except.ok.inj h⟩
  · rintro ⟨d, b, hd, hb, hle⟩
    rw [passed, hd, hb]
    exact congrArg Except.ok hle

theorem mul_float_eq (a : Number) (y : Float) :
    Number.mul a (.float y) = a.toFloat.map fun x => .float (x * y) := by
  cases a with
  | float x => rfl
  | whole n =>
    have hmul : Number.mul (.whole n) (.float y) =
        Number.viaFloats (· * ·) (.whole n) (.float y) := rfl
    rw [hmul, Number.viaFloats]
    cases Number.toFloat (.whole n) <;> rfl

namespace Tolerances

variable {t t' : Tolerances} {name : String} {x y r r' : Float}

theorem Proper.relative_atLeastZero (ht : t.Proper) : t.relative.count.AtLeastZero :=
  Number.atLeastZero_of_le ht.relative_least

theorem Proper.absolute_atLeastZero (ht : t.Proper) : t.absolute.count.AtLeastZero :=
  Number.atLeastZero_of_le ht.absolute_least

/-- The tolerance as a part, as a float. -/
theorem Proper.unsigned (ht : t.Proper) (hr : t.relative.count.toFloat = .ok r) :
    Number.Unsigned r.toModel.unpack ∧ r.isFinite = true := by
  obtain ⟨k, hk⟩ := Number.exists_size ht.relative_finite ht.relative_atLeastZero
  exact ⟨(Number.units_toFloat ht.relative_atLeastZero hk hr).1,
    Number.toFloat_isFinite ht.relative_finite hr⟩

theorem Proper.unsigned_part (ht : t.Proper) (hr : t.relative.count.toFloat = .ok r)
    (hx : x.isFinite = true) : Number.Unsigned (r * x.abs).toModel.unpack :=
  Number.unsigned_mul (ht.unsigned hr).1 (ht.unsigned hr).2
    (Number.unsigned_abs (Number.isNaN_of_isFinite hx)) (Number.isFinite_abs hx)

/-- A check that can be judged has a float for the tolerance as a part. -/
theorem exists_relative {b : Bool} (h : (t.check name x y).passed = .ok b) :
    ∃ r, t.relative.count.toFloat = .ok r := by
  obtain ⟨d, -, h⟩ := exists_of_bind_ok h
  obtain ⟨b, hb, -⟩ := exists_of_bind_ok h
  obtain ⟨p, hp, -⟩ := exists_of_map_ok hb
  have hp : Number.mul t.relative.count (.float x.abs) = .ok p := hp
  rw [mul_float_eq] at hp
  obtain ⟨r, hr, -⟩ := exists_of_map_ok hp
  exact ⟨r, hr⟩

theorem part_eq (hr : t.relative.count.toFloat = .ok r) (x : Float) :
    Number.mul t.relative.count (.float x.abs) = .ok (.float (r * x.abs)) := by
  rw [mul_float_eq, hr]
  rfl

theorem passed_eq (hr : t.relative.count.toFloat = .ok r) (name : String) (x y : Float) :
    (t.check name x y).passed = .ok (Number.le (.float (y - x).abs)
      (Number.larger t.absolute.count (.float (r * x.abs)))) := by
  have hdeviation : (t.check name x y).deviation = .ok (.float (y - x).abs) := rfl
  have htolerance : (t.check name x y).tolerance =
      .ok (Number.larger t.absolute.count (.float (r * x.abs))) := by
    show (Number.mul t.relative.count (.float x.abs)).map _ = _
    rw [part_eq hr]
    rfl
  rw [Check.passed, hdeviation, htolerance]
  rfl

/-- A vacuous check, by its figures. -/
theorem vacuous_check_iff (hr : t.relative.count.toFloat = .ok r) :
    (t.check name x y).Vacuous ↔ y.isNaN = false ∧ y ≠ x ∧
      ((x.isInf = true ∧ Number.lt (.whole 0) t.relative.count = true) ∨
        (x.isFinite = true ∧ y.isInf = true ∧ (r * x.abs).isInf = true)) := by
  constructor
  · rintro ⟨x', y', hx', hy', hy, hne, hcase⟩
    cases hx'
    cases hy'
    refine ⟨hy, hne, hcase.imp_right ?_⟩
    rintro ⟨hx, hinf, p, hp, hpinf⟩
    cases (part_eq hr x).symm.trans hp
    exact ⟨hx, hinf, hpinf⟩
  · rintro ⟨hy, hne, hcase⟩
    refine ⟨x, y, rfl, rfl, hy, hne, hcase.imp_right ?_⟩
    rintro ⟨hx, hinf, hpinf⟩
    exact ⟨hx, hinf, r * x.abs, part_eq hr x, hpinf⟩

/-- An infinite deviation passes an infinite tolerance, and no other. -/
theorem le_larger_iff_of_infinite {d p : Float} (ht : t.Proper)
    (hd : d.toModel.unpack = .infinity .positive) (hp : Number.Unsigned p.toModel.unpack) :
    Number.le (.float d) (Number.larger t.absolute.count (.float p)) = true ↔ p.isInf = true := by
  obtain ⟨k, hk⟩ := Number.exists_size ht.absolute_finite ht.absolute_atLeastZero
  obtain ⟨hleast, hlarger⟩ := Number.size_larger (b := .float p) ht.absolute_atLeastZero hp
  rw [Number.le_iff_of_infinite hd hleast, hlarger, hk, max_eq_top, ← Number.units_eq_top_iff]
  exact or_iff_right (ENat.natCast_ne_top k)

/-- What is tolerated of an expected figure: of an infinite one it is undefined, or infinite if
    there is a tolerance as a part; of a finite one it is defined. -/
theorem part_cases (ht : t.Proper) (hr : t.relative.count.toFloat = .ok r)
    (hx : x.isNaN = false) :
    (x.isInf = true ∧ Number.lt (.whole 0) t.relative.count = false ∧ (r * x.abs).isNaN = true) ∨
    (x.isInf = true ∧ Number.lt (.whole 0) t.relative.count = true ∧
      (r * x.abs).toModel.unpack = .infinity .positive) ∨
    (x.isFinite = true ∧ Number.Unsigned (r * x.abs).toModel.unpack) := by
  obtain ⟨hunsigned, hfinite⟩ := ht.unsigned hr
  have hpos := Number.units_toFloat_pos_iff ht.relative_atLeastZero ht.relative_finite hr
  rcases Number.isInf_or_isFinite hx with hinf | hxfinite
  · rcases Number.mul_infinity_cases hunsigned hfinite (Number.unpack_abs_of_isInf hinf) with
      ⟨hzero, hnan⟩ | ⟨hunits, hproduct⟩
    · refine Or.inl ⟨hinf, Bool.eq_false_iff.mpr (mt hpos.mpr ?_), hnan⟩
      exact not_lt_of_ge hzero.le
    · exact Or.inr (Or.inl ⟨hinf, hpos.mp hunits, hproduct⟩)
  · exact Or.inr (Or.inr ⟨hxfinite, ht.unsigned_part hr hxfinite⟩)

/-- What an infinite deviation needs to pass: an infinite expected figure of which a part is
    tolerated, or a finite one whose part is beyond the floats. -/
theorem le_tolerance_iff_of_infinite {d : Float} (ht : t.Proper)
    (hr : t.relative.count.toFloat = .ok r) (hd : d.toModel.unpack = .infinity .positive)
    (hx : x.isNaN = false) :
    Number.le (.float d) (Number.larger t.absolute.count (.float (r * x.abs))) = true ↔
      (x.isInf = true ∧ Number.lt (.whole 0) t.relative.count = true) ∨
      (x.isFinite = true ∧ (r * x.abs).isInf = true) := by
  rcases part_cases ht hr hx with ⟨hinf, hzero, hnan⟩ | ⟨hinf, hpos, hpart⟩ | ⟨hfinite, hpart⟩
  · -- only the absolute tolerance is left, and it is finite
    obtain ⟨k, hk⟩ := Number.exists_size ht.absolute_finite ht.absolute_atLeastZero
    rw [Number.larger_undefined _ hnan, Number.le_iff_of_infinite hd ht.absolute_atLeastZero, hk,
      hzero, (Number.of_isInf hinf).2]
    simp
  · have hunsigned : Number.Unsigned (r * x.abs).toModel.unpack := by
      rw [hpart]
      rfl
    have hpartinf : (r * x.abs).isInf = true := by
      show (r * x.abs).toModel.unpack.isInf = true
      rw [hpart]
      rfl
    rw [le_larger_iff_of_infinite ht hd hunsigned]
    exact iff_of_true hpartinf (Or.inl ⟨hinf, hpos⟩)
  · rw [le_larger_iff_of_infinite ht hd hpart, hfinite, Number.isInf_of_isFinite hfinite]
    simp

/-- **One check** passes if the figures agree, or by an infinite tolerance only. -/
theorem passed_iff (ht : t.Proper) (hr : t.relative.count.toFloat = .ok r) :
    (t.check name x y).passed = .ok true ↔
      (t.check name x y).Agrees ∨ (t.check name x y).Vacuous := by
  constructor
  · intro h
    have hle := Except.ok.inj ((passed_eq hr name x y).symm.trans h)
    rcases Number.abs_sub_cases x y with ⟨hnan, -⟩ | ⟨hd, hne, hx, hy, hinf⟩ | ⟨-, hx, hy⟩
    · rw [Number.le_undefined hnan] at hle
      cases hle
    · have hcase := (le_tolerance_iff_of_infinite ht hr hd hx).mp hle
      refine Or.inr ((vacuous_check_iff hr).mpr ⟨hy, hne, hcase.imp_right ?_⟩)
      rintro ⟨hfinite, hpart⟩
      have hxinf := Number.isInf_of_isFinite hfinite
      exact ⟨hfinite, hinf.resolve_left (Bool.eq_false_iff.mp hxinf), hpart⟩
    · exact Or.inl ⟨hx, hy, (Check.passed_eq_true_iff _).mp h⟩
  · rintro (hagrees | hvacuous)
    · exact (Check.passed_eq_true_iff _).mpr hagrees.within
    · obtain ⟨hy, hne, hcase⟩ := (vacuous_check_iff hr).mp hvacuous
      have hx : x.isNaN = false := by
        rcases hcase with ⟨hinf, -⟩ | ⟨hfinite, -⟩
        · exact (Number.of_isInf hinf).1
        · exact Number.isNaN_of_isFinite hfinite
      have hd := Number.unpack_abs_sub_of_isInf hx hy hne (hcase.imp And.left fun h => h.2.1)
      rw [passed_eq hr, Except.ok.injEq, le_tolerance_iff_of_infinite ht hr hd hx]
      exact hcase.imp_right fun h => ⟨h.1, h.2.2⟩

/-- A raised tolerance as a part tolerates no less of a finite figure. -/
theorem part_mono (ht : t.Proper) (ht' : t'.Proper) (hraised : t.Raised t')
    (hr : t.relative.count.toFloat = .ok r) (hr' : t'.relative.count.toFloat = .ok r')
    (hx : x.isFinite = true) :
    Number.units (r * x.abs).toModel.unpack ≤ Number.units (r' * x.abs).toModel.unpack := by
  obtain ⟨hunsigned, hfinite⟩ := ht.unsigned hr
  obtain ⟨hunsigned', hfinite'⟩ := ht'.unsigned hr'
  have hfactor := Number.toFloat_mono ht.relative_atLeastZero ht.relative_finite
    ht'.relative_atLeastZero ht'.relative_finite hraised.relative hr hr'
  exact Number.mul_mono hunsigned hfinite hunsigned' hfinite' hfactor
    (Number.unsigned_abs (Number.isNaN_of_isFinite hx)) (Number.isFinite_abs hx)

/-- **To raise a tolerance makes no check fail.** -/
theorem passed_mono (ht : t.Proper) (ht' : t'.Proper) (hraised : t.Raised t')
    (hr : t.relative.count.toFloat = .ok r) (hr' : t'.relative.count.toFloat = .ok r')
    (h : (t.check name x y).passed = .ok true) : (t'.check name x y).passed = .ok true := by
  rcases (passed_iff ht hr).mp h with hagrees | hvacuous
  · have hx : x.isFinite = true := hagrees.expected_finite
    have hy : y.isFinite = true := hagrees.actual_finite
    have hd : Number.AtLeastZero (.float (y - x).abs) :=
      Number.unsigned_abs (Number.isNaN_pack (Number.isNaN_sub hy hx))
    obtain ⟨hleast, hsize⟩ := Number.size_larger (b := .float (r * x.abs))
      ht.absolute_atLeastZero (ht.unsigned_part hr hx)
    obtain ⟨hleast', hsize'⟩ := Number.size_larger (b := .float (r' * x.abs))
      ht'.absolute_atLeastZero (ht'.unsigned_part hr' hx)
    rw [passed_eq hr, Except.ok.injEq, Number.le_iff_size hd hleast, hsize] at h
    rw [passed_eq hr', Except.ok.injEq, Number.le_iff_size hd hleast', hsize']
    have habsolute := (Number.le_iff_size ht.absolute_atLeastZero ht'.absolute_atLeastZero).mp
      hraised.absolute
    exact h.trans (max_le_max habsolute (part_mono ht ht' hraised hr hr' hx))
  · obtain ⟨hy, hne, hcase⟩ := (vacuous_check_iff hr).mp hvacuous
    refine (passed_iff ht' hr').mpr (Or.inr ((vacuous_check_iff hr').mpr ⟨hy, hne, ?_⟩))
    rcases hcase with ⟨hinf, hpos⟩ | ⟨hx, hinf, hpart⟩
    · have hzero : Number.AtLeastZero (.whole 0) := Int.le_refl 0
      have hpos := (Number.lt_iff_size hzero ht.relative_atLeastZero).mp hpos
      have hrelative := (Number.le_iff_size ht.relative_atLeastZero
        ht'.relative_atLeastZero).mp hraised.relative
      exact Or.inl ⟨hinf, (Number.lt_iff_size hzero ht'.relative_atLeastZero).mpr
        (hpos.trans_le hrelative)⟩
    · have hle := part_mono ht ht' hraised hr hr' hx
      rw [Number.units_eq_top_iff.mpr hpart, top_le_iff] at hle
      exact Or.inr ⟨hx, hinf, Number.units_eq_top_iff.mp hle⟩

/-- Of a finite figure no part beyond the floats is tolerated, if the part is at most one. -/
theorem isInf_part (ht : t.Proper) (hr : t.relative.count.toFloat = .ok r)
    (hle : Number.le t.relative.count (.whole 1) = true) (hx : x.isFinite = true) :
    (r * x.abs).isInf = false := by
  have hone : Number.AtLeastZero (.whole 1) := Int.one_nonneg
  have hunsigned : Number.Unsigned (1.0 : Float).toModel.unpack := rfl
  have habs := Number.unsigned_abs (Number.isNaN_of_isFinite hx)
  have hfactor : Number.units r.toModel.unpack ≤ Number.units (1.0 : Float).toModel.unpack :=
    Number.toFloat_mono ht.relative_atLeastZero ht.relative_finite hone rfl hle hr
      Number.toFloat_one
  have hpart := Number.mul_mono (ht.unsigned hr).1 (ht.unsigned hr).2 hunsigned rfl hfactor habs
    (Number.isFinite_abs hx)
  rw [Number.float_mul_comm 1.0, Number.float_mul_one] at hpart
  obtain ⟨k, hk⟩ := Number.exists_units (Number.isFinite_abs hx) habs
  rw [hk] at hpart
  refine Bool.eq_false_iff.mpr fun hinf => ?_
  rw [Number.units_eq_top_iff.mpr hinf, top_le_iff] at hpart
  exact ENat.natCast_ne_top k hpart

/-- **With a part of at most one a check is vacuous only for an infinite expected figure.** -/
theorem isFinite_of_vacuous (ht : t.Proper) (hr : t.relative.count.toFloat = .ok r)
    (hle : Number.le t.relative.count (.whole 1) = true) (h : (t.check name x y).Vacuous) :
    x.isFinite = false := by
  obtain ⟨-, -, ⟨hinf, -⟩ | ⟨hfinite, -, hpart⟩⟩ := (vacuous_check_iff hr).mp h
  · exact (Number.of_isInf hinf).2
  · rw [isInf_part ht hr hle hfinite] at hpart
    cases hpart

end Tolerances

/-! ## 3. Reports -/

/-- A report that was judged has the checks, and each of them can be judged. -/
theorem Report.of_judged {checks : List Check} {report : Report}
    (h : Report.judged checks = .ok report) :
    report.checks = checks ∧ ∀ c ∈ checks, ∃ b, c.passed = .ok b := by
  obtain ⟨failures, hfailures, rfl⟩ := exists_of_map_ok h
  refine ⟨rfl, fun c hc => ?_⟩
  obtain ⟨b, hb⟩ := (mem_of_filterM hfailures).1 c hc
  obtain ⟨passed, hpassed, -⟩ := exists_of_map_ok hb
  exact ⟨passed, hpassed⟩

/-- **A report has no failures** exactly if every check passes. -/
theorem Report.verdict_ok_iff {report : Report} (h : ∀ c ∈ report.checks, ∃ b, c.passed = .ok b) :
    report.verdict = .ok () ↔ ∀ c ∈ report.checks, c.passed = .ok true := by
  obtain ⟨failures, hfailures⟩ : ∃ failures, report.failures = .ok failures :=
    exists_filterM_ok fun c hc => by
      obtain ⟨b, hb⟩ := h c hc
      rw [hb]
      exact ⟨!b, rfl⟩
  have hmem : ∀ c, c ∈ failures ↔ c ∈ report.checks ∧ c.passed = .ok false := by
    intro c
    rw [(mem_of_filterM hfailures).2 c]
    refine and_congr_right fun hc => ?_
    obtain ⟨b, hb⟩ := h c hc
    rw [hb]
    cases b <;> simp [Except.map]
  have hverdict : report.verdict = .ok () ↔ failures = [] := by
    unfold verdict
    simp only [hfailures]
    cases failures with
    | nil => exact ⟨fun _ => rfl, fun _ => rfl⟩
    | cons c failures =>
      refine ⟨fun hok => ?_, nofun⟩
      obtain ⟨shown, -, herror⟩ := exists_of_bind_ok (x := List.mapM Check.shown (c :: failures)) hok
      cases herror
  rw [hverdict, List.eq_nil_iff_forall_not_mem]
  refine forall_congr' fun c => ?_
  rw [hmem, not_and]
  refine forall_congr' fun hc => ?_
  obtain ⟨b, hb⟩ := h c hc
  rw [hb]
  cases b <;> simp

/-- The expected and the actual figures of a model and of headline figures, by their names. -/
def Model.figures (m : Model Float) (f : KeyFigures) :
    Except Fault (List (String × Float × Float)) := do
  let base ← f.earth.anchor
  let earth ← m.earth Scenario.base.parameters
  let optimistic ← f.earthOptimistic.anchor
  let earthOptimistic ← m.earth Scenario.optimistic.parameters
  let marsValue ← billions f.mars.value
  let mars ← m.mars Scenario.base.parameters
  let optionValue ← f.mars.optionValue
  let option ← m.option Scenario.base.parameters
  pure <|
    [base.map fun e => ("earth.base", e.value, earth),
      optimistic.map fun e => ("earth.optimistic", e.value, earthOptimistic),
      marsValue.map fun v => ("mars.base", v, mars),
      optionValue.map fun v => ("mars.option.base", v, option)].filterMap id

/-- The checks of figures. -/
def Tolerances.checks (t : Tolerances) (l : List (String × Float × Float)) : List Check :=
  l.map fun p => t.check p.1 p.2.1 p.2.2

/-- The checks of a model are those of its figures, whatever the tolerances. -/
theorem Model.compare_eq (m : Model Float) (f : KeyFigures) (t : Tolerances) :
    m.compare f t = m.figures f >>= fun l => Report.judged (t.checks l) := by
  unfold compare figures
  simp only [bind_assoc, pure_bind]
  refine bind_congr fun base => bind_congr fun earth => bind_congr fun optimistic =>
    bind_congr fun earthOptimistic => bind_congr fun marsValue => bind_congr fun mars =>
      bind_congr fun optionValue => bind_congr fun option => congrArg Report.judged ?_
  rw [Tolerances.checks, List.map_filterMap]
  cases base <;> cases optimistic <;> cases marsValue <;> cases optionValue <;> rfl

/-- A report on a model and a workbook has the checks of figures that do not depend on the
    tolerances, and each of them can be judged. -/
theorem exists_figures {m : Model Float} {e : Evaluator} {t : Tolerances} {report : Report}
    (h : checkConsistency m e t = .ok report) :
    ∃ l, (∀ t', checkConsistency m e t' = Report.judged (t'.checks l)) ∧
      report.checks = t.checks l ∧ ∀ c ∈ t.checks l, ∃ b, c.passed = .ok b := by
  obtain ⟨f, hf, hcompare⟩ := exists_of_bind_ok h
  rw [m.compare_eq] at hcompare
  obtain ⟨l, hl, hjudged⟩ := exists_of_bind_ok hcompare
  refine ⟨l, fun t' => ?_, Report.of_judged hjudged⟩
  rw [checkConsistency_eq hf, m.compare_eq, hl]
  rfl

/-! ## 4. A model against a workbook -/

/-- **A model against a workbook** with finite tolerances that are not below zero. The report has no
    failures exactly if each check agrees, both figures being finite and apart by no more than the
    tolerance, or is vacuous, a figure and the tolerance being infinite. With a relative tolerance
    of at most one that takes an infinite expected figure. Raised tolerances give the same checks,
    and none that passed fails. -/
theorem checkConsistency_verdict (m : Model Float) (e : Evaluator) (t : Tolerances)
    {report : Report} (ht : t.Proper) (h : checkConsistency m e t = .ok report) :
    (report.verdict = .ok () ↔ ∀ c ∈ report.checks, c.Agrees ∨ c.Vacuous) ∧
    (∀ c ∈ report.checks, c.passed = .ok true ↔ c.Agrees ∨ c.Vacuous) ∧
    (Number.le t.relative.count (.whole 1) = true →
      ∀ c ∈ report.checks, c.Vacuous → c.expected.count.isFinite = false) ∧
    ∀ t' report', t'.Proper → t.Raised t' → checkConsistency m e t' = .ok report' →
      List.Forall₂ (fun c c' => c'.name = c.name ∧ c'.expected = c.expected ∧
        c'.actual = c.actual ∧ (c.passed = .ok true → c'.passed = .ok true))
        report.checks report'.checks := by
  obtain ⟨l, hall, hchecks, hjudged⟩ := exists_figures h
  have hpart : ∀ p ∈ l, ∃ r, t.relative.count.toFloat = .ok r := by
    intro p hp
    obtain ⟨b, hb⟩ := hjudged _ (List.mem_map_of_mem hp)
    exact Tolerances.exists_relative hb
  have hpassed : ∀ c ∈ report.checks, c.passed = .ok true ↔ c.Agrees ∨ c.Vacuous := by
    rw [hchecks]
    intro c hc
    obtain ⟨p, hp, rfl⟩ := List.mem_map.mp hc
    obtain ⟨r, hr⟩ := hpart p hp
    exact Tolerances.passed_iff ht hr
  refine ⟨?_, hpassed, fun hle => ?_, fun t' report' ht' hraised h' => ?_⟩
  · rw [Report.verdict_ok_iff (by rwa [hchecks])]
    exact forall₂_congr hpassed
  · rw [hchecks]
    intro c hc hvacuous
    obtain ⟨p, hp, rfl⟩ := List.mem_map.mp hc
    obtain ⟨r, hr⟩ := hpart p hp
    exact Tolerances.isFinite_of_vacuous ht hr hle hvacuous
  · rw [hall t'] at h'
    obtain ⟨hchecks', hjudged'⟩ := Report.of_judged h'
    rw [hchecks, hchecks', Tolerances.checks, Tolerances.checks, List.forall₂_map_left_iff,
      List.forall₂_map_right_iff, List.forall₂_same]
    intro p hp
    obtain ⟨r, hr⟩ := hpart p hp
    obtain ⟨b, hb⟩ := hjudged' _ (List.mem_map_of_mem hp)
    obtain ⟨r', hr'⟩ := Tolerances.exists_relative hb
    exact ⟨rfl, rfl, rfl, Tolerances.passed_mono ht ht' hraised hr hr'⟩

theorem usual_proper : ({} : Tolerances).Proper :=
  ⟨by decide, by decide +kernel, by decide, by decide +kernel⟩

/-! ## 5. Two workbooks -/

/-- Finite figures that agree pass their checks. -/
theorem Report.passed_usual {figures : List (String × Float × Float)}
    (h : ∀ p ∈ figures, Agree p.2.1 p.2.2 ∧ p.2.1.isFinite = true) :
    ∀ c ∈ (Report.usual figures).checks,
      c.passed = .ok true ∧ c.expected.count.isFinite = true := by
  intro c hc
  obtain ⟨p, hp, rfl⟩ := List.mem_map.mp hc
  obtain ⟨hagree, hfinite⟩ := h p hp
  rw [Check.passed_usual, decide_eq_true hagree]
  exact ⟨rfl, hfinite⟩

/-- The model of balanced books passes: all three figures are checked, and each of them agrees. -/
theorem checkConsistency_verdict_balanced : ∃ m report,
    Model.ofWorkbook balanced true true = .ok m ∧ ({} : Tolerances).Proper ∧
    checkConsistency m balanced {} = .ok report ∧
    report.checks.map (·.name) = ["earth.base", "mars.base", "mars.option.base"] ∧
    (∀ c ∈ report.checks, c.Agrees) ∧ report.verdict = .ok () := by
  obtain ⟨m, hm⟩ := balanced_model
  have hmodel := hm
  rw [Model.ofWorkbook_eq balanced_freshFigures] at hmodel
  obtain ⟨truth, mars, option, h⟩ := exists_anchored hmodel balanced_finiteBase
  have hfigures : ∀ p ∈ [("earth.base", truth.value, floored truth.net), ("mars.base", mars, mars),
      ("mars.option.base", option, option)], Agree p.2.1 p.2.2 ∧ p.2.1.isFinite = true := by
    refine List.forall_mem_cons.mpr ⟨?_, List.forall_mem_cons.mpr ⟨?_, ?_⟩⟩
    · exact ⟨balanced_agree h.earth_figures, h.finite_value⟩
    · exact ⟨agree_self h.finite_mars, h.finite_mars⟩
    · exact List.forall_mem_singleton.mpr ⟨agree_self h.finite_option, h.finite_option⟩
  have hreport := h.compare_eq (eq_ok_of_toOption (by decide +kernel))
  rw [← checkConsistency_eq balanced_freshFigures] at hreport
  have hchecks := Report.passed_usual hfigures
  obtain ⟨hverdict, hpassed, hvacuous, -⟩ :=
    checkConsistency_verdict m balanced {} usual_proper hreport
  refine ⟨m, _, hm, usual_proper, hreport, rfl, fun c hc => ?_,
    hverdict.mpr fun c hc => (hpassed c hc).mp (hchecks c hc).1⟩
  -- a vacuous check would need an infinite expected figure
  refine ((hpassed c hc).mp (hchecks c hc).1).resolve_right fun hv => ?_
  have hinfinite := hvacuous (by decide +kernel) c hc hv
  rw [(hchecks c hc).2] at hinfinite
  cases hinfinite

/-- Books of the Earth that state an infinite value. -/
def boundless : Evaluator where
  workbook :=
    { snapshot := ⟨[("Earth", ⟨"Earth", [("O119", ⟨"O119", .number (.whole 148130000000), none⟩),
        ("O144", ⟨"O144", .number (.whole 10320000000), none⟩),
        ("O152", ⟨"O152", .number (.whole 13330000000), none⟩),
        ("O153", ⟨"O153", .number (.float Number.infinity), none⟩)]⟩)]⟩
      library := .standard
      recompute := false }
  figures := {}

/-- **An infinite value passes the checks** of a model whose value is finite. -/
theorem checkConsistency_boundless :
    ∃ report, checkConsistency ⟨.builtin, .identity⟩ boundless {} = .ok report ∧
      report.verdict = .ok () ∧
      ∃ c ∈ report.checks, c.expected.count.isFinite = false ∧
        c.actual.count.isFinite = true := by
  let f := boundless.figures.figures boundless.workbook.stored
  let m : Model Float := ⟨.builtin, .identity⟩
  let c : Check := ({} : Tolerances).check "earth.base" Number.infinity
    (floored (EarthAnchor.builtin : EarthAnchor Float).net)
  have hfresh : boundless.freshFigures = .ok f := freshFigures_of_stored (by decide +kernel)
  have hearth : f.earth.anchor = .ok (some ⟨148.13, 10.32, 13.33, Number.infinity⟩) :=
    eq_ok_of_toOption (by decide +kernel)
  have hoptimistic : f.earthOptimistic.anchor = .ok none := eq_ok_of_toOption (by decide +kernel)
  have hmars : billions f.mars.value = .ok none := eq_ok_of_toOption (by decide +kernel)
  have hoption : f.mars.optionValue = .ok none := eq_ok_of_toOption (by decide +kernel)
  obtain ⟨x, hx⟩ := m.exists_earth_optimistic
  have hbase : (Scenario.base.parameters : Parameters Float) = .baseline := rfl
  have hfigures : m.figures f = .ok [("earth.base", Number.infinity,
      floored (EarthAnchor.builtin : EarthAnchor Float).net)] := by
    unfold Model.figures
    simp only [hearth, hoptimistic, hmars, hoption, hx, hbase, Model.earth_baseline,
      Model.mars_baseline, Model.option_baseline]
    rfl
  have hpassed : c.passed = .ok true := by
    refine (Tolerances.passed_iff usual_proper rfl).mpr (Or.inr ⟨_, _, rfl, rfl, ?_, ?_,
      Or.inl ⟨?_, ?_⟩⟩) <;> decide +kernel
  have hjudged : Report.judged [c] = .ok ⟨[c]⟩ :=
    Report.judged_ok fun c' hc' => by
      rw [List.mem_singleton.mp hc']
      exact ⟨true, hpassed⟩
  have hall : ∀ c' ∈ [c], c'.passed = .ok true := by
    intro c' hc'
    rw [List.mem_singleton.mp hc']
    exact hpassed
  refine ⟨⟨[c]⟩, ?_, (Report.verdict_ok_iff fun c' hc' => ⟨true, hall c' hc'⟩).mpr hall, c,
    List.mem_singleton_self c, by decide +kernel, by decide +kernel⟩
  rw [checkConsistency_eq hfresh, m.compare_eq, hfigures]
  exact hjudged

end Appraisal.Valuation
