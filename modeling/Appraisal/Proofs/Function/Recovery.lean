import Appraisal.Proofs.Checked
import Appraisal.Proofs.Evaluation.Operand
import Mathlib.Data.List.Basic

/-!
# Where the functions have a value

Outside its domain a function gives zero. On values whose numbers fit a float every built-in
function and every operation has a value, but for one: the growth rate takes a power, and the power
of zero under a negative exponent and a power beyond the floats are faults that it does not recover.

* `checkedPower_eq_error_iff` — the two faults of a power;
* `RateFault` — when a growth rate takes such a power; `growthRate_eq_error_iff`;
* `exists_numbersOf`, `exists_operand`, `exists_arithmetic`, `exists_safeDivide` — what always has a
  value;
* `primitives_recover` — **every function has a value, and just the growth rate may have none**.
-/

namespace Appraisal.Function

open Appraisal.Formula

/-! ## 1. Numbers and operands -/

section Operands

variable {v l r : Value} {vs : List Value}

theorem exists_toFloat {n : Number} (h : n.fitsFloat = true) : ∃ x, n.toFloat = .ok x := by
  cases hn : n.toFloat with
  | ok x => exact ⟨x, rfl⟩
  | error fault =>
    rw [(Number.toFloat_error hn).2] at h
    cases h

/-- The numbers of values that fit floats are floats. -/
theorem exists_numbersOf (h : ∀ v ∈ vs, v.fitsFloat = true) : ∃ xs, numbersOf vs = .ok xs := by
  have hall : (Value.leavesAll vs).all Scalar.fitsFloat = true := Value.fitsFloat_list h
  have hnumber : ∀ n ∈ (Value.leavesAll vs).filterMap scalarNumber?, ∃ x, n.toFloat = .ok x := by
    intro n hn
    obtain ⟨s, hs, hscalar⟩ := List.mem_filterMap.mp hn
    have hfit := List.all_eq_true.mp hall s hs
    cases s with
    | number m =>
      cases hscalar
      exact exists_toFloat hfit
    | blank | flag | text => cases hscalar
  obtain ⟨xs, hxs, -⟩ := exists_mapM_ok hnumber
  exact ⟨xs, hxs⟩

theorem exists_operand (h : v.fitsFloat = true) : ∃ x, operand v = .ok x := by
  cases hv : operand v with
  | ok x => exact ⟨x, rfl⟩
  | error fault =>
    rw [(operand_error hv).2] at h
    cases h

/-- The four operations have a value. -/
theorem exists_arithmetic (op : Operator) (hl : l.fitsFloat = true) (hr : r.fitsFloat = true) :
    ∃ v, arithmetic op l r = .ok v := by
  obtain ⟨x, hx⟩ := exists_operand hl
  obtain ⟨y, hy⟩ := exists_operand hr
  rcases arithmetic_of_operands op hx hy with h | ⟨z, h⟩
  · exact ⟨_, h⟩
  · exact ⟨_, h⟩

/-- An operation that goes by its symbol is the operation. -/
theorem namedOperation_symbol (op : Operator) (l r : Value) :
    namedOperation l (.text (String.ofList [op.symbol])) r = arithmetic op l r := by
  have hop : operatorOf? (.text (String.ofList [op.symbol])) = some op := by
    rw [operatorOf?, String.toList_ofList, Operator.ofText?_symbol]
  rw [namedOperation, hop]
  rfl

theorem exists_safeDivide (hl : l.fitsFloat = true) (hr : r.fitsFloat = true) :
    ∃ x, safeDivide l r = .ok x := by
  obtain ⟨x, hx⟩ := exists_operand hl
  obtain ⟨y, hy⟩ := exists_operand hr
  rw [safeDivide, hx, hy]
  cases x with
  | none => exact ⟨_, rfl⟩
  | some x =>
    cases y with
    | none => exact ⟨_, rfl⟩
    | some y => exact ⟨_, rfl⟩

end Operands

/-! ## 2. Growth rates -/

/-- A power is a fault: of zero under a negative exponent, or beyond the floats. Base and exponent
    are finite. -/
inductive PowerFault (base exponent : Float) : Fault → Prop where
  /-- Zero under a negative exponent. -/
  | zero (hfinite : exponent.isFinite = true ∧ base.isFinite = true)
      (hbase : (base == 0.0) = true) (hexponent : exponent < 0.0) :
      PowerFault base exponent .zeroToNegative
  /-- A power beyond the floats. -/
  | large (hfinite : exponent.isFinite = true ∧ base.isFinite = true)
      (hbase : ¬((base == 0.0) = true ∧ exponent < 0.0))
      (hrange : Number.staysInRange base exponent = false)
      (hpower : (Number.positivePower base exponent).isInf = true) :
      PowerFault base exponent .outOfRange

theorem checkedPower_eq_error_iff {base exponent : Float} {fault : Fault} :
    Number.checkedPower base exponent = .error fault ↔ PowerFault base exponent fault := by
  unfold Number.checkedPower
  simp only
  constructor
  · intro h
    split at h
    · cases h
    · next hfinite =>
      simp only [Bool.or_eq_true, Bool.not_eq_true', not_or, Bool.not_eq_false] at hfinite
      split at h
      · next hzero =>
        cases h
        simp only [Bool.and_eq_true, decide_eq_true_eq] at hzero
        exact .zero hfinite hzero.1 hzero.2
      · next hzero =>
        simp only [Bool.and_eq_true, decide_eq_true_eq] at hzero
        split at h
        · next hlarge =>
          cases h
          simp only [Bool.and_eq_true, Bool.not_eq_true'] at hlarge
          exact .large hfinite hzero hlarge.1 hlarge.2
        · cases h
  · intro h
    cases h with
    | zero hfinite hbase hexponent => simp [hfinite, hbase, hexponent]
    | large hfinite hbase hrange hpower =>
      have hzero : (base == 0.0 && decide (exponent < 0.0)) = false := by
        rw [Bool.eq_false_iff, ne_eq, Bool.and_eq_true, decide_eq_true_eq]
        exact hbase
      simp [hfinite, hzero, hrange, hpower]

/-- The growth rate takes a power that is a fault: neither the periods nor the present value is
    zero, and the future value is no negative part of it. -/
structure RateFault (n p f : Float) (fault : Fault) : Prop where
  periods : (n == 0.0) = false
  present : (p == 0.0) = false
  ratio : ¬ f / p < 0.0
  power : PowerFault (f / p) (1.0 / n) fault

/-- The growth rate of floats. -/
def rateOf (n p f : Float) : Except Fault Float :=
  if n == 0.0 || p == 0.0 then .ok 0.0
  else if f / p < 0.0 then .ok 0.0
  else (Number.checkedPower (f / p) (1.0 / n)).map (· - 1.0)

theorem rateOf_eq_error_iff {n p f : Float} {fault : Fault} :
    rateOf n p f = .error fault ↔ RateFault n p f fault := by
  have hmap : (Number.checkedPower (f / p) (1.0 / n)).map (· - 1.0) = .error fault ↔
      PowerFault (f / p) (1.0 / n) fault := by
    rw [← checkedPower_eq_error_iff]
    cases Number.checkedPower (f / p) (1.0 / n) with
    | ok x => exact ⟨nofun, nofun⟩
    | error cause => exact Iff.rfl
  unfold rateOf
  split
  · next hzero =>
    refine ⟨nofun, fun h => ?_⟩
    rw [h.periods, h.present] at hzero
    cases hzero
  · next hzero =>
    rw [Bool.or_eq_true, not_or, Bool.not_eq_true, Bool.not_eq_true] at hzero
    split
    · next hratio => exact ⟨nofun, fun h => absurd hratio h.ratio⟩
    · next hratio =>
      rw [hmap]
      exact ⟨fun h => ⟨hzero.1, hzero.2, hratio, h⟩, RateFault.power⟩

/-- The growth rate of operands is that of the floats. -/
theorem growthRate_of_floats {a b c : Value} {n p f : Float} (ha : operand a = .ok (some n))
    (hb : operand b = .ok (some p)) (hc : operand c = .ok (some f)) :
    growthRate a b c = rateOf n p f := by
  rw [growthRate, ha, hb, hc]
  show (if _ then _ else _) = _
  unfold rateOf
  split
  · rfl
  · show (if _ then _ else _) = _
    split
    · rfl
    · cases Number.checkedPower (f / p) (1.0 / n) <;> rfl

/-- **A growth rate of values that fit floats has a value, but where all three are operands and it
    takes a power that has none.** -/
theorem growthRate_eq_error_iff {a b c : Value} {fault : Fault} (ha : a.fitsFloat = true)
    (hb : b.fitsFloat = true) (hc : c.fitsFloat = true) :
    growthRate a b c = .error fault ↔
      ∃ n p f, operand a = .ok (some n) ∧ operand b = .ok (some p) ∧ operand c = .ok (some f) ∧
        RateFault n p f fault := by
  obtain ⟨n, hn⟩ := exists_operand ha
  obtain ⟨p, hp⟩ := exists_operand hb
  obtain ⟨f, hf⟩ := exists_operand hc
  constructor
  · intro h
    have hnone : (n = none ∨ p = none ∨ f = none) → growthRate a b c = .ok 0.0 := by
      intro hmissing
      rw [growthRate, hn, hp, hf]
      rcases hmissing with rfl | rfl | rfl
      · rfl
      · cases n <;> rfl
      · cases n <;> cases p <;> rfl
    cases n with
    | none => cases h.symm.trans (hnone (Or.inl rfl))
    | some n =>
      cases p with
      | none => cases h.symm.trans (hnone (Or.inr (Or.inl rfl)))
      | some p =>
        cases f with
        | none => cases h.symm.trans (hnone (Or.inr (Or.inr rfl)))
        | some f =>
          rw [growthRate_of_floats hn hp hf] at h
          exact ⟨n, p, f, hn, hp, hf, rateOf_eq_error_iff.mp h⟩
  · rintro ⟨n, p, f, hn, hp, hf, h⟩
    rw [growthRate_of_floats hn hp hf]
    exact rateOf_eq_error_iff.mpr h

/-! ## 3. All functions -/

theorem exists_choose {vs : List Value} (h : ∀ v ∈ vs, v.fitsFloat = true)
    (prefers : Float → Float → Bool) : ∃ x, choose prefers vs = .ok x := by
  obtain ⟨xs, hxs⟩ := exists_numbersOf h
  rw [choose, hxs]
  cases xs <;> exact ⟨_, rfl⟩

theorem exists_sumValues {vs : List Value} (h : ∀ v ∈ vs, v.fitsFloat = true) :
    ∃ n, sumValues vs = .ok n := by
  obtain ⟨xs, hxs⟩ := exists_numbersOf h
  rw [sumValues, hxs]
  cases xs <;> exact ⟨_, rfl⟩

theorem exists_exponential {v : Value} (h : v.fitsFloat = true) : ∃ r, exponential v = .ok r := by
  obtain ⟨x, hx⟩ := exists_operand h
  rw [exponential, hx]
  cases x <;> exact ⟨_, rfl⟩

/-- Every built-in function other than the growth rate has a value. -/
theorem Builtin.exists_apply {b : Builtin} {args : List Value} (hb : b ≠ .rri)
    (hargs : ∀ v ∈ args, v.fitsFloat = true) : ∃ v, b.apply args = .ok v := by
  have hmap : ∀ {α : Type} {x : Except Fault α} (f : α → Value), (∃ a, x = .ok a) →
      ∃ v, x.map f = .ok v := by
    rintro α x f ⟨a, rfl⟩
    exact ⟨f a, rfl⟩
  cases b with
  | rri => exact absurd rfl hb
  | ifThen | ifError | log | ln => exact ⟨_, rfl⟩
  | sum => exact hmap _ (exists_sumValues hargs)
  | max | min => exact hmap _ (exists_choose hargs _)
  | exp => exact exists_exponential (fitsFloat_getD hargs 0 (Value.fitsFloat_scalar _))

/-- The function is the growth rate, and its arguments are floats over which the rate takes a power
    that is a fault. -/
def HasNoRate (b : Builtin) (args : List Value) (fault : Fault) : Prop :=
  b = .rri ∧ ∃ periods present future n p f, args = [periods, present, future] ∧
    operand periods = .ok (some n) ∧ operand present = .ok (some p) ∧
    operand future = .ok (some f) ∧ RateFault n p f fault

/-- **Just the growth rate may have no value**, of as many arguments as it takes. -/
theorem Builtin.apply_eq_error_iff {b : Builtin} {args : List Value}
    (hcount : b.signature.least ≤ args.length ∧ args.length ≤ b.signature.most)
    (hargs : ∀ v ∈ args, v.fitsFloat = true) {fault : Fault} :
    b.apply args = .error fault ↔ HasNoRate b args fault := by
  by_cases hb : b = .rri
  · subst hb
    have hlength : args.length = 3 := by
      obtain ⟨hleast, hmost⟩ := hcount
      simp only [Builtin.signature] at hleast hmost
      omega
    obtain ⟨periods, present, future, rfl⟩ := List.length_eq_three.mp hlength
    have happly : Builtin.rri.apply [periods, present, future] = .error fault ↔
        growthRate periods present future = .error fault := by
      show (growthRate periods present future).map Value.float = .error fault ↔ _
      cases growthRate periods present future with
      | ok x => exact ⟨nofun, nofun⟩
      | error cause => exact ⟨fun h => by cases h; rfl, fun h => by cases h; rfl⟩
    rw [happly, growthRate_eq_error_iff (hargs _ (by simp)) (hargs _ (by simp)) (hargs _ (by simp))]
    constructor
    · rintro ⟨n, p, f, h⟩
      exact ⟨rfl, _, _, _, n, p, f, rfl, h⟩
    · rintro ⟨-, _, _, _, n, p, f, heq, h⟩
      cases heq
      exact ⟨n, p, f, h⟩
  · obtain ⟨v, hv⟩ := Builtin.exists_apply hb hargs
    rw [hv]
    exact ⟨nofun, fun h => absurd h.1 hb⟩

/-- **The functions and operations recover from what is outside their domain**: of values that fit
    floats each has a value, with the one exception of a growth rate over a power that is a
    fault. -/
theorem primitives_recover (b : Builtin) (args : List Value) (l r : Value) :
    (b.signature.least ≤ args.length ∧ args.length ≤ b.signature.most →
      (∀ v ∈ args, v.fitsFloat = true) →
      ((∃ v, b.apply args = .ok v) ↔ ∀ fault, ¬ HasNoRate b args fault) ∧
        ∀ fault, b.apply args = .error fault ↔ HasNoRate b args fault) ∧
      (l.fitsFloat = true → r.fitsFloat = true →
        (∀ op : Operator, ∃ v, namedOperation l (.text (String.ofList [op.symbol])) r = .ok v) ∧
          ∃ x, safeDivide l r = .ok x) := by
  refine ⟨fun hcount hargs => ⟨?_, fun fault => b.apply_eq_error_iff hcount hargs⟩,
    fun hl hr => ⟨fun op => ?_, exists_safeDivide hl hr⟩⟩
  · constructor
    · rintro ⟨v, hv⟩ fault hfault
      rw [(b.apply_eq_error_iff hcount hargs).mpr hfault] at hv
      cases hv
    · intro hnone
      cases happly : b.apply args with
      | ok v => exact ⟨v, rfl⟩
      | error fault => exact absurd ((b.apply_eq_error_iff hcount hargs).mp happly) (hnone fault)
  · rw [namedOperation_symbol]
    exact exists_arithmetic op hl hr

/-- The rate of a doubling over two periods, the largest number in nested lists, and a division by
    nothing. -/
theorem primitives_recover_doubling :
    let args : List Value := [.whole 2, .whole 1, .float 2.0]
    let nested : List Value := [.list [.list [.whole 3, .blank], .text "4"], .flag true]
    (∀ v ∈ args ++ nested, v.fitsFloat = true) ∧ (∃ v, Builtin.rri.apply args = .ok v) ∧
      (∃ v, Builtin.max.apply nested = .ok v) ∧ ∃ x, safeDivide (.flag true) .blank = .ok x := by
  intro args nested
  have hfit : ∀ v ∈ args ++ nested, v.fitsFloat = true := by decide
  obtain ⟨hrri, hdivide⟩ := primitives_recover .rri args (.flag true) .blank
  obtain ⟨hrri, -⟩ := hrri (by decide) fun v hv => hfit v (List.mem_append_left nested hv)
  obtain ⟨hmax, -⟩ := (primitives_recover .max nested .blank .blank).1 (by decide)
    fun v hv => hfit v (List.mem_append_right args hv)
  refine ⟨hfit, hrri.mpr fun fault hfault => ?_, hmax.mpr fun fault hfault => ?_,
    (hdivide rfl rfl).2⟩
  · obtain ⟨-, periods, present, future, n, p, f, heq, hn, hp, hf, hrate⟩ := hfault
    have heq : [Value.whole 2, .whole 1, .float 2.0] = [periods, present, future] := heq
    cases heq
    cases (show operand (.whole 2) = .ok (some 2.0) from rfl).symm.trans hn
    cases (show operand (.whole 1) = .ok (some 1.0) from rfl).symm.trans hp
    cases (show operand (.float 2.0) = .ok (some 2.0) from rfl).symm.trans hf
    cases hrate.power with
    | zero _ hbase => exact absurd hbase (by decide)
    | large _ _ hrange => exact absurd hrange (by decide)
  · cases hfault.1

/-- The growth from nothing over a period backwards, which has no rate and no zero for it. -/
theorem apply_rri_backwards :
    let args : List Value := [.whole (-1), .whole 1, .whole 0]
    (∀ v ∈ args, v.fitsFloat = true) ∧ Builtin.rri.apply args = .error .zeroToNegative := by
  refine ⟨?_, ?_⟩
  · decide
  · rfl

end Appraisal.Function
