import Appraisal.Proofs.Checked
import Appraisal.Proofs.Evaluation.KeyFigures
import Appraisal.Proofs.Evaluation.Outcome

/-!
# What surfaces from a look-up

Asking for a cell, or for the sum, the largest or the smallest number of a range, gives a value or
one of two faults: a circle that something looked up leads to, or a whole number beyond the floats
where a float is needed. Functions recover from such a number; the four operations and the queries
over ranges do not.

* `Value.isOverlarge`, `Function.arithmetic_cases`, `Function.NeedsFloats` — where a float is needed
  and there is none;
* `Workbook.Overflows` — a key whose formula operates on a whole number beyond the floats;
* `Workbook.Surfaces` — the faults that a key leads to; `resolve_gives` — **a key is settled with
  its worth or with one of these**;
* `Query.isLookup`, `Query.keys` — the look-ups and the keys that they settle;
* `Evaluator.Finds`, `Evaluator.finds_answer` — what a look-up gives;
* `Evaluator.answer_lookup` — **a look-up has a value exactly if nothing looked up leads to a circle
  or needs the float of a number that has none, and has no other fault**.
-/

namespace Appraisal

open Appraisal.Formula

/-! ## 1. Where a float is needed -/

/-- Whether a value is a whole number beyond the floats. -/
def Value.isOverlarge : Value → Bool
  | .scalar s => !s.fitsFloat
  | _ => false

theorem Value.not_fitsFloat_of_isOverlarge {v : Value} (h : v.isOverlarge = true) :
    v.fitsFloat = false := by
  cases v with
  | scalar s =>
    rw [Value.fitsFloat_scalar, ← Bool.not_eq_true']
    exact h
  | list vs => cases h
  | mapping es => cases h

namespace Function

/-- A value is an operand, or none, unless it is beyond the floats. -/
theorem operand_cases (v : Value) :
    (v.isOverlarge = true ∧ operand v = .error .wholeTooLarge) ∨
      (v.isOverlarge = false ∧ ∃ x, operand v = .ok x) := by
  cases v with
  | list vs => exact Or.inr ⟨rfl, none, rfl⟩
  | mapping es => exact Or.inr ⟨rfl, none, rfl⟩
  | scalar s =>
    cases s with
    | blank => exact Or.inr ⟨rfl, some 0.0, rfl⟩
    | flag b => exact Or.inr ⟨rfl, none, rfl⟩
    | text t => exact Or.inr ⟨rfl, none, rfl⟩
    | number n =>
      have hvalue : (Value.number n).isOverlarge = !n.fitsFloat := rfl
      have hoperand : operand (Value.number n) = n.toFloat.map some := rfl
      rw [hvalue, hoperand]
      rcases n.toFloat_cases with ⟨hfit, hn⟩ | ⟨hfit, x, hn⟩
      · exact Or.inl ⟨by rw [hfit]; rfl, by rw [hn]; rfl⟩
      · exact Or.inr ⟨by rw [hfit]; rfl, some x, by rw [hn]; rfl⟩

/-- An operation fails exactly if one of its sides is beyond the floats. -/
theorem arithmetic_cases (op : Operator) (l r : Value) :
    ((l.isOverlarge = true ∨ r.isOverlarge = true) ∧
        arithmetic op l r = .error .wholeTooLarge) ∨
      (¬(l.isOverlarge = true ∨ r.isOverlarge = true) ∧ ∃ v, arithmetic op l r = .ok v) := by
  rcases operand_cases l with ⟨hl, hleft⟩ | ⟨hl, x, hleft⟩
  · exact Or.inl ⟨Or.inl hl, arithmetic_error_left hleft⟩
  · rcases operand_cases r with ⟨hr, hright⟩ | ⟨hr, y, hright⟩
    · exact Or.inl ⟨Or.inr hr, arithmetic_error_right hleft hright⟩
    · refine Or.inr ⟨by rw [hl, hr]; decide, ?_⟩
      rcases arithmetic_of_operands op hleft hright with hok | ⟨z, hok⟩
      · exact ⟨_, hok⟩
      · exact ⟨_, hok⟩

/-- A computation over values that fails exactly if one of them has a number beyond the floats in
    it. -/
def NeedsFloats {α : Type} (f : List Value → Except Fault α) : Prop :=
  ∀ vs, ((∃ v ∈ vs, v.fitsFloat = false) ∧ f vs = .error .wholeTooLarge) ∨
    ((∀ v ∈ vs, v.fitsFloat = true) ∧ ∃ x, f vs = .ok x)

theorem mapM_toFloat_cases (ss : List Scalar) :
    ((∃ s ∈ ss, s.fitsFloat = false) ∧
        (ss.filterMap scalarNumber?).mapM Number.toFloat = .error .wholeTooLarge) ∨
      ((∀ s ∈ ss, s.fitsFloat = true) ∧
        ∃ xs, (ss.filterMap scalarNumber?).mapM Number.toFloat = .ok xs) := by
  induction ss with
  | nil => exact Or.inr ⟨fun s hs => absurd hs List.not_mem_nil, [], rfl⟩
  | cons s ss ih =>
    cases hnumber : scalarNumber? s with
    | none =>
      have hfit : s.fitsFloat = true := by
        cases s with
        | number n => cases hnumber
        | blank | flag | text => rfl
      rw [List.filterMap_cons_none hnumber]
      exact ih.imp
        (fun ⟨⟨t, ht, hbad⟩, herror⟩ => ⟨⟨t, List.mem_cons_of_mem s ht, hbad⟩, herror⟩)
        (fun ⟨hall, hok⟩ => ⟨List.forall_mem_cons.mpr ⟨hfit, hall⟩, hok⟩)
    | some n =>
      have hs : s = .number n := by
        cases s with
        | number m => cases hnumber; rfl
        | blank | flag | text => cases hnumber
      rw [List.filterMap_cons_some hnumber, List.mapM_cons, hs]
      rcases n.toFloat_cases with ⟨hfit, hn⟩ | ⟨hfit, x, hn⟩
      · rw [hn]
        exact Or.inl ⟨⟨.number n, List.mem_cons_self, hfit⟩, rfl⟩
      · rw [hn]
        rcases ih with ⟨⟨t, ht, hbad⟩, herror⟩ | ⟨hall, xs, hok⟩
        · rw [herror]
          exact Or.inl ⟨⟨t, List.mem_cons_of_mem _ ht, hbad⟩, rfl⟩
        · rw [hok]
          exact Or.inr ⟨List.forall_mem_cons.mpr ⟨hfit, hall⟩, x :: xs, rfl⟩

theorem mem_leavesAll_iff {vs : List Value} {s : Scalar} :
    s ∈ Value.leavesAll vs ↔ ∃ v ∈ vs, s ∈ v.leaves := by
  induction vs with
  | nil => simp [Value.leavesAll]
  | cons v vs ih => simp [Value.leavesAll, ih]

/-- The numbers among values can be had as floats exactly if all of them have one. -/
theorem numbersOf_needsFloats : NeedsFloats numbersOf := by
  intro vs
  rcases mapM_toFloat_cases (Value.leavesAll vs) with ⟨⟨s, hs, hbad⟩, herror⟩ | ⟨hall, hok⟩
  · obtain ⟨v, hv, hleaf⟩ := mem_leavesAll_iff.mp hs
    refine Or.inl ⟨⟨v, hv, ?_⟩, herror⟩
    rw [Value.fitsFloat, List.all_eq_false]
    exact ⟨s, hleaf, by rw [hbad]; decide⟩
  · refine Or.inr ⟨fun v hv => ?_, hok⟩
    rw [Value.fitsFloat, List.all_eq_true]
    exact fun s hs => hall s (mem_leavesAll_iff.mpr ⟨v, hv, hs⟩)

/-- What is computed from the numbers among values, and never fails by itself, needs them as
    floats. -/
theorem NeedsFloats.bind {α : Type} {f : List Float → Except Fault α}
    (hf : ∀ xs, ∃ x, f xs = .ok x) : NeedsFloats fun vs => numbersOf vs >>= f := by
  intro vs
  show (_ ∧ (numbersOf vs >>= f) = _) ∨ (_ ∧ ∃ x, (numbersOf vs >>= f) = .ok x)
  rcases numbersOf_needsFloats vs with ⟨hbad, herror⟩ | ⟨hall, xs, hok⟩
  · rw [herror]
    exact Or.inl ⟨hbad, rfl⟩
  · rw [hok]
    exact Or.inr ⟨hall, hf xs⟩

theorem sumValues_needsFloats : NeedsFloats sumValues := by
  refine NeedsFloats.bind fun xs => ?_
  cases xs with
  | nil => exact ⟨_, rfl⟩
  | cons x xs => exact ⟨_, rfl⟩

theorem choose_needsFloats (prefers : Float → Float → Bool) : NeedsFloats (choose prefers) := by
  refine NeedsFloats.bind fun xs => ?_
  cases xs with
  | nil => exact ⟨_, rfl⟩
  | cons x xs => exact ⟨_, rfl⟩

end Function

/-! ## 2. Formulas -/

namespace Workbook

variable {w : Workbook} {key : String}

/-- The key's formula is an operation on a whole number beyond the floats, where what the formula
    reads stands for what it is worth. -/
def Overflows (w : Workbook) (key : String) : Prop :=
  ∃ value : String → Value, (∀ read ∈ w.reads key, w.Worth read (value read)) ∧
    ∃ sheet op l r, w.formula? key = some (sheet, .binary op l r) ∧
      ((w.leafValue value sheet l).isOverlarge = true ∨
        (w.leafValue value sheet r).isOverlarge = true)

/-- A formula fails by itself exactly if it overflows. -/
theorem keyValue_cases {value : String → Value}
    (hr : ∀ read ∈ w.reads key, w.Worth read (value read)) :
    (w.Overflows key ∧ w.keyValue value key = .error .wholeTooLarge) ∨
      (¬w.Overflows key ∧ ∃ v, w.keyValue value key = .ok v) := by
  have hother : (∀ sheet op l r, w.formula? key ≠ some (sheet, .binary op l r)) →
      ¬w.Overflows key :=
    fun hne ⟨_, _, sheet, op, l, r, hf, _⟩ => hne sheet op l r hf
  unfold keyValue
  cases hf : w.formula? key with
  | none => exact Or.inr ⟨hother fun _ _ _ _ h => (by cases hf.symm.trans h), _, rfl⟩
  | some p =>
    obtain ⟨sheet, tree⟩ := p
    cases tree with
    | leaf | call | unsupported =>
      exact Or.inr ⟨hother fun _ _ _ _ h => (by cases hf.symm.trans h), _, rfl⟩
    | binary op l r =>
      have hiff : w.Overflows key ↔ (w.leafValue value sheet l).isOverlarge = true ∨
          (w.leafValue value sheet r).isOverlarge = true := by
        refine ⟨?_, fun hbad => ⟨value, hr, sheet, op, l, r, hf, hbad⟩⟩
        rintro ⟨value', hr', sheet', op', l', r', hf', hbad⟩
        cases hf.symm.trans hf'
        -- what is read has one worth, so the operands are the same
        have hsame : ∀ read ∈ (Tree.binary op l r).keys sheet, value' read = value read := by
          intro read hread
          have hmem : read ∈ w.reads key := by
            rw [reads_of_formula? hf]
            exact Tree.mem_references_iff.mpr hread
          exact (hr' read hmem).unique (hr read hmem)
        rwa [leafValue_congr fun read h => hsame read (List.mem_append_left _ h),
          leafValue_congr fun read h => hsame read (List.mem_append_right _ h)] at hbad
      rw [hiff]
      exact Function.arithmetic_cases op _ _

/-! ## 3. Keys -/

/-- The faults that a key leads to: one for a circle, and one for an operation on a whole number
    beyond the floats. -/
inductive Surfaces (w : Workbook) (key : String) : Fault → Prop where
  /-- The key leads to a circle. -/
  | circular {k : String} {cycle : List String} (hk : w.Reaches key k) (hcircle : w.OnCircle k)
      (hcycle : w.Circle cycle) : Surfaces w key (.circular cycle)
  /-- The key leads to a formula that overflows. -/
  | overflow {k : String} (hk : w.Reaches key k) (h : w.Overflows k) :
      Surfaces w key .wholeTooLarge

/-- A key that overflows is worth nothing. -/
theorem Worth.not_overflows {v : Value} (h : w.Worth key v) : ¬w.Overflows key := by
  intro hover
  induction h using Worth.byReads with
  | step key v value hr hv _ =>
    rcases keyValue_cases hr with ⟨-, herror⟩ | ⟨hnot, -⟩
    · rw [herror] at hv
      cases hv
    · exact hnot hover

/-- **A key is settled with its worth, or with a fault that it leads to.** -/
theorem resolve_gives (w : Workbook) (key : String) :
    (∃ v, w.Worth key v ∧ w.Gives (w.resolve key) (.ok v)) ∨
      ∃ fault, w.Surfaces key fault ∧ w.Gives (w.resolve key) (.error fault) := by
  obtain ⟨-, ⟨v, hv, -⟩ | ⟨fault, hstops, -⟩⟩ := w.resolve_cases key sound_nil
  · exact Or.inl ⟨v, hv, hv.gives_resolve⟩
  · refine Or.inr ⟨fault, ?_, hstops.gives_resolve⟩
    rcases hstops.cause (List.isChain_singleton key) List.nodup_nil with
      ⟨k, cycle, hk, hcircle, rfl, hcycle⟩ | ⟨k, value, hk, hr, hv⟩
    · exact .circular hk hcircle hcycle
    · rcases keyValue_cases hr with ⟨hover, herror⟩ | ⟨-, v, hok⟩
      · cases herror.symm.trans hv
        exact .overflow hk hover
      · cases hok.symm.trans hv

/-- Keys are settled with their worths, one after the other, or with the first fault that one of
    them leads to. -/
theorem mapM_resolve_gives (w : Workbook) (keys : List String) :
    (∃ vs, List.Forall₂ w.Worth keys vs ∧ w.Gives (keys.mapM w.resolve) (.ok vs)) ∨
      ∃ key ∈ keys, ∃ fault, w.Surfaces key fault ∧
        w.Gives (keys.mapM w.resolve) (.error fault) :=
  mapM_gives w.resolve_gives keys

/-- A value of one of the keys, told by the keys or by the values. -/
theorem exists_worth_iff {keys : List String} {vs : List Value}
    (h : List.Forall₂ w.Worth keys vs) (P : Value → Prop) :
    (∃ v ∈ vs, P v) ↔ ∃ key ∈ keys, ∃ v, w.Worth key v ∧ P v := by
  induction h with
  | nil => simp
  | @cons key v keys vs hv hvs ih =>
    have hfirst : P v ↔ ∃ u, w.Worth key u ∧ P u :=
      ⟨fun hp => ⟨v, hv, hp⟩, fun ⟨u, hu, hp⟩ => hu.unique hv ▸ hp⟩
    rw [List.exists_mem_cons_iff, List.exists_mem_cons_iff, hfirst, ih]

theorem exists_worth_of_mem {keys : List String} {vs : List Value}
    (h : List.Forall₂ w.Worth keys vs) (hkey : key ∈ keys) : ∃ v, w.Worth key v := by
  induction h with
  | nil => cases hkey
  | cons hv hvs ih =>
    rcases List.mem_cons.mp hkey with rfl | hkey
    · exact ⟨_, hv⟩
    · exact ih hkey

theorem Overflows.not_operandsFit (h : w.Overflows key) : ¬w.OperandsFit key := by
  obtain ⟨value, hr, sheet, op, l, r, hf, hbad⟩ := h
  intro hfit
  obtain ⟨hl, hright⟩ := hfit value hr sheet op l r hf
  rcases hbad with hbad | hbad
  · exact absurd hl (Bool.eq_false_iff.mp (Value.not_fitsFloat_of_isOverlarge hbad))
  · exact absurd hright (Bool.eq_false_iff.mp (Value.not_fitsFloat_of_isOverlarge hbad))

end Workbook

/-! ## 4. Look-ups -/

namespace Query

/-- Whether a query is over the numbers of a range. -/
def isOverRange : Query → Bool
  | .sum .. | .max .. | .min .. => true
  | _ => false

/-- Whether a query looks up a cell, or the numbers of a range. -/
def isLookup : Query → Bool
  | .cell .. => true
  | q => q.isOverRange

/-- The keys that a look-up settles. -/
def keys : Query → List String
  | .cell sheet ref => (refKey? sheet ref).toList
  | .sum sheet first last | .max sheet first last | .min sheet first last =>
    ((readRange? (first ++ ":" ++ last)).getD []).map (·.key sheet)
  | _ => []

end Query

theorem Workbook.cellValue_eq (w : Workbook) (sheet ref : String) :
    w.cellValue sheet ref = (refKey? sheet ref).elim (pure .blank) w.resolve := by
  rw [Workbook.cellValue, refKey?]
  generalize splitSheet ref = parts
  obtain ⟨own, cell⟩ := parts
  cases ha : Address.read? cell <;> simp [ha]

/-- To look up a cell is to settle its key. -/
theorem Evaluator.run_answer_cell (e : Evaluator) {sheet ref key : String}
    (hkey : refKey? sheet ref = some key) (cache : Cache) :
    (e.answer (.cell sheet ref)).run cache =
      (((e.workbook.resolve key).run cache).1.map .value,
        ((e.workbook.resolve key).run cache).2) := by
  show (e.workbook.cellValue sheet ref >>= fun v => pure (Answer.value v)).run cache = _
  rw [Workbook.cellValue_eq, hkey]
  show (e.workbook.resolve key >>= fun v => pure (Answer.value v)).run cache = _
  cases hout : ((e.workbook.resolve key).run cache).1 with
  | ok v =>
    rw [Workbook.run_bind_ok hout]
    rfl
  | error fault =>
    rw [Workbook.run_bind_error hout]
    rfl

theorem Workbook.rangeValues_eq (w : Workbook) (sheet first last : String) :
    w.rangeValues sheet first last = (Query.sum sheet first last).keys.mapM w.resolve := by
  rw [Workbook.rangeValues, Query.keys]
  cases readRange? (first ++ ":" ++ last) with
  | none => rfl
  | some addresses => exact (List.mapM_map (g := w.resolve)).symm

namespace Evaluator

variable {e : Evaluator} {q : Query} {cache : Cache}

/-- Something looked up leads to a circle. -/
def Circular (e : Evaluator) (q : Query) : Prop :=
  ∃ key ∈ q.keys, ∃ k, e.workbook.Reaches key k ∧ e.workbook.OnCircle k

/-- A float is needed for a whole number that has none: something looked up leads to a formula that
    overflows, or the number stands in the range that the query is over. -/
def Overlarge (e : Evaluator) (q : Query) : Prop :=
  (∃ key ∈ q.keys, ∃ k, e.workbook.Reaches key k ∧ e.workbook.Overflows k) ∨
    q.isOverRange = true ∧ ∃ key ∈ q.keys, ∃ v, e.workbook.Worth key v ∧ v.fitsFloat = false

/-- What a look-up gives. -/
inductive Finds (e : Evaluator) (q : Query) : Except Fault Answer → Prop where
  /-- A value: everything looked up has a worth, and the numbers of a range fit. -/
  | value {vs : List Value} (v : Value) (hvs : List.Forall₂ e.workbook.Worth q.keys vs)
      (hfit : q.isOverRange = true → ∀ u ∈ vs, u.fitsFloat = true) : Finds e q (.ok (.value v))
  /-- A fault that something looked up leads to. -/
  | surfaces {key : String} {fault : Fault} (hkey : key ∈ q.keys)
      (hs : e.workbook.Surfaces key fault) : Finds e q (.error fault)
  /-- A number of the range does not fit. -/
  | overlarge {vs : List Value} (hq : q.isOverRange = true)
      (hvs : List.Forall₂ e.workbook.Worth q.keys vs) (hbad : ∃ u ∈ vs, u.fitsFloat = false) :
      Finds e q (.error .wholeTooLarge)

/-- What is computed from the values of the keys of a query over a range. -/
theorem finds_overRange {α : Type} {f : List Value → Except Fault α} (toValue : α → Value)
    (hf : Function.NeedsFloats f) (hq : q.isOverRange = true) :
    ∃ outcome, e.Finds q outcome ∧ e.workbook.Gives
      ((q.keys.mapM e.workbook.resolve >>= fun vs => ExceptT.mk (pure (f vs))) >>=
        fun x => pure (.value (toValue x))) outcome := by
  rcases e.workbook.mapM_resolve_gives q.keys with
    ⟨vs, hvs, hgives⟩ | ⟨key, hkey, fault, hs, hgives⟩
  · have hcomputed : e.workbook.Gives
        (q.keys.mapM e.workbook.resolve >>= fun vs => ExceptT.mk (pure (f vs))) (f vs) :=
      hgives.bind_ok (Workbook.gives_lift _)
    rcases hf vs with ⟨hbad, herror⟩ | ⟨hall, x, hok⟩
    · rw [herror] at hcomputed
      exact ⟨_, .overlarge hq hvs hbad, hcomputed.bind_error⟩
    · rw [hok] at hcomputed
      exact ⟨_, .value (toValue x) hvs fun _ => hall, hcomputed.bind_ok (Workbook.gives_pure _)⟩
  · exact ⟨_, .surfaces hkey hs, hgives.bind_error.bind_error⟩

theorem finds_cell (e : Evaluator) (sheet ref : String) :
    ∃ outcome, e.Finds (.cell sheet ref) outcome ∧
      e.workbook.Gives (e.answer (.cell sheet ref)) outcome := by
  have hanswer : e.answer (.cell sheet ref) =
      e.workbook.cellValue sheet ref >>= fun v => pure (.value v) := rfl
  have hfit : ∀ vs : List Value, (Query.cell sheet ref).isOverRange = true →
      ∀ u ∈ vs, u.fitsFloat = true := fun _ hover => Bool.noConfusion hover
  rw [hanswer, Workbook.cellValue_eq]
  cases hkey : refKey? sheet ref with
  | none =>
    have hkeys : (Query.cell sheet ref).keys = [] := by rw [Query.keys, hkey]; rfl
    have hvs : List.Forall₂ e.workbook.Worth (Query.cell sheet ref).keys [] := hkeys ▸ .nil
    exact ⟨_, .value .blank hvs (hfit _), (Workbook.gives_pure _).bind_ok (Workbook.gives_pure _)⟩
  | some key =>
    have hkeys : (Query.cell sheet ref).keys = [key] := by rw [Query.keys, hkey]; rfl
    rcases e.workbook.resolve_gives key with ⟨v, hv, hgives⟩ | ⟨fault, hs, hgives⟩
    · have hvs : List.Forall₂ e.workbook.Worth (Query.cell sheet ref).keys [v] :=
        hkeys ▸ .cons hv .nil
      exact ⟨_, .value v hvs (hfit _), hgives.bind_ok (Workbook.gives_pure _)⟩
    · have hmem : key ∈ (Query.cell sheet ref).keys := hkeys ▸ List.mem_cons_self
      exact ⟨_, .surfaces hmem hs, hgives.bind_error⟩

/-- **A look-up finds a value or a fault**, the same whatever was settled before. -/
theorem finds_answer (e : Evaluator) (hq : q.isLookup = true) :
    ∃ outcome, e.Finds q outcome ∧ e.workbook.Gives (e.answer q) outcome := by
  cases q with
  | cell sheet ref => exact e.finds_cell sheet ref
  | sum sheet first last =>
    rw [answer, Workbook.sumRange, Workbook.rangeValues_eq]
    exact finds_overRange Value.number Function.sumValues_needsFloats rfl
  | max sheet first last =>
    rw [answer, Workbook.maxRange, Workbook.rangeValues_eq]
    exact finds_overRange Value.float (Function.choose_needsFloats _) rfl
  | min sheet first last =>
    rw [answer, Workbook.minRange, Workbook.rangeValues_eq]
    exact finds_overRange Value.float (Function.choose_needsFloats _) rfl
  | calculate | coverage key | keyFigures => cases hq

theorem Finds.value_iff {outcome : Except Fault Answer} (h : e.Finds q outcome) :
    (∃ v, outcome = .ok (.value v)) ↔ ¬e.Circular q ∧ ¬e.Overlarge q := by
  cases h with
  | value v hvs hfit =>
    refine iff_of_true ⟨v, rfl⟩ ⟨?_, ?_⟩
    · rintro ⟨key, hkey, k, hk, hcircle⟩
      obtain ⟨u, hu⟩ := Workbook.exists_worth_of_mem hvs hkey
      obtain ⟨t, ht⟩ := hu.reaches hk
      exact ht.not_onCircle hcircle
    · rintro (⟨key, hkey, k, hk, hover⟩ | ⟨hrange, hbad⟩)
      · obtain ⟨u, hu⟩ := Workbook.exists_worth_of_mem hvs hkey
        obtain ⟨t, ht⟩ := hu.reaches hk
        exact ht.not_overflows hover
      · obtain ⟨u, hu, hnofit⟩ :=
          (Workbook.exists_worth_iff hvs fun v => v.fitsFloat = false).mpr hbad
        rw [hfit hrange u hu] at hnofit
        cases hnofit
  | surfaces hkey hs =>
    refine iff_of_false nofun fun ⟨hcircular, hlarge⟩ => ?_
    cases hs with
    | circular hk hcircle => exact hcircular ⟨_, hkey, _, hk, hcircle⟩
    | overflow hk hover => exact hlarge (Or.inl ⟨_, hkey, _, hk, hover⟩)
  | overlarge hq hvs hbad =>
    exact iff_of_false nofun fun ⟨_, hlarge⟩ =>
      hlarge (Or.inr ⟨hq, (Workbook.exists_worth_iff hvs fun v => v.fitsFloat = false).mp hbad⟩)

theorem Finds.fault {fault : Fault} (h : e.Finds q (.error fault)) :
    (∃ cycle, fault = .circular cycle ∧ e.workbook.Circle cycle ∧ e.Circular q) ∨
      fault = .wholeTooLarge ∧ e.Overlarge q := by
  cases h with
  | surfaces hkey hs =>
    cases hs with
    | circular hk hcircle hcycle => exact Or.inl ⟨_, rfl, hcycle, _, hkey, _, hk, hcircle⟩
    | overflow hk hover => exact Or.inr ⟨rfl, Or.inl ⟨_, hkey, _, hk, hover⟩⟩
  | overlarge hq hvs hbad =>
    exact Or.inr ⟨rfl, Or.inr
      ⟨hq, (Workbook.exists_worth_iff hvs fun v => v.fitsFloat = false).mp hbad⟩⟩

theorem Finds.eq_wholeTooLarge {outcome : Except Fault Answer} (h : e.Finds q outcome)
    (hcircular : ¬e.Circular q) (hlarge : e.Overlarge q) : outcome = .error .wholeTooLarge := by
  cases outcome with
  | ok a =>
    have hvalue : ∃ v, (.ok a : Except Fault Answer) = .ok (.value v) := by
      cases h with
      | value v => exact ⟨v, rfl⟩
    exact absurd hlarge (h.value_iff.mp hvalue).2
  | error fault =>
    rcases h.fault with ⟨-, -, -, hcircle⟩ | ⟨rfl, -⟩
    · exact absurd hcircle hcircular
    · rfl

/-- A workbook that starts with no number beyond the floats never needs the float of one. -/
theorem not_overlarge_of_fitsFloat (h : e.workbook.FitsFloat) (q : Query) : ¬e.Overlarge q := by
  rintro (⟨key, -, k, -, hover⟩ | ⟨-, key, -, v, hv, hnofit⟩)
  · exact hover.not_operandsFit (h.operandsFit k)
  · rw [hv.fitsFloat h] at hnofit
    cases hnofit

/-- **A look-up has a value exactly if nothing looked up leads to a circle and no float is needed
    for a number beyond the floats**; otherwise it has a fault for one of the two, and no other. A
    workbook that starts with no such number leaves only the circles. -/
theorem answer_lookup (e : Evaluator) (hq : q.isLookup = true) (hs : e.workbook.Sound cache) :
    ((∃ v, ((e.answer q).run cache).1 = .ok (.value v)) ↔ ¬e.Circular q ∧ ¬e.Overlarge q) ∧
      (∀ fault, ((e.answer q).run cache).1 = .error fault →
        (∃ cycle, fault = .circular cycle ∧ e.workbook.Circle cycle ∧ e.Circular q) ∨
          fault = .wholeTooLarge ∧ e.Overlarge q) ∧
      (e.workbook.FitsFloat → ¬e.Overlarge q) := by
  obtain ⟨outcome, hfinds, hgives⟩ := e.finds_answer hq
  obtain ⟨hrun, -⟩ := hgives cache hs
  rw [hrun]
  exact ⟨hfinds.value_iff, fun fault hfault => (hfault ▸ hfinds).fault,
    fun hfit => not_overlarge_of_fitsFloat hfit q⟩

theorem answer_lookup_ladder :
    (Query.sum "S" "A1" "B1").isLookup = true ∧ Workbook.ladder.Sound [] ∧
      ∃ v, (((⟨Workbook.ladder, {}⟩ : Evaluator).answer (.sum "S" "A1" "B1")).run []).1 =
        .ok (.value v) := by
  have hlookup : (Query.sum "S" "A1" "B1").isLookup = true := rfl
  have hsound : Workbook.ladder.Sound [] := Workbook.sound_nil
  obtain ⟨hvalue, -, hfits⟩ := answer_lookup ⟨Workbook.ladder, {}⟩ hlookup hsound
  refine ⟨hlookup, hsound, hvalue.mpr ⟨?_, hfits Workbook.ladder_fitsFloat⟩⟩
  rintro ⟨key, -, k, -, hcircle⟩
  exact Workbook.ladder_not_onCircle k hcircle

/-- A whole number beyond the floats, and a formula that adds to it. -/
def towering : Workbook where
  snapshot := ⟨[("S", ⟨"S", [("A1", ⟨"A1", .number (.whole (.pow 10 400)), none⟩),
    ("B1", ⟨"B1", .blank, some "=A1+1"⟩)]⟩)]⟩
  library := .standard
  recompute := false

theorem towering_not_onCircle (key : String) : ¬towering.OnCircle key :=
  Workbook.not_onCircle_of_rank ["S!A1", "S!B1"].idxOf (by decide +kernel) key

theorem towering_worth : towering.Worth "S!A1" (.number (.whole (.pow 10 400))) :=
  .of_formula?_eq_none (by decide)

theorem towering_overflows : towering.Overflows "S!B1" := by
  have hreads : ∀ read ∈ towering.reads "S!B1", read = "S!A1" := by decide +kernel
  refine ⟨towering.stored, fun read hread => ?_, "S", .plus, .cell ⟨none, 1, 1, false, false⟩,
    .literal (.number (.whole 1)), by decide +kernel, Or.inl (by decide +kernel)⟩
  rw [hreads read hread]
  exact towering_worth

deriving instance DecidableEq for Sheet, Snapshot

/-- **A circle is not the only fault of a look-up**: there is none here, and an addition to a number
    beyond the floats has a fault, as have the three queries over it. -/
theorem answer_towering :
    Snapshot.ofValue (.mapping [("S", .mapping [("cells", .mapping
        [("A1", .number (.whole (.pow 10 400))), ("B1", .text "=A1+1")])])]) =
      .ok towering.snapshot ∧
    ∀ q ∈ [Query.cell "S" "B1", .sum "S" "A1" "A1", .max "S" "A1" "A1", .min "S" "A1" "A1"],
      (((⟨towering, {}⟩ : Evaluator).answer q).run []).1 = .error .wholeTooLarge := by
  have hcircular : ∀ q, ¬Circular ⟨towering, {}⟩ q :=
    fun q ⟨_, _, k, _, hcircle⟩ => towering_not_onCircle k hcircle
  have hcell : Overlarge ⟨towering, {}⟩ (.cell "S" "B1") :=
    Or.inl ⟨"S!B1", by decide +kernel, "S!B1", .refl, towering_overflows⟩
  have hrange : ∀ q ∈ [Query.sum "S" "A1" "A1", .max "S" "A1" "A1", .min "S" "A1" "A1"],
      Overlarge ⟨towering, {}⟩ q := by
    have hkeys : ∀ q ∈ [Query.sum "S" "A1" "A1", .max "S" "A1" "A1", .min "S" "A1" "A1"],
        q.isOverRange = true ∧ "S!A1" ∈ q.keys := by decide +kernel
    intro q hq
    obtain ⟨hover, hkey⟩ := hkeys q hq
    exact Or.inr ⟨hover, "S!A1", hkey, _, towering_worth, by decide +kernel⟩
  have hlarge : ∀ q ∈ [Query.cell "S" "B1", .sum "S" "A1" "A1", .max "S" "A1" "A1",
      .min "S" "A1" "A1"], q.isLookup = true ∧ Overlarge ⟨towering, {}⟩ q := by
    simp only [List.forall_mem_cons] at hrange ⊢
    exact ⟨⟨rfl, hcell⟩, ⟨rfl, hrange.1⟩, ⟨rfl, hrange.2.1⟩, ⟨rfl, hrange.2.2.1⟩, nofun⟩
  refine ⟨eq_ok_of_toOption (by decide +kernel), fun q hq => ?_⟩
  obtain ⟨hlookup, hbad⟩ := hlarge q hq
  obtain ⟨outcome, hfinds, hgives⟩ := finds_answer ⟨towering, {}⟩ hlookup
  rw [(hgives [] Workbook.sound_nil).1]
  exact hfinds.eq_wholeTooLarge (hcircular q) hbad

end Evaluator

end Appraisal
