import Appraisal.Proofs.Evaluation.Worth

/-!
# The one fault of a formula

A formula that is given the value of each key it reads has a value itself, but for one case: it is
an operation, and one of its operands is a whole number beyond the floats.

* `Number.fitsFloat`, `Scalar.fitsFloat`, `Value.fitsFloat` — what an operand can be;
* `Function.arithmetic_ok`, `Function.arithmetic_error` — when the four operations fail;
* `Workbook.OperandsFit` — the operands of a key's formula can be such, whatever it reads;
* `Workbook.keyValue_error` — **the only fault that a formula has by itself**;
* `Function.Library.KeepsFloats`, `Workbook.FitsFloat` — functions that make no number without a
  float, workbooks that start with none; `Worth.fitsFloat`, `FitsFloat.operandsFit` — such a
  workbook never comes by one.
-/

namespace Appraisal

open Appraisal.Formula

/-! ## 1. What fits a float -/

/-- Whether a number has a nearest float. Every number does, save whole ones that are too large. -/
def Number.fitsFloat : Number → Bool
  | .whole n => !(Float.ofInt n).isInf
  | .float _ => true

/-- Whether a scalar is no number without a float. -/
def Scalar.fitsFloat : Scalar → Bool
  | .number n => n.fitsFloat
  | _ => true

/-- Whether no leaf of a value is a number without a float. -/
def Value.fitsFloat (v : Value) : Bool :=
  v.leaves.all Scalar.fitsFloat

theorem Value.fitsFloat_scalar (s : Scalar) : (Value.scalar s).fitsFloat = s.fitsFloat := by
  rw [fitsFloat, Value.leaves, List.all_cons, List.all_nil, Bool.and_true]

theorem Value.fitsFloat_list {vs : List Value} (h : ∀ v ∈ vs, v.fitsFloat = true) :
    (Value.list vs).fitsFloat = true := by
  rw [fitsFloat, Value.leaves]
  induction vs with
  | nil => rfl
  | cons v vs ih =>
    rw [Value.leavesAll, List.all_append, Bool.and_eq_true]
    exact ⟨h v List.mem_cons_self, ih fun u hu => h u (List.mem_cons_of_mem _ hu)⟩

theorem Number.toFloat_cases (n : Number) :
    (n.fitsFloat = false ∧ n.toFloat = .error .wholeTooLarge) ∨
      (n.fitsFloat = true ∧ ∃ x, n.toFloat = .ok x) := by
  cases n with
  | float x => exact Or.inr ⟨rfl, x, rfl⟩
  | whole n =>
    cases hinf : (Float.ofInt n).isInf with
    | true => exact Or.inl ⟨by rw [fitsFloat, hinf]; rfl, by rw [toFloat, hinf]; rfl⟩
    | false => exact Or.inr ⟨by rw [fitsFloat, hinf]; rfl, _, by rw [toFloat, hinf]; rfl⟩

theorem Number.toFloat_error {n : Number} {fault : Fault} (h : n.toFloat = .error fault) :
    fault = .wholeTooLarge ∧ n.fitsFloat = false := by
  rcases n.toFloat_cases with ⟨hfit, hn⟩ | ⟨-, x, hn⟩
  · rw [hn] at h
    cases h
    exact ⟨rfl, hfit⟩
  · rw [hn] at h
    cases h

namespace Function

/-! ## 2. The four operations -/

theorem operand_error {v : Value} {fault : Fault} (h : operand v = .error fault) :
    fault = .wholeTooLarge ∧ v.fitsFloat = false := by
  cases v with
  | list vs => cases h
  | mapping es => cases h
  | scalar s =>
    cases s with
    | blank => cases h
    | flag b => cases h
    | text s => cases h
    | number n =>
      have hfloat : n.toFloat.map some = .error fault := h
      rw [Value.fitsFloat_scalar]
      cases hn : n.toFloat with
      | ok x =>
        rw [hn] at hfloat
        cases hfloat
      | error cause =>
        rw [hn] at hfloat
        cases hfloat
        exact Number.toFloat_error hn

theorem arithmetic_error_left {op : Operator} {l r : Value} {fault : Fault}
    (h : operand l = .error fault) : arithmetic op l r = .error fault := by
  rw [arithmetic, withOperands, h]
  rfl

theorem arithmetic_error_right {op : Operator} {l r : Value} {x : Option Float} {fault : Fault}
    (hl : operand l = .ok x) (hr : operand r = .error fault) :
    arithmetic op l r = .error fault := by
  rw [arithmetic, withOperands, hl, hr]
  rfl

/-- An operation on operands gives a float, or nothing where one of them is no operand. -/
theorem arithmetic_of_operands (op : Operator) {l r : Value} {x y : Option Float}
    (hl : operand l = .ok x) (hr : operand r = .ok y) :
    arithmetic op l r = .ok .blank ∨ ∃ z, arithmetic op l r = .ok (.float z) := by
  rw [arithmetic, withOperands, hl, hr]
  cases x with
  | none => exact Or.inl rfl
  | some x =>
    cases y with
    | none => exact Or.inl rfl
    | some y => exact Or.inr ⟨operate op x y, rfl⟩

/-- An operation fails on a whole number beyond the floats, and on nothing else. -/
theorem arithmetic_error {op : Operator} {l r : Value} {fault : Fault}
    (h : arithmetic op l r = .error fault) :
    fault = .wholeTooLarge ∧ (l.fitsFloat = false ∨ r.fitsFloat = false) := by
  cases hl : operand l with
  | error cause =>
    rw [arithmetic_error_left hl] at h
    cases h
    exact ⟨(operand_error hl).1, Or.inl (operand_error hl).2⟩
  | ok x =>
    cases hr : operand r with
    | error cause =>
      rw [arithmetic_error_right hl hr] at h
      cases h
      exact ⟨(operand_error hr).1, Or.inr (operand_error hr).2⟩
    | ok y =>
      rcases arithmetic_of_operands op hl hr with hok | ⟨z, hok⟩
      all_goals rw [hok] at h
      all_goals cases h

/-- What an operation gives fits a float. -/
theorem arithmetic_ok {op : Operator} {l r v : Value} (h : arithmetic op l r = .ok v) :
    v.fitsFloat = true := by
  cases hl : operand l with
  | error cause =>
    rw [arithmetic_error_left hl] at h
    cases h
  | ok x =>
    cases hr : operand r with
    | error cause =>
      rw [arithmetic_error_right hl hr] at h
      cases h
    | ok y =>
      rcases arithmetic_of_operands op hl hr with hok | ⟨z, hok⟩
      all_goals rw [hok] at h
      all_goals cases h
      all_goals rw [Value.fitsFloat_scalar]
      all_goals rfl

end Function

/-! ## 3. Formulas -/

namespace Workbook

variable {w : Workbook} {key : String}

/-- No operand of the key's formula is a whole number beyond the floats, where what the formula
    reads stands for what it is worth. -/
def OperandsFit (w : Workbook) (key : String) : Prop :=
  ∀ value : String → Value, (∀ read ∈ w.reads key, w.Worth read (value read)) →
    ∀ sheet op l r, w.formula? key = some (sheet, .binary op l r) →
      (w.leafValue value sheet l).fitsFloat = true ∧ (w.leafValue value sheet r).fitsFloat = true

/-- **The only fault that a formula has by itself**: it is an operation on a whole number beyond
    the floats. -/
theorem keyValue_error {value : String → Value} {fault : Fault}
    (h : w.keyValue value key = .error fault) :
    fault = .wholeTooLarge ∧ ∃ sheet op l r, w.formula? key = some (sheet, .binary op l r) ∧
      ((w.leafValue value sheet l).fitsFloat = false ∨
        (w.leafValue value sheet r).fitsFloat = false) := by
  unfold keyValue at h
  cases hf : w.formula? key with
  | none =>
    rw [hf] at h
    cases h
  | some p =>
    obtain ⟨sheet, tree⟩ := p
    rw [hf] at h
    cases tree with
    | leaf l => cases h
    | call name args => cases h
    | unsupported text cause => cases h
    | binary op l r =>
      obtain ⟨hfault, hfit⟩ := Function.arithmetic_error h
      exact ⟨hfault, sheet, op, l, r, rfl, hfit⟩

/-- A formula of operands that fit has a value. -/
theorem OperandsFit.keyValue_ne_error (h : w.OperandsFit key) {value : String → Value}
    (hr : ∀ read ∈ w.reads key, w.Worth read (value read)) {fault : Fault} :
    w.keyValue value key ≠ .error fault := by
  intro hv
  obtain ⟨-, sheet, op, l, r, hf, hfit⟩ := keyValue_error hv
  obtain ⟨hl, hr⟩ := h value hr sheet op l r hf
  rw [hl, hr] at hfit
  rcases hfit with hfit | hfit
  all_goals cases hfit

end Workbook

/-! ## 4. Workbooks without numbers beyond the floats -/

namespace Function

/-- A library of functions that make no number without a float of arguments without one. -/
def Library.KeepsFloats (l : Library) : Prop :=
  ∀ d ∈ l.definitions, ∀ args v, (∀ a ∈ args, a.fitsFloat = true) →
    d.2.apply args = .ok v → v.fitsFloat = true

theorem fitsFloat_getD {args : List Value} (h : ∀ a ∈ args, a.fitsFloat = true) (i : Nat)
    {default : Value} (hd : default.fitsFloat = true) : (args[i]?.getD default).fitsFloat = true := by
  cases ha : args[i]? with
  | none => exact hd
  | some a => exact h a (List.mem_of_getElem? ha)

/-- A computation of a float gives nothing else. -/
theorem fitsFloat_of_map {m : Except Fault Float} {v : Value} (h : m.map Value.float = .ok v) :
    v.fitsFloat = true := by
  cases m with
  | error fault => cases h
  | ok x =>
    cases h
    exact Value.fitsFloat_scalar _

theorem sumValues_fitsFloat {vs : List Value} {n : Number} (h : sumValues vs = .ok n) :
    n.fitsFloat = true := by
  unfold sumValues at h
  cases hn : numbersOf vs with
  | error fault =>
    rw [hn] at h
    cases h
  | ok xs =>
    rw [hn] at h
    cases xs with
    | nil =>
      cases h
      decide
    | cons x xs =>
      cases h
      rfl

theorem exponential_fitsFloat {a v : Value} (h : exponential a = .ok v) : v.fitsFloat = true := by
  unfold exponential at h
  cases ho : operand a with
  | error fault =>
    rw [ho] at h
    cases h
  | ok x =>
    rw [ho] at h
    cases x with
    | none =>
      cases h
      exact Value.fitsFloat_scalar _
    | some x =>
      cases h
      exact Value.fitsFloat_scalar _

theorem Builtin.apply_fitsFloat {b : Builtin} {args : List Value} {v : Value}
    (h : ∀ a ∈ args, a.fitsFloat = true) (hv : b.apply args = .ok v) : v.fitsFloat = true := by
  have blank : Value.blank.fitsFloat = true := Value.fitsFloat_scalar _
  cases b with
  | sum =>
    cases hs : sumValues args with
    | error fault =>
      rw [Builtin.apply, hs] at hv
      cases hv
    | ok n =>
      rw [Builtin.apply, hs] at hv
      cases hv
      rw [Value.fitsFloat_scalar]
      exact sumValues_fitsFloat hs
  | max => exact fitsFloat_of_map hv
  | min => exact fitsFloat_of_map hv
  | rri => exact fitsFloat_of_map hv
  | ifThen =>
    cases hv
    unfold ifStatement
    split
    · exact fitsFloat_getD h 1 blank
    · exact fitsFloat_getD h 2 (Value.fitsFloat_scalar _)
  | ifError =>
    cases hv
    unfold Function.ifError
    split
    · exact fitsFloat_getD h 1 blank
    · exact fitsFloat_getD h 0 blank
  | log =>
    cases hv
    exact Value.fitsFloat_scalar _
  | ln =>
    cases hv
    exact Value.fitsFloat_scalar _
  | exp => exact exponential_fitsFloat hv

/-- The built-in functions make no number without a float. -/
theorem Library.standard_keepsFloats : Library.standard.KeepsFloats := by
  intro d hd args v hargs hv
  obtain ⟨b, -, rfl⟩ := List.mem_map.mp hd
  exact Builtin.apply_fitsFloat hargs hv

end Function

/-- Whether no literal of a formula is a number without a float. -/
def Formula.Leaf.fitsFloat : Leaf → Bool
  | .literal s => s.fitsFloat
  | .cell _ => true

/-- Whether no literal of an argument is a number without a float. -/
def Formula.Argument.fitsFloat : Argument → Bool
  | .leaf l => l.fitsFloat
  | .range _ => true

/-- Whether no literal of a formula is a number without a float. -/
def Formula.Tree.fitsFloat : Tree → Bool
  | .leaf l => l.fitsFloat
  | .binary _ l r => l.fitsFloat && r.fitsFloat
  | .call _ args => args.all Argument.fitsFloat
  | .unsupported _ _ => true

namespace Workbook

variable {w : Workbook} {key : String}

/-- No stored number and no literal of a formula is without a float, and the functions make
    none. -/
structure FitsFloat (w : Workbook) : Prop where
  cells : ∀ s ∈ w.snapshot.sheets, ∀ c ∈ s.2.cells,
    c.2.value.fitsFloat = true ∧ (w.tree c.2).fitsFloat = true
  library : w.library.KeepsFloats

/-- The cell of a key is among the captured ones. -/
theorem mem_of_cell? {sheet : String} {c : Cell} (h : w.cell? key = some (sheet, c)) :
    ∃ sh, (sheet, sh) ∈ w.snapshot.sheets ∧ ∃ ref, (ref, c) ∈ sh.cells := by
  obtain ⟨⟨name, ref⟩, -, hcell⟩ := Option.bind_eq_some_iff.mp h
  obtain ⟨found, hfound, heq⟩ := Option.bind_eq_some_iff.mp hcell
  cases heq
  obtain ⟨sh, hsheet, hget⟩ := Option.bind_eq_some_iff.mp hfound
  exact ⟨sh, Listing.mem_of_get? hsheet, _, Listing.mem_of_get? hget⟩

section

variable {value : String → Value} {sheet : String}

theorem leafValue_fitsFloat {l : Leaf} (hl : l.fitsFloat = true)
    (h : ∀ read ∈ l.keys sheet, (value read).fitsFloat = true) :
    (w.leafValue value sheet l).fitsFloat = true := by
  cases l with
  | literal s =>
    rw [leafValue, Value.fitsFloat_scalar]
    exact hl
  | cell a =>
    rw [leafValue]
    split
    · exact h _ List.mem_cons_self
    · exact Value.fitsFloat_scalar _

theorem argumentValue_fitsFloat {a : Argument} (ha : a.fitsFloat = true)
    (h : ∀ read ∈ a.keys sheet, (value read).fitsFloat = true) :
    (w.argumentValue value sheet a).fitsFloat = true := by
  cases a with
  | leaf l => exact leafValue_fitsFloat ha h
  | range r =>
    refine Value.fitsFloat_list fun v hv => ?_
    obtain ⟨a, ha, rfl⟩ := List.mem_map.mp hv
    exact h _ (List.mem_map_of_mem ha)

theorem callValue_fitsFloat (hl : w.library.KeepsFloats) {name : String} {args : List Value}
    (h : ∀ a ∈ args, a.fitsFloat = true) : (w.callValue name args).fitsFloat = true := by
  have blank : Value.blank.fitsFloat = true := Value.fitsFloat_scalar _
  unfold callValue
  cases hf : w.library.find? name with
  | none => exact blank
  | some d =>
    show ((d.apply args).toOption.getD .blank).fitsFloat = true
    cases hd : d.apply args with
    | error fault => exact blank
    | ok v => exact hl _ (Listing.mem_of_get? hf) args v h hd

theorem treeValue_fitsFloat (hl : w.library.KeepsFloats) {t : Tree} (ht : t.fitsFloat = true)
    (h : ∀ read ∈ t.references sheet, (value read).fitsFloat = true) {v : Value}
    (hv : w.treeValue value sheet t = .ok v) : v.fitsFloat = true := by
  have hk : ∀ read ∈ t.keys sheet, (value read).fitsFloat = true :=
    fun read hr => h read (Tree.mem_references_iff.mpr hr)
  cases t with
  | leaf l =>
    cases hv
    exact leafValue_fitsFloat ht hk
  | binary op l r => exact Function.arithmetic_ok hv
  | call name args =>
    cases hv
    refine callValue_fitsFloat hl fun v hv => ?_
    obtain ⟨a, ha, rfl⟩ := List.mem_map.mp hv
    exact argumentValue_fitsFloat (List.all_eq_true.mp ht a ha) fun read hr =>
      hk read (List.mem_flatMap.mpr ⟨a, ha, hr⟩)
  | unsupported text fault =>
    cases hv
    exact Value.fitsFloat_scalar _

end

theorem FitsFloat.tree (h : w.FitsFloat) {sheet : String} {t : Tree}
    (hf : w.formula? key = some (sheet, t)) : t.fitsFloat = true := by
  obtain ⟨c, hc, -, rfl⟩ := formula?_eq_some hf
  obtain ⟨sh, hsheet, ref, hmem⟩ := mem_of_cell? hc
  exact (h.cells _ hsheet _ hmem).2

theorem FitsFloat.stored (h : w.FitsFloat) (key : String) : (w.stored key).fitsFloat = true := by
  unfold Workbook.stored
  split
  · rename_i sheet c hc
    obtain ⟨sh, hsheet, ref, hmem⟩ := mem_of_cell? hc
    rw [Value.fitsFloat_scalar]
    exact (h.cells _ hsheet _ hmem).1
  · exact Value.fitsFloat_scalar _

/-- **No key is worth a number without a float** where none is captured. -/
theorem Worth.fitsFloat {v : Value} (hv : w.Worth key v) (h : w.FitsFloat) :
    v.fitsFloat = true := by
  induction hv using Worth.byReads with
  | step key v value hr hval ih =>
    unfold keyValue at hval
    cases hf : w.formula? key with
    | none =>
      rw [hf] at hval
      cases hval
      exact h.stored key
    | some p =>
      obtain ⟨sheet, t⟩ := p
      rw [hf] at hval
      rw [reads_of_formula? hf] at ih
      exact treeValue_fitsFloat h.library (h.tree hf) ih hval

theorem FitsFloat.operandsFit (h : w.FitsFloat) (key : String) : w.OperandsFit key := by
  intro value hr sheet op l r hf
  have hread : ∀ read ∈ (Tree.binary op l r).keys sheet, (value read).fitsFloat = true := by
    intro read hread
    refine (hr read ?_).fitsFloat h
    rw [reads_of_formula? hf]
    exact Tree.mem_references_iff.mpr hread
  have hlits : (l.fitsFloat && r.fitsFloat) = true := h.tree hf
  rw [Bool.and_eq_true] at hlits
  exact ⟨leafValue_fitsFloat hlits.1 fun read h => hread read (List.mem_append_left _ h),
    leafValue_fitsFloat hlits.2 fun read h => hread read (List.mem_append_right _ h)⟩

end Workbook

end Appraisal
