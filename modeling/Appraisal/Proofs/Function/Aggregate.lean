import Appraisal.Function.Library

/-!
# Aggregates

The sum, the largest and the smallest number look through lists of lists, and take what is a number
as they come by it. How the numbers are nested makes no difference.

* `Aggregate` — the three functions;
* `Value.numbers`, `Value.numbersAll` — the numbers in a value and in several, list by list;
* `numbersOf_eq` — what an aggregate looks at are **these numbers as floats**;
* `values_congr` — **the three depend on the numbers from left to right** and on nothing else;
* `Aggregate.apply_list`, `Aggregate.apply_pair` — lists may be opened and joined.
-/

namespace Appraisal

/-! ## 1. The numbers in nested lists -/

mutual

/-- The numbers in a value, list by list. -/
def Value.numbers : Value → List Number
  | .scalar (.number n) => [n]
  | .list vs => Value.numbersAll vs
  | _ => []

/-- The numbers in several values, one value after the other. -/
def Value.numbersAll : List Value → List Number
  | [] => []
  | v :: vs => v.numbers ++ Value.numbersAll vs

end

namespace Function

mutual

theorem filterMap_leaves (v : Value) : v.leaves.filterMap scalarNumber? = v.numbers := by
  cases v with
  | scalar s => cases s <;> rfl
  | list vs => exact filterMap_leavesAll vs
  | mapping entries => rfl

/-- The numbers are the leaves that are numbers. -/
theorem filterMap_leavesAll (vs : List Value) :
    (Value.leavesAll vs).filterMap scalarNumber? = Value.numbersAll vs := by
  cases vs with
  | nil => rfl
  | cons v vs =>
    rw [Value.leavesAll, List.filterMap_append, filterMap_leaves v, filterMap_leavesAll vs,
      Value.numbersAll]

end

/-- **What an aggregate looks at are the numbers in nested lists, as floats.** -/
theorem numbersOf_eq (vs : List Value) :
    numbersOf vs = (Value.numbersAll vs).mapM Number.toFloat := by
  rw [numbersOf, filterMap_leavesAll]

/-! ## 2. The three functions -/

/-- The functions that make one number of many. -/
inductive Aggregate where
  /-- The sum. -/
  | sum
  /-- The largest number. -/
  | max
  /-- The smallest number. -/
  | min
deriving DecidableEq

/-- The aggregate among the built-in functions. -/
def Aggregate.builtin : Aggregate → Builtin
  | .sum => .sum
  | .max => .max
  | .min => .min

/-- The name that a formula calls the aggregate by. -/
def Aggregate.name (g : Aggregate) : String :=
  g.builtin.name

/-- What the aggregate makes of values. -/
def Aggregate.apply (g : Aggregate) (vs : List Value) : Except Fault Value :=
  g.builtin.apply vs

section Aggregates

variable (g : Aggregate)

/-- **The sum, the largest and the smallest number depend on the numbers from left to right**,
    however they are nested. -/
theorem values_congr {vs vs' : List Value} (h : Value.numbersAll vs = Value.numbersAll vs') :
    sumValues vs = sumValues vs' ∧ maxValues vs = maxValues vs' ∧ minValues vs = minValues vs' := by
  have hnumbers : numbersOf vs = numbersOf vs' := by rw [numbersOf_eq, numbersOf_eq, h]
  have hchoose : ∀ prefers, choose prefers vs = choose prefers vs' := fun prefers => by
    rw [choose, choose, hnumbers]
  exact ⟨by rw [sumValues, sumValues, hnumbers], hchoose _, hchoose _⟩

theorem Aggregate.apply_congr {vs vs' : List Value}
    (h : Value.numbersAll vs = Value.numbersAll vs') : g.apply vs = g.apply vs' := by
  obtain ⟨hsum, hmax, hmin⟩ := values_congr h
  cases g with
  | sum => exact congrArg (Except.map Value.number) hsum
  | max => exact congrArg (Except.map Value.float) hmax
  | min => exact congrArg (Except.map Value.float) hmin

theorem numbersAll_append (vs us : List Value) :
    Value.numbersAll (vs ++ us) = Value.numbersAll vs ++ Value.numbersAll us := by
  induction vs with
  | nil => rfl
  | cons v vs ih => rw [List.cons_append, Value.numbersAll, Value.numbersAll, ih, List.append_assoc]

/-- A list counts as the values in it. -/
theorem Aggregate.apply_list (vs : List Value) : g.apply [.list vs] = g.apply vs :=
  g.apply_congr (by rw [Value.numbersAll, Value.numbersAll, Value.numbers, List.append_nil])

/-- Two lists count as one list of the values in both. -/
theorem Aggregate.apply_pair (vs us : List Value) :
    g.apply [.list vs, .list us] = g.apply [.list (vs ++ us)] := by
  refine g.apply_congr ?_
  simp only [Value.numbersAll, Value.numbers, numbersAll_append, List.append_nil]

end Aggregates

end Function

end Appraisal
