import Appraisal.Listing
import Appraisal.Number.Basic
import Appraisal.Number.Digits
import Appraisal.Text.Quoted

/-!
# Values

* `Scalar` — what one cell can hold: nothing, a flag, a number or a text;
* `Value` — what data and formulas are made of: a scalar, a list or a mapping;
* `Value.isTrue` — whether a condition counts as met;
* `Value.shown` — a value as a message shows it;
* `Value.leaves` — **the scalars of nested lists, from left to right**.
-/

namespace Appraisal

/-! ## 1. Scalars and values -/

/-- What one cell can hold. -/
inductive Scalar where
  /-- Nothing. -/
  | blank
  /-- True or false. -/
  | flag (b : Bool)
  /-- A number. -/
  | number (n : Number)
  /-- A text. -/
  | text (s : String)
deriving DecidableEq

/-- A scalar, a list of values, or a mapping from names to values. -/
inductive Value where
  /-- A single scalar. -/
  | scalar (s : Scalar)
  /-- Several values in order. -/
  | list (vs : List Value)
  /-- Named values in order. -/
  | mapping (entries : List (String × Value))

namespace Value

/-- The absent value. -/
abbrev blank : Value := .scalar .blank

/-- A flag as a value. -/
abbrev flag (b : Bool) : Value := .scalar (.flag b)

/-- A number as a value. -/
abbrev number (n : Number) : Value := .scalar (.number n)

/-- A whole number as a value. -/
abbrev whole (n : Int) : Value := .scalar (.number (.whole n))

/-- A float as a value. -/
abbrev float (x : Float) : Value := .scalar (.number (.float x))

/-- A text as a value. -/
abbrev text (s : String) : Value := .scalar (.text s)

/-- The scalar that the value is, if it is one. -/
def scalar? : Value → Option Scalar
  | .scalar s => some s
  | _ => none

theorem eq_scalar_of_scalar? {v : Value} {s : Scalar} (h : v.scalar? = some s) : v = .scalar s := by
  cases v with
  | scalar t => exact congrArg Value.scalar (Option.some.inj h)
  | list | mapping => cases h

/-- The number that the value is, if it is one. Flags are no numbers. -/
def number? : Value → Option Number
  | .scalar (.number n) => some n
  | _ => none

end Value

/-! ## 2. Conditions -/

/-- Whether a number differs from zero. The undefined number does. -/
def Number.isNonzero : Number → Bool
  | .whole n => n != 0
  | .float x => !(x == 0.0)

/-- Whether a scalar counts as true: a set flag, a number other than zero, a text with a
    character. -/
def Scalar.isTrue : Scalar → Bool
  | .blank => false
  | .flag b => b
  | .number n => n.isNonzero
  | .text s => s != ""

/-- Whether a value counts as true: a true scalar, or a list or mapping with an entry. -/
def Value.isTrue : Value → Bool
  | .scalar s => s.isTrue
  | .list vs => !vs.isEmpty
  | .mapping es => !es.isEmpty

/-! ## 3. Values in messages -/

/-- A number as a message shows it. -/
def Number.shown : Number → String
  | .whole n => toString n
  | .float x => Number.floatText x

/-- A scalar as a message shows it. -/
def Scalar.shown : Scalar → String
  | .blank => "None"
  | .flag b => if b then "True" else "False"
  | .number n => n.shown
  | .text s => Text.quoted s

/-- The name of a scalar's type in messages. -/
def Scalar.typeName : Scalar → String
  | .blank => "NoneType"
  | .flag _ => "bool"
  | .number (.whole _) => "int"
  | .number (.float _) => "float"
  | .text _ => "str"

/-- The name of a value's type in messages. -/
def Value.typeName : Value → String
  | .scalar s => s.typeName
  | .list _ => "list"
  | .mapping _ => "dict"

mutual

/-- A value as a message shows it: lists in brackets, mappings in braces with a colon after each
    name. -/
def Value.shown : Value → String
  | .scalar s => s.shown
  | .list vs => "[" ++ ", ".intercalate (Value.shownAll vs) ++ "]"
  | .mapping es => "\x7b" ++ ", ".intercalate (Value.shownEntries es) ++ "\x7d"

/-- The values as a message shows them. -/
def Value.shownAll : List Value → List String
  | [] => []
  | v :: vs => v.shown :: Value.shownAll vs

/-- The entries as a message shows them. -/
def Value.shownEntries : List (String × Value) → List String
  | [] => []
  | (k, v) :: es => (Text.quoted k ++ ": " ++ v.shown) :: Value.shownEntries es

end

/-! ## 4. Leaves -/

mutual

/-- The scalars of nested lists, from left to right. A mapping has none. -/
def Value.leaves : Value → List Scalar
  | .scalar s => [s]
  | .list vs => Value.leavesAll vs
  | .mapping _ => []

/-- The scalars of several values, from left to right. -/
def Value.leavesAll : List Value → List Scalar
  | [] => []
  | v :: vs => v.leaves ++ Value.leavesAll vs

end

theorem Value.leavesAll_append (xs ys : List Value) :
    Value.leavesAll (xs ++ ys) = Value.leavesAll xs ++ Value.leavesAll ys := by
  induction xs with
  | nil => rfl
  | cons x xs ih => simp [Value.leavesAll, ih]

end Appraisal
