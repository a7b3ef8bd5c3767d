import Appraisal.Formula.Tree
import Appraisal.Number.Arithmetic

/-!
# Primitive functions

Every function takes whatever values it is given: what is missing counts as zero, what is no number
is passed over or gives no value, and outside a function's domain the result is zero. A fault arises
only where a whole number has no float, or a growth rate leaves the floats.

* `numbersOf` — the numbers among the leaves of values, as floats, from left to right;
* `sumValues`, `maxValues`, `minValues` — over those numbers;
* `ifStatement`, `ifError` — choices;
* `arithmetic`, `safeDivide` — the four operations;
* `logarithm`, `exponential`, `growthRate` — the rest.
-/

namespace Appraisal.Function

open Appraisal.Formula

/-! ## 1. Numbers among values -/

/-- The number that a scalar is, if it is one. -/
def scalarNumber? : Scalar → Option Number
  | .number n => some n
  | _ => none

/-- Whether a value is a number. Flags are none. -/
def isNumber (v : Value) : Bool :=
  v.number?.isSome

/-- The numbers among the leaves of the values, as floats, from left to right. -/
def numbersOf (vs : List Value) : Except Fault (List Float) :=
  ((Value.leavesAll vs).filterMap scalarNumber?).mapM Number.toFloat

/-- The sum of the numbers, added from left to right; the whole number zero if there is none. -/
def sumValues (vs : List Value) : Except Fault Number := do
  match ← numbersOf vs with
  | [] => pure (.whole 0)
  | xs => pure (.float (xs.foldl (· + ·) 0.0))

/-- The number that the comparison prefers, the first where it prefers none; zero if there is no
    number. -/
def choose (prefers : Float → Float → Bool) (vs : List Value) : Except Fault Float := do
  match ← numbersOf vs with
  | [] => pure 0.0
  | x :: xs => pure (xs.foldl (fun best y => if prefers y best then y else best) x)

/-- The largest number, or zero if there is none. -/
def maxValues (vs : List Value) : Except Fault Float :=
  choose (fun y best => decide (best < y)) vs

/-- The smallest number, or zero if there is none. -/
def minValues (vs : List Value) : Except Fault Float :=
  choose (fun y best => decide (y < best)) vs

/-! ## 2. Choices -/

/-- Whether a value reports an error: it is absent, the undefined number, or a text that begins
    with a number sign. -/
def isErrorValue : Value → Bool
  | .scalar .blank => true
  | .scalar (.number (.float x)) => x.isNaN
  | .scalar (.text s) => s.toList.head? == some '#'
  | _ => false

/-- The second value if the first counts as true, else the third. -/
def ifStatement (condition onTrue onFalse : Value) : Value :=
  if condition.isTrue then onTrue else onFalse

/-- The value, or the default in place of an error. -/
def ifError (value default : Value) : Value :=
  if isErrorValue value then default else value

/-! ## 3. The four operations -/

/-- A value as an operand: nothing counts as zero; what is no number is no operand. -/
def operand (v : Value) : Except Fault (Option Float) :=
  match v with
  | .scalar .blank => .ok (some 0.0)
  | .scalar (.number n) => n.toFloat.map some
  | _ => .ok none

/-- The quotient of two floats, zero where the divisor is. -/
def quotient (x y : Float) : Float :=
  if y == 0.0 then 0.0 else x / y

/-- The quotient of two values; zero where one is no operand or the divisor is zero. -/
def safeDivide (numerator denominator : Value) : Except Fault Float := do
  let num ← operand numerator
  let den ← operand denominator
  match num, den with
  | some x, some y => pure (quotient x y)
  | _, _ => pure 0.0

/-- The operation on two floats. -/
def operate : Operator → Float → Float → Float
  | .plus => (· + ·)
  | .minus => (· - ·)
  | .times => (· * ·)
  | .over => quotient

/-- What a binary operation on two values gives, once its operands are floats; nothing if one of
    them is no operand. -/
def withOperands (left right : Value) (op : Float → Float → Except Fault Float) :
    Except Fault Value := do
  let l ← operand left
  let r ← operand right
  match l, r with
  | some x, some y => (op x y).map .float
  | _, _ => pure .blank

/-- The operation on two values. -/
def arithmetic (op : Operator) (left right : Value) : Except Fault Value :=
  withOperands left right fun x y => .ok (operate op x y)

/-- The operator that a value names, if it is the text of one. -/
def operatorOf? : Value → Option Operator
  | .scalar (.text name) => Operator.ofText? name.toList
  | _ => none

/-- The operation that a value names, on two others. -/
def namedOperation (left name right : Value) : Except Fault Value :=
  withOperands left right fun x y =>
    match operatorOf? name with
    | some op => .ok (operate op x y)
    | none => .error (.unknownOperator name)

/-! ## 4. Logarithm, exponential, growth -/

/-- The base of the natural logarithm. -/
def euler : Float := 2.718281828459045

/-- A whole number of more than 53 bits as a float, at least a half and less than one, times a power
    of two. The float is the nearest, a half-way case goes to the even neighbour. -/
def splitPower (size : Nat) : Float × Nat :=
  let bits := size.log2 + 1
  let mantissa := Number.roundDiv size (Nat.pow 2 (bits - 53))
  if mantissa = Nat.pow 2 53 then (0.5, bits + 1)
  else (Float.ofNat mantissa / Float.ofNat (Nat.pow 2 53), bits)

/-- The natural logarithm of a positive number: that of the nearest float, and for a whole number too
    large for the floats that of its two parts. -/
def naturalLog : Number → Float
  | .float x => Float.log x
  | .whole n =>
    match (Number.whole n).toFloat with
    | .ok x => Float.log x
    | .error _ =>
      let (head, power) := splitPower n.natAbs
      Float.log head + Float.log 2.0 * Float.ofNat power

/-- Whether a number is positive or undefined, so that it has a logarithm. -/
def hasLog (n : Number) : Bool :=
  !Number.le n (.whole 0)

/-- The logarithm of a value to a base, to the natural one where the base is absent; zero outside
    the domain. -/
def logarithm (value base : Value) : Float :=
  let base := if base matches .scalar .blank then .float euler else base
  match value.number?, base.number? with
  | some v, some b =>
    if hasLog v && hasLog b && !(Number.le b (.whole 1) && Number.le (.whole 1) b) then
      naturalLog v / naturalLog b
    else 0.0
  | _, _ => 0.0

/-- The exponential of a value; zero where it leaves the floats, nothing for what is no operand. -/
def exponential (v : Value) : Except Fault Value := do
  match ← operand v with
  | none => pure .blank
  | some x =>
    let y := Float.exp x
    pure (.float (if y.isInf && x.isFinite then 0.0 else y))

/-- The rate by which one value grows to another over a number of periods; zero where there is
    none. -/
def growthRate (periods present future : Value) : Except Fault Float := do
  let n ← operand periods
  let p ← operand present
  let f ← operand future
  match n, p, f with
  | some n, some p, some f =>
    if n == 0.0 || p == 0.0 then pure 0.0
    else
      let ratio := f / p
      if ratio < 0.0 then pure 0.0
      else
        let power ← Number.checkedPower ratio (1.0 / n)
        pure (power - 1.0)
  | _, _, _ => pure 0.0

end Appraisal.Function
