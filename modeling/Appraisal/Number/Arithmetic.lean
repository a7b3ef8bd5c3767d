import Appraisal.Number.Digits
import Appraisal.Number.Power

/-!
# Arithmetic on numbers

Whole numbers among themselves are exact. Where a float takes part, or a quotient is formed, the
result is a float; a whole number beyond the floats is a fault. Comparison is always exact.

* `toFloat` — the float nearest to a number;
* `sub`, `mul`, `div`, `abs`, `power` — the operations;
* `lt`, `le`, `larger` — comparison by value, and the choice that keeps the first of two numbers
  of which neither exceeds the other.
-/

namespace Appraisal.Number

/-! ## 1. Operations -/

/-- The float nearest to a number, a half-way case to the even neighbour. -/
def toFloat : Number → Except Fault Float
  | .float x => .ok x
  | .whole n => if (Float.ofInt n).isInf then .error .wholeTooLarge else .ok (Float.ofInt n)

@[simp] theorem toFloat_float (x : Float) : toFloat (.float x) = .ok x := rfl

/-- An operation on floats, applied to the floats nearest to two numbers. -/
def viaFloats (op : Float → Float → Float) (a b : Number) : Except Fault Number := do
  let x ← a.toFloat
  let y ← b.toFloat
  pure (.float (op x y))

/-- The difference. -/
def sub : Number → Number → Except Fault Number
  | .whole a, .whole b => .ok (.whole (a - b))
  | a, b => viaFloats (· - ·) a b

/-- The product. -/
def mul : Number → Number → Except Fault Number
  | .whole a, .whole b => .ok (.whole (a * b))
  | a, b => viaFloats (· * ·) a b

/-- The float nearest to the quotient of two positive whole numbers. -/
def nearestQuotient (num den : Nat) (hnum : 0 < num) (hden : 0 < den) : Float :=
  .ofModel <| .pack <| .div .binary64 (.finite .positive num 0 hnum) (.finite .positive den 0 hden)

/-- The quotient of two whole numbers, the divisor not zero. -/
def wholeQuotient (a b : Int) : Except Fault Number :=
  if h : 0 < a.natAbs ∧ 0 < b.natAbs then
    let size := nearestQuotient a.natAbs b.natAbs h.1 h.2
    if size.isInf then .error .quotientTooLarge
    else .ok (.float (if decide (a < 0) == decide (b < 0) then size else -size))
  else .ok (.float (if b < 0 then -0.0 else 0.0))

/-- The quotient. -/
def div : Number → Number → Except Fault Number
  | .whole a, .whole b => if b = 0 then .error .divisionByZero else wholeQuotient a b
  | a, b => do
    let x ← a.toFloat
    let y ← b.toFloat
    if y == 0.0 then .error .divisionByZero else .ok (.float (x / y))

/-- The size without the sign. -/
def abs : Number → Number
  | .whole n => .whole n.natAbs
  | .float x => .float x.abs

/-! ## 2. Comparison -/

/-- How a whole number compares with a float; not at all with the undefined one. -/
def compareWhole (n : Int) (x : Float) : Option Ordering :=
  match expand x with
  | .undefined => none
  | .infinite negative => some (if negative then .gt else .lt)
  | .finite negative mantissa exponent =>
    let size : Int := mantissa * Int.pow 2 exponent.toNat
    some (compare (n * Int.pow 2 (-exponent).toNat) (if negative then -size else size))

/-- Whether the first number is less than the second. -/
def lt : Number → Number → Bool
  | .whole a, .whole b => a < b
  | .float x, .float y => x < y
  | .whole n, .float x => compareWhole n x == some .lt
  | .float x, .whole n => compareWhole n x == some .gt

/-- Whether the first number is at most the second. -/
def le : Number → Number → Bool
  | .whole a, .whole b => a ≤ b
  | .float x, .float y => x ≤ y
  | .whole n, .float x => compareWhole n x == some .lt || compareWhole n x == some .eq
  | .float x, .whole n => compareWhole n x == some .gt || compareWhole n x == some .eq

/-- The larger of two numbers, the first where neither is larger. -/
def larger (a b : Number) : Number :=
  if lt a b then b else a

/-! ## 3. Powers -/

/-- The power of two floats nearest to positive numbers, infinite where a number or the power is
    too large. -/
def powerViaFloats (base exponent : Number) : Number :=
  match base.toFloat, exponent.toFloat with
  | .ok x, .ok y => .float (positivePower x y)
  | _, _ => .float infinity

/-- The power of a whole number. The base one needs no multiplication, however large the exponent
    is. -/
def wholePower (base : Int) (exponent : Nat) : Int :=
  if base = 1 then 1 else Int.pow base exponent

theorem wholePower_eq (base : Int) (exponent : Nat) :
    wholePower base exponent = Int.pow base exponent := by
  rw [wholePower]
  split
  · next h => rw [h]; exact Int.one_pow.symm
  · rfl

/-- The power on the positive branch: zero for a base that is not positive; whole for whole numbers
    with an exponent that is not negative. -/
def power (base exponent : Number) : Number :=
  if lt (.whole 0) base then
    match base, exponent with
    | .whole b, .whole e =>
      if 0 ≤ e then .whole (wholePower b e.toNat) else powerViaFloats (.whole b) (.whole e)
    | b, e => powerViaFloats b e
  else .float 0.0

end Appraisal.Number
