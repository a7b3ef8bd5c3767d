import Appraisal.Number.Arithmetic
import Appraisal.Number.Quantity

/-!
# Guarded arithmetic on numbers

Operations of a valuation on single numbers, where a whole number may stay whole.

* `ratio` — a quotient whose divisor is kept away from zero;
* `declineFactor` — how much of a price is left after a decline, against a baseline;
* `clampCost` — a quantity kept between a tenth and two.
-/

namespace Appraisal.Number

/-- The least size of a divisor. -/
def leastDivisor : Float := 1e-9

/-- The quotient by a baseline. A baseline closer to zero than the least divisor is replaced by the
    least divisor with its sign. -/
def ratio (value baseline : Number) : Except Fault Number :=
  if lt (abs baseline) (.float leastDivisor) then
    div value (.float (if le (.whole 0) baseline then leastDivisor else -leastDivisor))
  else div value baseline

/-- What a decline leaves of one, against what a baseline decline leaves. -/
def declineFactor (decline baseline : Number) : Except Fault Number := do
  let left ← sub (.whole 1) decline
  let usual ← sub (.whole 1) baseline
  ratio left usual

/-- Whether the number is the undefined float. A whole number beyond the floats cannot be asked. -/
def checkUndefined (n : Number) : Except Fault Bool :=
  n.toFloat.map Float.isNaN

/-- The quantity kept between a tenth and two; two for the undefined number. -/
def clampCost (value : Quantity) : Except Fault Quantity := do
  if ← checkUndefined value.count then pure (.float 2.0)
  else if !lt (.float 0.1) value.count then pure (.float 0.1)
  else if !lt value.count (.float 2.0) then pure (.float 2.0)
  else pure value

end Appraisal.Number
