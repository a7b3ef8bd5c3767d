import Appraisal.Fault

/-!
# Powers of floats

* `positivePower` — a power of a positive float, infinite where it leaves the range;
* `staysInRange` — whether a power is too small to leave the range, so that it need not be checked;
* `checkedPower` — a power of a float that is not negative, with a fault where it leaves the range
  or has no value;
* `naturalLog` — the natural logarithm of a float.

Powers are exact where the exponent is zero or the base is one, and so is the logarithm of one.
-/

namespace Appraisal.Number

/-- The power of a positive float; infinite where it is too large. -/
def positivePower (base exponent : Float) : Float :=
  if base == 1.0 || exponent == 0.0 then 1.0 else Float.pow base exponent

/-- Whether the power cannot leave the range: a base of at most two under an exponent between zero
    and a thousand. -/
def staysInRange (base exponent : Float) : Bool :=
  base ≤ 2.0 && 0.0 ≤ exponent && exponent ≤ 1000.0

/-- The power of a float that is not negative. -/
def checkedPower (base exponent : Float) : Except Fault Float :=
  let power := positivePower base exponent
  if !exponent.isFinite || !base.isFinite then .ok power
  else if base == 0.0 && exponent < 0.0 then .error .zeroToNegative
  else if !staysInRange base exponent && power.isInf then .error .outOfRange
  else .ok power

/-- The natural logarithm of a float; that of one is zero. -/
def naturalLog (x : Float) : Float :=
  if x == 1.0 then 0.0 else Float.log x

end Appraisal.Number
