import Appraisal.Number.Basic

/-!
# Quantities

Where a number is wanted a flag may stand, which counts as one or zero.

* `Quantity` — a number, or a flag in its place;
* `Quantity.count` — the number that a quantity counts as.
-/

namespace Appraisal

/-- A number, or a flag in its place. -/
inductive Quantity where
  /-- A number. -/
  | number (n : Number)
  /-- A flag, which stays one where the quantity is handed on unchanged. -/
  | flag (b : Bool)
deriving DecidableEq

namespace Quantity

/-- The number that the quantity counts as: one for a flag that is set, zero for one that is not. -/
def count : Quantity → Number
  | .number n => n
  | .flag b => .whole b.toInt

@[simp] theorem count_number (n : Number) : (number n).count = n := rfl

@[simp] theorem count_set : (flag true).count = .whole 1 := rfl

@[simp] theorem count_unset : (flag false).count = .whole 0 := rfl

/-- A float as a quantity. -/
abbrev float (x : Float) : Quantity := .number (.float x)

end Quantity

end Appraisal
