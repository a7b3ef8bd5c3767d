import Appraisal.Number.Arithmetic

/-!
# Logarithms and powers

A valuation needs, beyond the four operations and comparison, logarithms and powers. They are given
by a class, so that the same rules can be read over floats and over the real numbers.

* `Transcendental` — the logarithm, powers of positive numbers, and growth over years;
* its instance for `Float`.
-/

namespace Appraisal

/-- Logarithms and powers. -/
class Transcendental (α : Type) where
  /-- The natural logarithm of a positive number. -/
  log : α → α
  /-- A power of a positive number. -/
  positivePower : α → α → α
  /-- The growth at a rate over a number of years, which may leave the range. -/
  compound : α → Int → Except Fault α

/-- Over floats a power that is too large is infinite, but growth over years that is too large, or
    over more years than a float can count, is a fault. -/
instance : Transcendental Float where
  log := Number.naturalLog
  positivePower := Number.positivePower
  compound := fun rate years => (Number.whole years).toFloat.bind (Number.checkedPower rate)

end Appraisal
