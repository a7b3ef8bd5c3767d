/-!
# Decimal digits

A decimal digit of any script counts as a digit (the general category Nd of Unicode 14): each
script that has them has the ten digits zero to nine in a row.

* `digitValue?` — the value of a digit, nothing for any other character;
* `digitsValue` — the number that a run of digits writes, whatever scripts are mixed in it.
-/

namespace Appraisal.Text

/-! ## 1. One digit -/

/-- The code points of the digit zero of each script. -/
def zeroDigits : List Nat := [
  48, 1632, 1776, 1984, 2406, 2534, 2662, 2790, 2918, 3046, 3174, 3302, 3430, 3558, 3664, 3792,
  3872, 4160, 4240, 6112, 6160, 6470, 6608, 6784, 6800, 6992, 7088, 7232, 7248, 42528, 43216,
  43264, 43472, 43504, 43600, 44016, 65296, 66720, 68912, 69734, 69872, 69942, 70096, 70384,
  70736, 70864, 71248, 71360, 71472, 71904, 72016, 72784, 73040, 73120, 92768, 92864, 93008,
  120782, 120792, 120802, 120812, 120822, 123200, 123632, 125264, 130032]

/-- The value of a decimal digit of any script. -/
def digitValue? (c : Char) : Option Nat :=
  zeroDigits.findSome? fun z =>
    if z ≤ c.toNat ∧ c.toNat < z + 10 then some (c.toNat - z) else none

/-- Whether the character is a decimal digit of some script. -/
def isDigit (c : Char) : Bool :=
  (digitValue? c).isSome

/-- Whether the character is one of the ASCII digits. -/
def isAsciiDigit (c : Char) : Bool :=
  decide (48 ≤ c.toNat) && decide (c.toNat ≤ 57)

/-- The value of a digit is below ten. -/
theorem digitValue?_lt {c : Char} {v : Nat} (h : digitValue? c = some v) : v < 10 := by
  unfold digitValue? at h
  rw [List.findSome?_eq_some_iff] at h
  obtain ⟨_, z, _, _, hz, _⟩ := h
  split at hz
  · simp only [Option.some.injEq] at hz
    omega
  · simp at hz

/-! ## 2. Runs of digits -/

/-- The number written by a run of digits; a character that is no digit counts as zero. The run may
    be of any length: a limit on the digits of a whole number, such as the 4300 that some interpreters
    set unless told otherwise, is modelled neither here nor where a number is shown. -/
def digitsValue (cs : List Char) : Nat :=
  cs.foldl (fun n c => 10 * n + (digitValue? c).getD 0) 0

end Appraisal.Text
