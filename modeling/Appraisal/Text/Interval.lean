/-!
# Intervals of code points

A character class is given by the closed intervals of code points that belong to it. This file
fixes how such a list is read:

* `inIntervals` — a code point belongs to the class iff some interval holds it.
-/

namespace Appraisal.Text

/-- A closed interval of code points: its first and its last member. -/
abbrev Interval := Nat × Nat

/-- Whether one of the intervals holds the code point. -/
def inIntervals (table : List Interval) (n : Nat) : Bool :=
  table.any fun i => decide (i.1 ≤ n) && decide (n ≤ i.2)

theorem inIntervals_iff {table : List Interval} {n : Nat} :
    inIntervals table n = true ↔ ∃ i ∈ table, i.1 ≤ n ∧ n ≤ i.2 := by
  simp [inIntervals]

end Appraisal.Text
