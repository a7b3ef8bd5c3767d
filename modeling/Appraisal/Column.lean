import Appraisal.Fault
import Appraisal.Text.Letter
import Appraisal.Text.Upper

/-!
# Columns

Columns are counted from one and named by letters: A to Z, then AA, AB and so on. The names are
the numerals of base twenty-six whose digits run from one (A) to twenty-six (Z), without a zero.

* `Column.letters` — the name of a column;
* `Column.number` — the column that a name stands for, in either case;
* `Column.lettersOf`, `Column.numberOf` — the same where the input may be no column.
-/

namespace Appraisal.Column

open Appraisal.Text

/-! ## 1. Naming -/

/-- The capital letter of a digit from zero (A) to twenty-five (Z). -/
def capital (digit : Nat) : Char :=
  Char.ofNat (65 + digit)

/-- The name of a column; the column zero has none. -/
def letters (n : Nat) : List Char :=
  if n = 0 then [] else letters ((n - 1) / 26) ++ [capital ((n - 1) % 26)]
termination_by n
decreasing_by
  have := Nat.div_le_self (n - 1) 26
  omega

/-- The column that a name stands for: each letter counts from A as one. -/
def number (name : List Char) : Nat :=
  (upper name).foldl (fun n c => 26 * n + (c.toNat - 64)) 0

@[simp] theorem letters_zero : letters 0 = [] := by
  rw [letters]
  rfl

theorem letters_succ (n : Nat) : letters (n + 1) = letters (n / 26) ++ [capital (n % 26)] := by
  rw [letters]
  simp

/-! ## 2. Checked input -/

/-- The name of a column, if the column is at least one. -/
def lettersOf (index : Int) : Except Fault String :=
  if index < 1 then .error (.columnBelowOne index) else .ok (String.ofList (letters index.toNat))

/-- The column that a text names, if it consists of letters. -/
def numberOf (name : String) : Except Fault Nat :=
  if name.toList = [] ∨ ¬ name.toList.all isAlphabetic then .error (.notColumnLetters name)
  else .ok (number name.toList)

end Appraisal.Column
