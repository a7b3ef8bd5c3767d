/-!
# Blank characters

* `isBlank` — the white space of Unicode together with the four ASCII separators U+001C to
  U+001F: what is dropped around a reference and skipped between the parts of a formula;
* `trim` — a text without the members of a class at either end;
* `strip` — a text without the blanks at either end.
-/

namespace Appraisal.Text

/-! ## 1. The class -/

/-- A blank character. -/
def isBlank (c : Char) : Bool :=
  let n := c.toNat
  (decide (9 ≤ n) && decide (n ≤ 13)) || (decide (28 ≤ n) && decide (n ≤ 32)) || n == 0x85 ||
    n == 0xa0 || n == 0x1680 || (decide (0x2000 ≤ n) && decide (n ≤ 0x200a)) || n == 0x2028 ||
    n == 0x2029 || n == 0x202f || n == 0x205f || n == 0x3000

theorem isBlank_of_isWhitespace {c : Char} (h : c.isWhitespace = true) : isBlank c = true := by
  simp only [Char.isWhitespace, Bool.or_eq_true, decide_eq_true_eq] at h
  rcases h with ((h | h) | h) | h <;> subst h <;> decide

/-! ## 2. Trimming -/

/-- The text without the members of the class at its start and at its end. -/
def trim (p : Char → Bool) (cs : List Char) : List Char :=
  ((cs.dropWhile p).reverse.dropWhile p).reverse

/-- The text without the blanks at its start and at its end. -/
def strip (cs : List Char) : List Char :=
  trim isBlank cs

@[simp] theorem trim_nil (p : Char → Bool) : trim p [] = [] := rfl

/-- A text whose first and last characters are outside the class stays as it is. -/
theorem trim_of_ends {p : Char → Bool} {cs : List Char}
    (hfirst : ∀ c, cs.head? = some c → p c = false)
    (hlast : ∀ c, cs.getLast? = some c → p c = false) : trim p cs = cs := by
  cases cs with
  | nil => rfl
  | cons c cs =>
    have hc : p c = false := hfirst c rfl
    have hdrop : (c :: cs).dropWhile p = c :: cs := by simp [List.dropWhile, hc]
    unfold trim
    rw [hdrop]
    cases hr : (c :: cs).reverse with
    | nil => simp at hr
    | cons d ds =>
      have hd : p d = false := by
        apply hlast d
        rw [List.getLast?_eq_head?_reverse, hr]
        rfl
      have : (d :: ds).dropWhile p = d :: ds := by simp [List.dropWhile, hd]
      rw [this, ← hr, List.reverse_reverse]

end Appraisal.Text
