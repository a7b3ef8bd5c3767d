import Appraisal.Text.CodePoint
import Appraisal.Text.Printable

/-!
# Quoted text in messages

A message that shows a piece of text puts it in quotes, so that its ends and the characters that
cannot be seen are plain.

* `quoteMark` — the apostrophe, unless only the double quote is free in the text;
* `quoted` — the quotes, and inside them the printable characters as they are; the mark itself
  and the backslash after a backslash; line ends and tabs by letter; all else, surrogates among
  them, by its code point in two, four or eight hexadecimal digits.
-/

namespace Appraisal.Text

/-- The mark that the text is quoted with. -/
def quoteMark (cs : List Char) : Char :=
  if '\x27' ∈ cs ∧ '\x22' ∉ cs then '\x22' else '\x27'

/-- The lowest `width` hexadecimal digits of a number. -/
def hexDigits : (width : Nat) → Nat → List Char
  | 0, _ => []
  | width + 1, n => hexDigits width (n / 16) ++ [Nat.digitChar (n % 16)]

/-- How one code point stands between the quotes. -/
def quotedPoint (mark : Char) (n : Nat) : List Char :=
  let c := Char.ofNat n
  if c = mark ∨ c = '\\' then ['\\', c]
  else if c = '\t' then ['\\', 't']
  else if c = '\n' then ['\\', 'n']
  else if c = '\r' then ['\\', 'r']
  else if isPrintable c then [c]
  else if n < 0x100 then '\\' :: 'x' :: hexDigits 2 n
  else if n < 0x10000 then '\\' :: 'u' :: hexDigits 4 n
  else '\\' :: 'U' :: hexDigits 8 n

/-- The text between quotes. -/
def quotedChars (cs : List Char) : List Char :=
  quoteMark cs :: (codePoints cs).flatMap (quotedPoint (quoteMark cs)) ++ [quoteMark cs]

/-- The text between quotes. -/
def quoted (s : String) : String :=
  String.ofList (quotedChars s.toList)

theorem length_hexDigits (width n : Nat) : (hexDigits width n).length = width := by
  induction width generalizing n with
  | zero => rfl
  | succ w ih => simp [hexDigits, ih]

end Appraisal.Text
