import Appraisal.Text.Blank
import Appraisal.Text.Digit

/-!
# Reading numerals

A numeral may stand between blanks, may have a sign, and may set its digits, of any script, apart
by single low lines.

* `readWhole?` — the whole number that a text writes;
* `readFloat?` — the float nearest to the decimal that a text writes, half-way cases to the even
  neighbour; also the words for infinity and for the undefined number, in any case;
* `readUnsigned?` — the float of an unsigned decimal with an optional exponent.
-/

namespace Appraisal.Number

open Appraisal.Text

/-! ## 1. What a numeral is freed from -/

/-- The blanks that may surround a numeral: all but the four ASCII separators. -/
def isNumeralBlank (c : Char) : Bool :=
  isBlank c && !(decide (28 ≤ c.toNat) && decide (c.toNat ≤ 31))

/-- The text without its low lines, each of which has to stand between two digits. -/
def dropLowLines : (afterDigit : Bool) → List Char → Option (List Char)
  | _, [] => some []
  | afterDigit, c :: cs =>
    if c = '_' then
      if afterDigit && (cs.head?.any isDigit) then dropLowLines false cs else none
    else (dropLowLines (isDigit c) cs).map (c :: ·)

/-- The sign in front of a numeral, `true` for the minus, and what follows it. -/
def splitSign : List Char → Bool × List Char
  | '-' :: cs => (true, cs)
  | '+' :: cs => (false, cs)
  | cs => (false, cs)

/-! ## 2. Whole numbers -/

/-- The whole number that the text writes, with any number of digits (see `digitsValue`). -/
def readWhole? (cs : List Char) : Option Int := do
  let (negative, body) := splitSign (trim isNumeralBlank cs)
  let digits ← dropLowLines false body
  if digits ≠ [] ∧ digits.all isDigit then
    let n := digitsValue digits
    some (if negative then -(n : Int) else n)
  else none

/-! ## 3. Decimals -/

/-- The float nearest to `digits · 10 ^ exponent`. -/
def floatOfDecimal (digits : Nat) (exponent : Int) : Float :=
  Float.ofScientific digits (decide (exponent < 0)) exponent.natAbs

/-- The exponent at the end of a decimal: nothing, or the letter e, a sign and digits. -/
def readExponent? : List Char → Option Int
  | [] => some 0
  | c :: cs =>
    if c = 'e' ∨ c = 'E' then
      let (negative, digits) := splitSign cs
      if digits ≠ [] ∧ digits.all isDigit then
        let n := digitsValue digits
        some (if negative then -(n : Int) else n)
      else none
    else none

/-- The digits after a decimal point, if there is a point, and what follows them. -/
def splitFraction : List Char → List Char × List Char
  | '.' :: cs => (cs.takeWhile isDigit, cs.dropWhile isDigit)
  | cs => ([], cs)

/-- The float of an unsigned decimal: digits with a point among or around them, and an exponent. -/
def readUnsigned? (cs : List Char) : Option Float := do
  let whole := cs.takeWhile isDigit
  let (fraction, rest) := splitFraction (cs.dropWhile isDigit)
  if whole = [] ∧ fraction = [] then none
  else
    let exponent ← readExponent? rest
    some (floatOfDecimal (digitsValue (whole ++ fraction)) (exponent - fraction.length))

/-- Positive infinity. -/
def infinity : Float := 1.0 / 0.0

/-- The undefined number. -/
def undefined : Float := 0.0 / 0.0

/-- The float that a word stands for. -/
def readWord? (cs : List Char) : Option Float :=
  let word := String.ofList (cs.map Char.toLower)
  if word = "inf" ∨ word = "infinity" then some infinity
  else if word = "nan" then some undefined
  else none

/-- The float that the text writes. -/
def readFloat? (cs : List Char) : Option Float := do
  let (negative, body) := splitSign (trim isNumeralBlank cs)
  let magnitude ← (readWord? body).or ((dropLowLines false body).bind readUnsigned?)
  some (if negative then -magnitude else magnitude)

end Appraisal.Number
