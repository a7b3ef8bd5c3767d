import Appraisal.Number.Decimal

/-!
# Writing numbers

A float is written from its exact value, a whole number times a power of two, in exact arithmetic.

* `expand` — the sign, the mantissa and the exponent of a float;
* `roundDiv` — the whole number nearest to a quotient, a half going to the even neighbour;
* `significant` — the value rounded to a number of significant digits;
* `shortest` — the fewest digits that read back as the float, and of those the nearest;
* `Layout` — where digits are written with a point and where with an exponent;
* `floatText` — a float in a message; `sixDigits` — a float to six significant digits;
  `scientific` — a float with a given number of digits and always an exponent.
-/

namespace Appraisal.Number

/-! ## 1. Exact values -/

/-- What a float stands for. -/
inductive Expansion where
  /-- The undefined number. -/
  | undefined
  /-- An infinity. -/
  | infinite (negative : Bool)
  /-- The number `mantissa · 2 ^ exponent` with its sign; the zeros keep theirs. -/
  | finite (negative : Bool) (mantissa : Nat) (exponent : Int)
deriving DecidableEq

/-- The expansion of a float, read off its bits: one for the sign, eleven for the exponent and
    fifty-two for the fraction. -/
def expand (x : Float) : Expansion :=
  let bits := x.toBits.toNat
  let negative := decide (bits / Nat.pow 2 63 = 1)
  let field : Nat := bits / Nat.pow 2 52 % Nat.pow 2 11
  let fraction : Nat := bits % Nat.pow 2 52
  if field = 2047 then
    if fraction = 0 then .infinite negative else .undefined
  else if field = 0 then .finite negative fraction (-1074)
  else .finite negative (fraction + Nat.pow 2 52) ((field : Int) - 1075)

/-- The whole number nearest to the quotient, a half going to the even neighbour. -/
def roundDiv (num den : Nat) : Nat :=
  let q := num / den
  let r := num % den
  if 2 * r < den then q else if den < 2 * r then q + 1 else q + q % 2

/-- The numerator and the denominator of `mantissa · 2 ^ exponent · 10 ^ shift`. -/
def scaled (mantissa : Nat) (exponent shift : Int) : Nat × Nat :=
  (mantissa * Nat.pow 2 exponent.toNat * Nat.pow 10 shift.toNat,
    Nat.pow 2 (-exponent).toNat * Nat.pow 10 (-shift).toNat)

/-- How many decimal digits a number has. -/
def digitCount (n : Nat) : Nat :=
  (Nat.toDigits 10 n).length

/-- The power of ten of the first digit of a positive `mantissa · 2 ^ exponent`. -/
def leadingPower (mantissa : Nat) (exponent : Int) : Int :=
  let (num, den) := scaled mantissa exponent 0
  let guess : Int := digitCount num - digitCount den
  if den * Nat.pow 10 guess.toNat ≤ num * Nat.pow 10 (-guess).toNat then guess else guess - 1

/-! ## 2. Choosing the digits -/

/-- A decimal `digits · 10 ^ exponent`. -/
structure Decimal where
  /-- The digits, read as a whole number. -/
  digits : Nat
  /-- The power of ten of the last digit. -/
  exponent : Int

/-- The positive value rounded to `count` significant digits, a half going to the even digit. -/
def significant (count mantissa : Nat) (exponent : Int) : Decimal :=
  let shift := count - 1 - leadingPower mantissa exponent
  let (num, den) := scaled mantissa exponent shift
  let digits := roundDiv num den
  if digits = Nat.pow 10 count then ⟨Nat.pow 10 (count - 1), 1 - shift⟩ else ⟨digits, -shift⟩

/-- The decimal of `count` digits that reads back as the positive float `x`: of the two next to
    its value the one that does, of two the nearer, half-way the even one. -/
def readsBack? (x : Float) (mantissa : Nat) (exponent : Int) (count : Nat) : Option Decimal :=
  let shift := count - 1 - leadingPower mantissa exponent
  let (num, den) := scaled mantissa exponent shift
  let below := num / den
  let rest := num % den
  let good (digits : Nat) : Bool := (floatOfDecimal digits (-shift)).toBits == x.toBits
  let upward := den < 2 * rest || (2 * rest == den && below % 2 == 1)
  let first := if upward then below + 1 else below
  let second := if upward then below else below + 1
  if good first then some ⟨first, -shift⟩
  else if good second then some ⟨second, -shift⟩
  else none

/-- The fewest digits that read back as the positive float. Seventeen always do. -/
def shortest (x : Float) (mantissa : Nat) (exponent : Int) : Decimal :=
  ((List.range 17).findSome? fun n => readsBack? x mantissa exponent (n + 1)).getD
    (significant 17 mantissa exponent)

/-- The same decimal without zeros at its end. -/
def Decimal.trimmed (d : Decimal) : Decimal :=
  let digits := Nat.toDigits 10 d.digits
  let zeros := (digits.reverse.takeWhile (· == '0')).length
  if d.digits = 0 then d else ⟨d.digits / Nat.pow 10 zeros, d.exponent + zeros⟩

/-! ## 3. Laying the digits out -/

/-- Where a number is written with a point alone. -/
structure Layout where
  /-- The least place of the point, counted from the first digit, that is written out. -/
  least : Int
  /-- The greatest place of the point that is written out. -/
  greatest : Int
  /-- Whether a whole number keeps a point and a zero after it. -/
  keepsPoint : Bool

/-- Messages show the point from three zeros after it to sixteen digits before it, and a float
    never without a point. -/
def messageLayout : Layout := ⟨-3, 16, true⟩

/-- Six significant digits show the point up to six digits before it, and a whole number as
    such. -/
def sixDigitLayout : Layout := ⟨-3, 6, false⟩

/-- The exponent with its sign and at least two digits. -/
def exponentText (e : Int) : String :=
  let digits := toString e.natAbs
  let padded := if e.natAbs < 10 then s!"0{digits}" else digits
  if e < 0 then s!"e-{padded}" else s!"e+{padded}"

/-- The digits with a point after the first and the exponent behind. -/
def exponentLayout (digits : List Char) (e : Int) : String :=
  let (first, rest) := (digits.take 1, digits.drop 1)
  let body := if rest = [] then first else first ++ '.' :: rest
  String.ofList body ++ exponentText e

/-- A positive decimal without zeros at its end, laid out. -/
def Layout.write (l : Layout) (d : Decimal) : String :=
  let digits := Nat.toDigits 10 d.digits
  let point : Int := digits.length + d.exponent
  if l.least ≤ point ∧ point ≤ l.greatest then
    if point ≤ 0 then
      String.ofList ("0.".toList ++ List.replicate (-point).toNat '0' ++ digits)
    else if digits.length ≤ point.toNat then
      let whole := digits ++ List.replicate (point.toNat - digits.length) '0'
      String.ofList (if l.keepsPoint then whole ++ ".0".toList else whole)
    else String.ofList (digits.take point.toNat ++ '.' :: digits.drop point.toNat)
  else exponentLayout digits (point - 1)

/-- A minus in front of the text of a negative number. -/
def signed (negative : Bool) (text : String) : String :=
  if negative then s!"-{text}" else text

/-- A float as a message shows it: the fewest digits that read back. -/
def floatText (x : Float) : String :=
  match expand x with
  | .undefined => "nan"
  | .infinite negative => signed negative "inf"
  | .finite negative mantissa exponent =>
    signed negative <|
      if mantissa = 0 then "0.0"
      else messageLayout.write (shortest x.abs mantissa exponent).trimmed

/-- A float to six significant digits. -/
def sixDigits (x : Float) : String :=
  match expand x with
  | .undefined => "nan"
  | .infinite negative => signed negative "inf"
  | .finite negative mantissa exponent =>
    signed negative <|
      if mantissa = 0 then "0"
      else sixDigitLayout.write (significant 6 mantissa exponent).trimmed

/-- A float with `count` digits and an exponent. -/
def scientific (count : Nat) (x : Float) : String :=
  match expand x with
  | .undefined => "nan"
  | .infinite negative => signed negative "inf"
  | .finite negative mantissa exponent =>
    signed negative <|
      if mantissa = 0 then exponentLayout (List.replicate count '0') 0
      else
        let d := significant count mantissa exponent
        exponentLayout (Nat.toDigits 10 d.digits) (count - 1 + d.exponent)

end Appraisal.Number
