import Appraisal.Number.Decimal
import Appraisal.Text.CodePoint
import Appraisal.Text.Digit
import Appraisal.Value

/-!
# Reading JSON

A JSON text is cut into marks and scalars, and these are put together with the containers that are
open held in a list, so that both passes run once along their input.

* numbers with a point or an exponent are floats, of any size; other numbers are whole;
* the words NaN, Infinity and -Infinity are numbers;
* texts hold no raw control characters; an escaped surrogate pair is one code point, and so is a
  surrogate that stands alone;
* of entries with one name the last counts, in the place of the first.

Main function: `Value.ofJson?`.
-/

namespace Appraisal.Json

open Appraisal.Text

/-! ## 1. Marks and scalars -/

/-- A piece of a JSON text. -/
inductive Piece where
  /-- An opening bracket. -/
  | openList
  /-- A closing bracket. -/
  | closeList
  /-- An opening brace. -/
  | openMapping
  /-- A closing brace. -/
  | closeMapping
  /-- A comma. -/
  | comma
  /-- A colon. -/
  | colon
  /-- A scalar. -/
  | scalar (s : Scalar)

/-- White space between pieces. -/
def isSpace (c : Char) : Bool :=
  c == ' ' || c == '\t' || c == '\n' || c == '\r'

/-- The value of a hexadecimal digit. -/
def hexValue? (c : Char) : Option Nat :=
  let n := c.toNat
  if 48 ≤ n ∧ n ≤ 57 then some (n - 48)
  else if 65 ≤ n ∧ n ≤ 70 then some (n - 55)
  else if 97 ≤ n ∧ n ≤ 102 then some (n - 87)
  else none

/-- The code unit of four hexadecimal digits. -/
def codeUnit? (a b c d : Char) : Option Nat := do
  let w ← hexValue? a
  let x ← hexValue? b
  let y ← hexValue? c
  let z ← hexValue? d
  some (((w * 16 + x) * 16 + y) * 16 + z)

/-- The code point of a code unit, or of two if the first begins a surrogate pair that the second
    ends. The first component tells whether the second unit was used. -/
def pointOf (unit : Nat) (next : Option Nat) : Bool × Nat :=
  match next with
  | some low =>
    if 0xd800 ≤ unit ∧ unit < 0xdc00 ∧ 0xdc00 ≤ low ∧ low < 0xe000 then
      (true, 0x10000 + (unit - 0xd800) * 0x400 + (low - 0xdc00))
    else (false, unit)
  | none => (false, unit)

/-- The code unit of an escape at the start of a text. -/
def nextUnit? : List Char → Option Nat
  | '\\' :: 'u' :: a :: b :: c :: d :: _ => codeUnit? a b c d
  | _ => none

/-- The character that a single letter after a backslash stands for. -/
def escaped? (c : Char) : Option Char :=
  match c with
  | '"' => some '"'
  | '\\' => some '\\'
  | '/' => some '/'
  | 'b' => some '\x08'
  | 'f' => some '\x0c'
  | 'n' => some '\n'
  | 'r' => some '\r'
  | 't' => some '\t'
  | _ => none

/-- The characters of a text up to its closing quote, and what follows the quote. The first `skip`
    characters belong to an escape that was read already. -/
def readString? : (skip : Nat) → List Char → Option (List Char × List Char)
  | _, [] => none
  | skip + 1, _ :: cs => readString? skip cs
  | 0, c :: cs =>
    if c = '"' then some ([], cs)
    else if c = '\\' then
      match cs with
      | 'u' :: a :: b :: x :: y :: rest =>
        match codeUnit? a b x y with
        | none => none
        | some unit =>
          let (both, point) := pointOf unit (nextUnit? rest)
          (readString? (if both then 11 else 5) cs).map fun p => (spell point ++ p.1, p.2)
      | e :: _ =>
        match escaped? e with
        | none => none
        | some ch => (readString? 1 cs).map fun p => (ch :: p.1, p.2)
      | [] => none
    else if c.toNat < 32 then none
    else (readString? 0 cs).map fun p => (c :: p.1, p.2)

/-- The fraction after a whole number: a point and digits, or nothing. -/
def readFraction : List Char → Option (List Char) × List Char
  | '.' :: cs =>
    let digits := cs.takeWhile isAsciiDigit
    if digits = [] then (none, '.' :: cs) else (some digits, cs.dropWhile isAsciiDigit)
  | cs => (none, cs)

/-- The exponent after a number: the letter e, a sign or none, and digits, or nothing. -/
def readPower : List Char → Option Int × List Char
  | [] => (none, [])
  | c :: cs =>
    let (negative, body) := Number.splitSign cs
    let digits := body.takeWhile isAsciiDigit
    if (c = 'e' ∨ c = 'E') ∧ digits ≠ [] then
      let n := digitsValue digits
      (some (if negative then -(n : Int) else n), body.dropWhile isAsciiDigit)
    else (none, c :: cs)

/-- The digits of a whole number: a zero alone, or digits that begin with another. -/
def readWholeDigits? : List Char → Option (List Char × List Char)
  | '0' :: cs => some (['0'], cs)
  | cs =>
    let digits := cs.takeWhile isAsciiDigit
    if digits = [] then none else some (digits, cs.dropWhile isAsciiDigit)

/-- A number without its sign: whole, or a float if it has a point or an exponent. -/
def readNumber? (negative : Bool) (cs : List Char) : Option (Number × List Char) := do
  let (whole, afterWhole) ← readWholeDigits? cs
  let (fraction, afterFraction) := readFraction afterWhole
  let (power, rest) := readPower afterFraction
  match fraction, power with
  | none, none =>
    let n := digitsValue whole
    some (.whole (if negative then -(n : Int) else n), rest)
  | _, _ =>
    let places := fraction.getD []
    let x := Number.floatOfDecimal (digitsValue (whole ++ places)) (power.getD 0 - places.length)
    some (.float (if negative then -x else x), rest)

/-- What follows the word at the start of a text. -/
def afterWord? (word : String) (cs : List Char) : Option (List Char) :=
  if cs.take word.length = word.toList then some (cs.drop word.length) else none

/-- The words that stand for scalars. -/
def words : List (String × Scalar) :=
  [("true", .flag true), ("false", .flag false), ("null", .blank),
    ("NaN", .number (.float Number.undefined)), ("Infinity", .number (.float Number.infinity)),
    ("-Infinity", .number (.float (-Number.infinity)))]

/-- The piece at the start of a text, and what follows it. -/
def readPiece? : List Char → Option (Piece × List Char)
  | '[' :: cs => some (.openList, cs)
  | ']' :: cs => some (.closeList, cs)
  | '\x7b' :: cs => some (.openMapping, cs)
  | '\x7d' :: cs => some (.closeMapping, cs)
  | ',' :: cs => some (.comma, cs)
  | ':' :: cs => some (.colon, cs)
  | '"' :: cs =>
    (readString? 0 cs).map fun p => (.scalar (.text (String.ofList p.1)), p.2)
  | cs =>
    match words.findSome? fun w => (afterWord? w.1 cs).map fun rest => (w.2, rest) with
    | some (s, rest) => some (.scalar s, rest)
    | none =>
      let (negative, body) :=
        match cs with
        | '-' :: body => (true, body)
        | body => (false, body)
      (readNumber? negative body).map fun p => (.scalar (.number p.1), p.2)

/-- The pieces of a text. The first `skip` characters belong to a piece that was read already. -/
def pieces? : (skip : Nat) → List Char → Option (List Piece)
  | _, [] => some []
  | skip + 1, _ :: cs => pieces? skip cs
  | 0, c :: cs =>
    if isSpace c then pieces? 0 cs
    else
      match readPiece? (c :: cs) with
      | none => none
      | some (p, rest) => (pieces? (cs.length - rest.length) cs).map (p :: ·)

/-! ## 2. Putting values together -/

/-- A container that is still open. -/
inductive Container where
  /-- A list with its items so far, the last first. -/
  | list (items : List Value)
  /-- A mapping with its entries so far, and the name whose value comes next or came last. -/
  | mapping (entries : Listing Value) (name : String)

/-- What may come next. -/
inductive Expectation where
  /-- A value. -/
  | value
  /-- The first item of a list, or its end. -/
  | itemOrEnd
  /-- The first name of a mapping, or its end. -/
  | nameOrEnd
  /-- A further name of a mapping. -/
  | name
  /-- The colon after a name. -/
  | colon
  /-- A comma, or the end of the innermost container. -/
  | commaOrEnd
  /-- Nothing: the value is complete. -/
  | nothing (v : Value)

/-- How far the reading has come. -/
structure Progress where
  /-- What may come next. -/
  expectation : Expectation
  /-- The containers that are open, the innermost first. -/
  containers : List Container

/-- The progress after a complete value. -/
def Progress.after (v : Value) : List Container → Progress
  | [] => ⟨.nothing v, []⟩
  | .list items :: cs => ⟨.commaOrEnd, .list (v :: items) :: cs⟩
  | .mapping entries name :: cs => ⟨.commaOrEnd, .mapping (entries.put name v) name :: cs⟩

/-- The progress after a piece where a value has to begin. -/
def Progress.begin? (containers : List Container) : Piece → Option Progress
  | .scalar s => some (.after (.scalar s) containers)
  | .openList => some ⟨.itemOrEnd, .list [] :: containers⟩
  | .openMapping => some ⟨.nameOrEnd, .mapping [] "" :: containers⟩
  | _ => none

/-- The progress after the end of the innermost container. -/
def Progress.close? : Piece → List Container → Option Progress
  | .closeList, .list items :: cs => some (.after (.list items.reverse) cs)
  | .closeMapping, .mapping entries _ :: cs => some (.after (.mapping entries) cs)
  | _, _ => none

/-- The progress after a name. -/
def Progress.named? : Piece → List Container → Option Progress
  | .scalar (.text s), .mapping entries _ :: cs => some ⟨.colon, .mapping entries s :: cs⟩
  | _, _ => none

/-- The progress after one more piece. -/
def Progress.step? (p : Progress) (piece : Piece) : Option Progress :=
  match p.expectation with
  | .value => Progress.begin? p.containers piece
  | .itemOrEnd => (Progress.close? piece p.containers).or (Progress.begin? p.containers piece)
  | .nameOrEnd => (Progress.close? piece p.containers).or (Progress.named? piece p.containers)
  | .name => Progress.named? piece p.containers
  | .colon =>
    match piece with
    | .colon => some ⟨.value, p.containers⟩
    | _ => none
  | .commaOrEnd =>
    match piece, p.containers with
    | .comma, .list _ :: _ => some ⟨.value, p.containers⟩
    | .comma, .mapping _ _ :: _ => some ⟨.name, p.containers⟩
    | _, _ => Progress.close? piece p.containers
  | .nothing _ => none

end Appraisal.Json

namespace Appraisal

/-- The value that a JSON text writes. -/
def Value.ofJson? (text : String) : Option Value := do
  let pieces ← Json.pieces? 0 text.toList
  let progress ← pieces.foldlM Json.Progress.step? ⟨.value, []⟩
  match progress.expectation with
  | .nothing v => some v
  | _ => none

end Appraisal
