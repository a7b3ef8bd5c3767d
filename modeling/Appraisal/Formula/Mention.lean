import Appraisal.Address.Range
import Appraisal.Formula.Lexeme
import Appraisal.Text.Upper

/-!
# Mentions of cells in formula text

What a formula mentions is found in its text alone, whether or not the text lies within the
grammar: texts between quotes are taken out, and then references, ranges and function names are
looked for from left to right.

* `withoutTexts` — the text without the texts between quotes;
* `findAll` — all the places where a reader finds something, none overlapping;
* `mentionedCells`, `mentionedRanges`, `mentionedFunctions` — what is mentioned, each once;
* `allReferences` — every cell mentioned, by itself or within a range.
-/

namespace Appraisal.Formula

open Appraisal.Text

/-! ## 1. Looking through a text -/

/-- The text without the texts between quotes. -/
def withoutTexts (cs : List Char) : List Char :=
  match cs with
  | [] => []
  | c :: cs' =>
    match _h : readText? (c :: cs') with
    | some (_, rest) => withoutTexts rest
    | none => c :: withoutTexts cs'
termination_by cs.length
decreasing_by
  · obtain ⟨h1, h2⟩ := readText?_text _h
    have := List.length_pos_iff.2 h2
    rw [← h1, List.length_append]
    omega
  · simp

/-- Something found in a text. -/
structure Found (α : Type) where
  /-- The position of its first character. -/
  start : Nat
  /-- The position after its last character. -/
  stop : Nat
  /-- What was found. -/
  item : α

/-- All that the reader finds, from left to right. The first `skip` characters belong to what was
    found before and are passed over; the first character of the text has the position. -/
def findAll {α : Type} (read : List Char → Option (α × List Char)) :
    (skip position : Nat) → List Char → List (Found α)
  | _, _, [] => []
  | skip + 1, position, _ :: cs => findAll read skip (position + 1) cs
  | 0, position, c :: cs =>
    match read (c :: cs) with
    | some (item, rest) =>
      ⟨position, position + ((c :: cs).length - rest.length), item⟩ ::
        findAll read (cs.length - rest.length) (position + 1) cs
    | none => findAll read 0 (position + 1) cs

/-! ## 2. Readers -/

/-- The two corners of a range about a colon that blanks may surround. -/
def readCorners? (cs : List Char) : Option ((CellSpelling × CellSpelling) × List Char) := do
  let (first, rest) ← readCell? isCaseLetter cs
  match rest.dropWhile isBlank with
  | ':' :: after => do
    let (last, rest) ← readFreeCell? isCaseLetter (after.dropWhile isBlank)
    some ((first, last), rest)
  | _ => none

/-- A range with or without a sheet. -/
def readRangeMention? (cs : List Char) :
    Option ((SheetPrefix × CellSpelling × CellSpelling) × List Char) :=
  withSheet? isCaseLetter readCorners? cs

/-- The name of a function and the parenthesis after it. -/
def readCallee? (cs : List Char) : Option (List Char × List Char) :=
  (readName? cs).map fun p => (p.1, (p.2.dropWhile isBlank).drop 1)

/-! ## 3. Mentions -/

/-- The column and row of a mention without marks: letters in upper case, digits as they stand. -/
def bareCell (c : CellSpelling) : List Char :=
  upper c.letters ++ c.digits

/-- The sheet of a mention, or the current one where it has none. -/
def mentionedSheet (sheet : SheetPrefix) (current : String) : List Char :=
  sheet.name?.getD current.toList

/-- The key of a mentioned cell. -/
def cellKey (current : String) (s : Spelling) : String :=
  String.ofList (mentionedSheet s.sheet current ++ '!' :: bareCell s.cell)

/-- The span of a mentioned range, with its sheet. -/
def spanKey (current : String) (r : SheetPrefix × CellSpelling × CellSpelling) : String :=
  String.ofList
    (mentionedSheet r.1 current ++ '!' :: (bareCell r.2.1 ++ ':' :: bareCell r.2.2))

/-- The ranges mentioned in a text. -/
def rangesIn (cs : List Char) : List (Found (SheetPrefix × CellSpelling × CellSpelling)) :=
  findAll readRangeMention? 0 0 cs

/-- The single cells mentioned in a text: references that do not begin within a range. -/
def cellsIn (cs : List Char) : List (Found Spelling) :=
  let ranges := rangesIn cs
  (findAll (readMention? isCaseLetter) 0 0 cs).filter fun m =>
    !ranges.any fun r => decide (r.start ≤ m.start) && decide (m.start < r.stop)

/-- The keys of the single cells that a formula mentions, each once. -/
def mentionedCells (formula current : String) : List String :=
  ((cellsIn (withoutTexts formula.toList)).map fun m => cellKey current m.item).eraseDups

/-- The ranges that a formula mentions, each once. -/
def mentionedRanges (formula current : String) : List String :=
  ((rangesIn (withoutTexts formula.toList)).map fun m => spanKey current m.item).eraseDups

/-- The names in upper case of the functions that a formula mentions, each once. -/
def mentionedFunctions (formula : String) : List String :=
  ((findAll readCallee? 0 0 (withoutTexts formula.toList)).map fun m =>
    String.ofList (upper m.item)).eraseDups

/-- The keys of all the cells that a formula mentions, each once: first those by themselves, then
    those of its ranges. A range whose corners are no bare references has no cells to name. -/
def allReferences (formula current : String) : Except Fault (List String) := do
  let spread ← (mentionedRanges formula current).mapM expandRange
  pure (mentionedCells formula current ++ spread.flatten).eraseDups

end Appraisal.Formula
