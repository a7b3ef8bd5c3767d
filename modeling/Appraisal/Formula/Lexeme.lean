import Appraisal.Address.Spelling
import Appraisal.Text.Blank

/-!
# The smallest parts of a formula

Each reader takes what it finds at the start of a text and returns it with the rest:

* `readText?` — a text between double quotes, a quote inside it written twice;
* `readName?` — a function's name, which an opening parenthesis has to follow;
* `readTruth?` — the words TRUE and FALSE in any case, where no name goes on;
* `readNumeral?` — a number without a sign;
* `readBlanks?` — a run of blanks.

References are read by `readMention?`. Beside each reader stands its law that nothing is lost: what
it takes and the rest make up the text.
-/

namespace Appraisal.Formula

open Appraisal.Text

/-! ## 1. Texts -/

/-- What follows an opening quote up to and including the quote that closes it, and the rest. Two
    quotes in a row stand for one inside the text, unless no quote closes the text after them: then
    the first of the last such two closes it. -/
def readTextTail? : List Char → Option (List Char × List Char)
  | [] => none
  | '"' :: '"' :: cs =>
    match readTextTail? cs with
    | some (tail, rest) => some ('"' :: '"' :: tail, rest)
    | none => some (['"'], '"' :: cs)
  | c :: cs =>
    if c = '"' then some (['"'], cs) else (readTextTail? cs).map fun p => (c :: p.1, p.2)

/-- A text between double quotes. -/
def readText? : List Char → Option (List Char × List Char)
  | '"' :: cs => (readTextTail? cs).map fun p => ('"' :: p.1, p.2)
  | _ => none

theorem readTextTail?_text {cs tail rest : List Char} (h : readTextTail? cs = some (tail, rest)) :
    tail ++ rest = cs := by
  fun_induction readTextTail? cs generalizing tail rest with
  | case1 => simp at h
  | case2 cs tail' rest' hr ih =>
    simp only [Option.some.injEq, Prod.mk.injEq] at h
    obtain ⟨rfl, rfl⟩ := h
    simp [ih hr]
  | case3 cs hr ih =>
    simp only [Option.some.injEq, Prod.mk.injEq] at h
    obtain ⟨rfl, rfl⟩ := h
    rfl
  | case4 cs hne =>
    simp only [Option.some.injEq, Prod.mk.injEq] at h
    obtain ⟨rfl, rfl⟩ := h
    rfl
  | case5 c cs hne hc ih =>
    simp only [Option.map_eq_some_iff, Prod.mk.injEq, Prod.exists] at h
    obtain ⟨t, r, hr, rfl, rfl⟩ := h
    simp [ih hr]

theorem readText?_text {cs text rest : List Char} (h : readText? cs = some (text, rest)) :
    text ++ rest = cs ∧ text ≠ [] := by
  unfold readText? at h
  split at h
  · simp only [Option.map_eq_some_iff, Prod.mk.injEq, Prod.exists] at h
    obtain ⟨t, r, hr, rfl, rfl⟩ := h
    simp [readTextTail?_text hr]
  · simp at h

/-! ## 2. Names and words -/

/-- A function's name: a letter and more characters of a name, before an opening parenthesis that
    blanks may precede. -/
def readName? : List Char → Option (List Char × List Char)
  | [] => none
  | c :: cs =>
    let name := c :: cs.takeWhile (isNameChar isCaseLetter)
    let rest := cs.dropWhile (isNameChar isCaseLetter)
    if isCaseLetter c ∧ (rest.dropWhile isBlank).head? = some '(' then some (name, rest) else none

theorem readName?_text {cs name rest : List Char} (h : readName? cs = some (name, rest)) :
    name ++ rest = cs ∧ name ≠ [] := by
  unfold readName? at h
  split at h
  · simp at h
  · simp only at h
    split at h
    · simp only [Option.some.injEq, Prod.mk.injEq] at h
      obtain ⟨rfl, rfl⟩ := h
      simp
    · simp at h

/-- Whether a character is read as the capital letter: it is that letter in either case, or the
    long s for S. -/
def readsAs (capital c : Char) : Bool :=
  c.toUpper == capital || (capital == 'S' && c == '\u017f')

/-- The word in any case at the start of a text. -/
def readWord? : (word : List Char) → List Char → Option (List Char × List Char)
  | [], cs => some ([], cs)
  | _ :: _, [] => none
  | w :: word, c :: cs =>
    if readsAs w c then (readWord? word cs).map fun p => (c :: p.1, p.2) else none

theorem readWord?_text {word cs text rest : List Char}
    (h : readWord? word cs = some (text, rest)) :
    text ++ rest = cs ∧ text.length = word.length := by
  induction word generalizing cs text with
  | nil =>
    simp only [readWord?, Option.some.injEq, Prod.mk.injEq] at h
    obtain ⟨rfl, rfl⟩ := h
    exact ⟨rfl, rfl⟩
  | cons w word ih =>
    cases cs with
    | nil => simp [readWord?] at h
    | cons c cs =>
      simp only [readWord?] at h
      split at h
      · simp only [Option.map_eq_some_iff, Prod.mk.injEq, Prod.exists] at h
        obtain ⟨t, r, hr, rfl, rfl⟩ := h
        simp [ih hr]
      · simp at h

/-- A character that, right after TRUE or FALSE, makes the word part of a name or of a sheet. -/
def continuesWord (c : Char) : Bool :=
  isCaseLetter c || isAsciiDigit c || c == '_' || c == '!'

/-- The word TRUE or FALSE, where nothing continues it. -/
def readTruth? (cs : List Char) : Option (List Char × List Char) :=
  match (readWord? "TRUE".toList cs).or (readWord? "FALSE".toList cs) with
  | some (word, rest) => if rest.head?.any continuesWord then none else some (word, rest)
  | none => none

theorem readTruth?_text {cs text rest : List Char} (h : readTruth? cs = some (text, rest)) :
    text ++ rest = cs ∧ text ≠ [] := by
  unfold readTruth? at h
  split at h
  · rename_i word rest' hw
    split at h
    · simp at h
    · simp only [Option.some.injEq, Prod.mk.injEq] at h
      obtain ⟨rfl, rfl⟩ := h
      rw [Option.or_eq_some_iff] at hw
      rcases hw with hw | ⟨-, hw⟩
      all_goals
        obtain ⟨h1, h2⟩ := readWord?_text hw
        refine ⟨h1, ?_⟩
        rintro rfl
        simp at h2
  · simp at h

/-! ## 3. Numerals -/

/-- The digits at the start of a text, and the rest. -/
def readDigits (cs : List Char) : List Char × List Char :=
  (cs.takeWhile isDigit, cs.dropWhile isDigit)

/-- A sign at the start of a text, or nothing, and the rest. -/
def readSign : List Char → List Char × List Char
  | '+' :: cs => (['+'], cs)
  | '-' :: cs => (['-'], cs)
  | cs => ([], cs)

/-- The exponent at the start of a text, or nothing where no digit follows the letter e and the
    sign; and the rest. -/
def readExponent : List Char → List Char × List Char
  | [] => ([], [])
  | c :: cs =>
    let sign := readSign cs
    let digits := readDigits sign.2
    if (c = 'e' ∨ c = 'E') ∧ digits.1 ≠ [] then (c :: (sign.1 ++ digits.1), digits.2)
    else ([], c :: cs)

/-- The digits of a number with a point after, among or before them, and the rest. -/
def readMantissa? (cs : List Char) : Option (List Char × List Char) :=
  let whole := readDigits cs
  match whole.2 with
  | '.' :: after =>
    let fraction := readDigits after
    if whole.1 = [] ∧ fraction.1 = [] then none
    else some (whole.1 ++ '.' :: fraction.1, fraction.2)
  | rest => if whole.1 = [] then none else some (whole.1, rest)

/-- A number without a sign. -/
def readNumeral? (cs : List Char) : Option (List Char × List Char) :=
  (readMantissa? cs).map fun m =>
    let exponent := readExponent m.2
    (m.1 ++ exponent.1, exponent.2)

theorem readDigits_text (cs : List Char) : (readDigits cs).1 ++ (readDigits cs).2 = cs := by
  simp [readDigits]

theorem readSign_text (cs : List Char) : (readSign cs).1 ++ (readSign cs).2 = cs := by
  unfold readSign
  split <;> rfl

theorem readExponent_text (cs : List Char) : (readExponent cs).1 ++ (readExponent cs).2 = cs := by
  unfold readExponent
  split
  · rfl
  · simp only
    split
    · simp [readDigits_text, readSign_text]
    · rfl

theorem readMantissa?_text {cs text rest : List Char} (h : readMantissa? cs = some (text, rest)) :
    text ++ rest = cs ∧ text ≠ [] := by
  have hall := readDigits_text cs
  unfold readMantissa? at h
  simp only at h
  split at h
  · rename_i after hw
    rw [hw] at hall
    split at h
    · simp at h
    · simp only [Option.some.injEq, Prod.mk.injEq] at h
      obtain ⟨rfl, rfl⟩ := h
      exact ⟨by simpa [readDigits_text] using hall, by simp⟩
  · split at h
    · simp at h
    · rename_i hne
      simp only [Option.some.injEq, Prod.mk.injEq] at h
      obtain ⟨rfl, rfl⟩ := h
      exact ⟨hall, hne⟩

theorem readNumeral?_text {cs text rest : List Char} (h : readNumeral? cs = some (text, rest)) :
    text ++ rest = cs ∧ text ≠ [] := by
  unfold readNumeral? at h
  simp only [Option.map_eq_some_iff, Prod.mk.injEq, Prod.exists] at h
  obtain ⟨m, r, hm, rfl, rfl⟩ := h
  obtain ⟨h1, h2⟩ := readMantissa?_text hm
  refine ⟨?_, by simp [h2]⟩
  rw [List.append_assoc, readExponent_text, h1]

/-! ## 4. Blanks and single characters -/

/-- A run of blanks. -/
def readBlanks? (cs : List Char) : Option (List Char × List Char) :=
  let blanks := cs.takeWhile isBlank
  if blanks = [] then none else some (blanks, cs.dropWhile isBlank)

/-- A character of the class. -/
def readOne? (p : Char → Bool) : List Char → Option (List Char × List Char)
  | [] => none
  | c :: cs => if p c then some ([c], cs) else none

theorem readBlanks?_text {cs text rest : List Char} (h : readBlanks? cs = some (text, rest)) :
    text ++ rest = cs ∧ text ≠ [] := by
  unfold readBlanks? at h
  simp only at h
  split at h
  · simp at h
  · rename_i hne
    simp only [Option.some.injEq, Prod.mk.injEq] at h
    obtain ⟨rfl, rfl⟩ := h
    exact ⟨by simp, hne⟩

theorem readOne?_text {p : Char → Bool} {cs text rest : List Char}
    (h : readOne? p cs = some (text, rest)) : text ++ rest = cs ∧ text ≠ [] := by
  unfold readOne? at h
  split at h
  · simp at h
  · split at h
    · simp only [Option.some.injEq, Prod.mk.injEq] at h
      obtain ⟨rfl, rfl⟩ := h
      simp
    · simp at h

/-- A reference has a letter and a digit, so it is not empty. -/
theorem readMention?_ne_nil {letter : Char → Bool} {cs rest : List Char} {s : Spelling}
    (h : readMention? letter cs = some (s, rest)) : s.text ≠ [] := by
  obtain ⟨mid, hcell⟩ := exists_readFreeCell? h
  obtain ⟨digits, mid', -, hdigits⟩ := exists_of_readFreeCell? hcell
  simp [Spelling.text, CellSpelling.text, releaseDigits_ne_nil hdigits]

end Appraisal.Formula
