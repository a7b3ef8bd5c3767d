import Appraisal.Text.Digit
import Appraisal.Text.Letter

/-!
# How a reference is spelled

A reference names a cell by column letters and row digits, each after an optional dollar mark, and
may begin with a sheet: a bare name or a name between apostrophes, and an exclamation mark.

* `Spelling` — the parts of a reference; `Spelling.text` puts them together;
* `readCell?` — the part after the sheet, with all the digits that follow;
* `readSpelling?` — a whole reference at the start of a text: with a sheet if that leads to a
  cell, else without;
* `readMention?` — the same inside other text: what follows may not continue a name;
* `withSheet?_cases`, `exists_of_readFreeCell?` — what was read; `readMention?_text` — **a reference
  and what follows it make up the text**.

Which characters are letters is a parameter, since a formula reads them without regard to case and
an address takes ASCII alone.
-/

namespace Appraisal

open Appraisal.Text

/-! ## 1. Parts -/

/-- The sheet in front of a reference. -/
inductive SheetPrefix where
  /-- No sheet. -/
  | absent
  /-- A bare name. -/
  | bare (name : List Char)
  /-- A name between apostrophes. -/
  | quoted (name : List Char)
deriving DecidableEq

/-- The name of the sheet, if there is one. -/
def SheetPrefix.name? : SheetPrefix → Option (List Char)
  | .absent => none
  | .bare name => some name
  | .quoted name => some name

/-- The characters of the prefix, the exclamation mark included. -/
def SheetPrefix.text : SheetPrefix → List Char
  | .absent => []
  | .bare name => name ++ ['!']
  | .quoted name => '\x27' :: (name ++ ['\x27', '!'])

/-- The parts of a reference after its sheet. -/
structure CellSpelling where
  /-- Whether a dollar mark stands before the column. -/
  columnMark : Bool
  /-- The letters of the column. -/
  letters : List Char
  /-- Whether a dollar mark stands before the row. -/
  rowMark : Bool
  /-- The digits of the row. -/
  digits : List Char
deriving DecidableEq

/-- A dollar mark or nothing. -/
def markText (mark : Bool) : List Char :=
  if mark then ['$'] else []

/-- The characters of the reference after its sheet. -/
def CellSpelling.text (c : CellSpelling) : List Char :=
  markText c.columnMark ++ c.letters ++ (markText c.rowMark ++ c.digits)

/-- The parts of a reference. -/
structure Spelling where
  /-- The sheet. -/
  sheet : SheetPrefix
  /-- The cell on it. -/
  cell : CellSpelling
deriving DecidableEq

/-- The characters of the reference. -/
def Spelling.text (s : Spelling) : List Char :=
  s.sheet.text ++ s.cell.text

/-! ## 2. Reading the parts -/

/-- A character of a bare sheet name or of a function's name after its first: a letter, an ASCII
    digit, a low line or a point. -/
def isNameChar (letter : Char → Bool) (c : Char) : Bool :=
  letter c || isAsciiDigit c || c == '_' || c == '.'

/-- A character that, right after a reference, would continue it to something else: a letter, an
    ASCII digit, a low line or an opening parenthesis. -/
def continuesName (letter : Char → Bool) (c : Char) : Bool :=
  letter c || isAsciiDigit c || c == '_' || c == '('

/-- The sheet at the start of a text and what follows its exclamation mark. -/
def readPrefix? (letter : Char → Bool) : List Char → Option (SheetPrefix × List Char)
  | '\x27' :: cs =>
    match cs.takeWhile (· ≠ '\x27'), cs.dropWhile (· ≠ '\x27') with
    | n :: name, _ :: '!' :: rest => some (.quoted (n :: name), rest)
    | _, _ => none
  | cs =>
    match cs.takeWhile (isNameChar letter), cs.dropWhile (isNameChar letter) with
    | n :: name, '!' :: rest => some (.bare (n :: name), rest)
    | _, _ => none

/-- The dollar mark at the start of a text, if there is one, and what follows. -/
def readMark : List Char → Bool × List Char
  | '$' :: cs => (true, cs)
  | cs => (false, cs)

/-- A cell at the start of a text, one to three letters and all the digits after them, and what
    follows. -/
def readCell? (letter : Char → Bool) (cs : List Char) : Option (CellSpelling × List Char) :=
  let (columnMark, afterMark) := readMark cs
  let letters := afterMark.takeWhile letter
  let (rowMark, afterLetters) := readMark (afterMark.dropWhile letter)
  let digits := afterLetters.takeWhile isDigit
  if letters = [] ∨ 3 < letters.length ∨ digits = [] then none
  else some (⟨columnMark, letters, rowMark, digits⟩, afterLetters.dropWhile isDigit)

/-- The longest part of the digits, at least one, after which the text does not go on with a
    character that would continue a name; and what follows that part. -/
def releaseDigits (blocked : Char → Bool) :
    (digits rest : List Char) → Option (List Char × List Char)
  | [], _ => none
  | d :: ds, rest =>
    match releaseDigits blocked ds rest with
    | some (more, after) => some (d :: more, after)
    | none => if (ds ++ rest).head?.any blocked then none else some ([d], ds ++ rest)

/-- A cell at the start of a text that no character after it continues. -/
def readFreeCell? (letter : Char → Bool) (cs : List Char) : Option (CellSpelling × List Char) := do
  let (cell, rest) ← readCell? letter cs
  let (digits, after) ← releaseDigits (continuesName letter) cell.digits rest
  some (⟨cell.columnMark, cell.letters, cell.rowMark, digits⟩, after)

/-! ## 3. Reading a reference -/

/-- What `read` finds after a sheet, or without one where there is no sheet or nothing is found
    after it. -/
def withSheet? {α : Type} (letter : Char → Bool) (read : List Char → Option (α × List Char))
    (cs : List Char) : Option ((SheetPrefix × α) × List Char) :=
  let qualified := (readPrefix? letter cs).bind fun p =>
    (read p.2).map fun r => ((p.1, r.1), r.2)
  qualified.or ((read cs).map fun r => ((.absent, r.1), r.2))

/-- A reference at the start of a text, with all the digits that follow, and the rest. -/
def readSpelling? (letter : Char → Bool) (cs : List Char) : Option (Spelling × List Char) :=
  (withSheet? letter (readCell? letter) cs).map fun r => (⟨r.1.1, r.1.2⟩, r.2)

/-- A reference at the start of a text that no character after it continues, and the rest. -/
def readMention? (letter : Char → Bool) (cs : List Char) : Option (Spelling × List Char) :=
  (withSheet? letter (readFreeCell? letter) cs).map fun r => (⟨r.1.1, r.1.2⟩, r.2)

/-! ## 4. What was read -/

section Read

variable {letter : Char → Bool} {cs rest : List Char}

theorem releaseDigits_ne_nil {blocked : Char → Bool} {digits kept after : List Char}
    (h : releaseDigits blocked digits rest = some (kept, after)) : kept ≠ [] := by
  cases digits with
  | nil => cases h
  | cons d ds =>
    unfold releaseDigits at h
    split at h
    · cases h
      exact List.cons_ne_nil _ _
    · split at h
      · cases h
      · cases h
        exact List.cons_ne_nil _ _

/-- A free cell is a cell that was read and has given back the last of its digits. -/
theorem exists_of_readFreeCell? {c : CellSpelling} (h : readFreeCell? letter cs = some (c, rest)) :
    ∃ digits mid, readCell? letter cs = some (⟨c.columnMark, c.letters, c.rowMark, digits⟩, mid) ∧
      releaseDigits (continuesName letter) digits mid = some (c.digits, rest) := by
  unfold readFreeCell? at h
  simp only [Option.bind_eq_bind, Option.bind_eq_some_iff, Prod.exists, Option.some.injEq,
    Prod.mk.injEq] at h
  obtain ⟨cell, mid, hcell, digits, after, hdigits, rfl, rfl⟩ := h
  exact ⟨cell.digits, mid, hcell, hdigits⟩

/-- What was read with a sheet or without one stands after a sheet that was read, or there is
    none. -/
theorem withSheet?_cases {α : Type} {read : List Char → Option (α × List Char)} {p : SheetPrefix}
    {a : α} (h : withSheet? letter read cs = some ((p, a), rest)) :
    (∃ mid, readPrefix? letter cs = some (p, mid) ∧ read mid = some (a, rest)) ∨
      p = .absent ∧ read cs = some (a, rest) := by
  unfold withSheet? at h
  simp only [Option.or_eq_some_iff, Option.bind_eq_some_iff, Option.map_eq_some_iff, Prod.exists,
    Prod.mk.injEq] at h
  rcases h with ⟨q, mid, hp, b, r, hr, ⟨rfl, rfl⟩, rfl⟩ | ⟨-, b, r, hr, ⟨rfl, rfl⟩, rfl⟩
  · exact Or.inl ⟨mid, hp, hr⟩
  · exact Or.inr ⟨rfl, hr⟩

theorem withSheet?_of_readMention? {s : Spelling} (h : readMention? letter cs = some (s, rest)) :
    withSheet? letter (readFreeCell? letter) cs = some ((s.sheet, s.cell), rest) := by
  obtain ⟨⟨⟨p, c⟩, r⟩, hread, heq⟩ := Option.map_eq_some_iff.mp h
  cases heq
  exact hread

theorem withSheet?_of_readSpelling? {s : Spelling} (h : readSpelling? letter cs = some (s, rest)) :
    withSheet? letter (readCell? letter) cs = some ((s.sheet, s.cell), rest) := by
  obtain ⟨⟨⟨p, c⟩, r⟩, hread, heq⟩ := Option.map_eq_some_iff.mp h
  cases heq
  exact hread

/-- What is read as a reference ends with a cell that is read. -/
theorem exists_readFreeCell? {s : Spelling} (h : readMention? letter cs = some (s, rest)) :
    ∃ mid, readFreeCell? letter mid = some (s.cell, rest) := by
  rcases withSheet?_cases (withSheet?_of_readMention? h) with ⟨mid, -, hcell⟩ | ⟨-, hcell⟩
  · exact ⟨mid, hcell⟩
  · exact ⟨cs, hcell⟩

end Read

/-! ## 5. Nothing is lost -/

theorem readMark_text {cs : List Char} : markText (readMark cs).1 ++ (readMark cs).2 = cs := by
  unfold readMark
  split <;> simp [markText]

theorem readCell?_text {letter : Char → Bool} {cs rest : List Char} {c : CellSpelling}
    (h : readCell? letter cs = some (c, rest)) : c.text ++ rest = cs := by
  unfold readCell? at h
  simp only at h
  split at h
  · simp at h
  · simp only [Option.some.injEq, Prod.mk.injEq] at h
    obtain ⟨rfl, rfl⟩ := h
    simp only [CellSpelling.text, List.append_assoc, List.takeWhile_append_dropWhile]
    rw [readMark_text, List.takeWhile_append_dropWhile, readMark_text]

theorem releaseDigits_text {blocked : Char → Bool} {digits rest kept after : List Char}
    (h : releaseDigits blocked digits rest = some (kept, after)) :
    kept ++ after = digits ++ rest := by
  induction digits generalizing kept with
  | nil => simp [releaseDigits] at h
  | cons d ds ih =>
    unfold releaseDigits at h
    split at h
    · rename_i more after' hm
      simp only [Option.some.injEq, Prod.mk.injEq] at h
      obtain ⟨rfl, rfl⟩ := h
      simp [ih hm]
    · split at h
      · simp at h
      · simp only [Option.some.injEq, Prod.mk.injEq] at h
        obtain ⟨rfl, rfl⟩ := h
        rfl

theorem readFreeCell?_text {letter : Char → Bool} {cs rest : List Char} {c : CellSpelling}
    (h : readFreeCell? letter cs = some (c, rest)) : c.text ++ rest = cs := by
  obtain ⟨digits, mid, hcell, hdigits⟩ := exists_of_readFreeCell? h
  rw [← readCell?_text hcell]
  simp only [CellSpelling.text, List.append_assoc]
  rw [releaseDigits_text hdigits]

theorem readPrefix?_text {letter : Char → Bool} {cs rest : List Char} {p : SheetPrefix}
    (h : readPrefix? letter cs = some (p, rest)) : p.text ++ rest = cs := by
  unfold readPrefix? at h
  split at h
  · rename_i cs'
    split at h
    · rename_i n name x rest' ht hd
      simp only [Option.some.injEq, Prod.mk.injEq] at h
      obtain ⟨rfl, rfl⟩ := h
      have hx : x = '\x27' := by
        have := List.head?_dropWhile_not (fun c => decide (c ≠ '\x27')) cs'
        rw [hd] at this
        simpa using this
      subst hx
      have hall := @List.takeWhile_append_dropWhile _ (fun c => decide (c ≠ '\x27')) cs'
      rw [ht, hd] at hall
      simp [SheetPrefix.text, ← hall]
    · simp at h
  · split at h
    · rename_i n name rest' ht hd
      simp only [Option.some.injEq, Prod.mk.injEq] at h
      obtain ⟨rfl, rfl⟩ := h
      have hall := @List.takeWhile_append_dropWhile _ (isNameChar letter) cs
      rw [ht, hd] at hall
      simp [SheetPrefix.text, ← hall]
    · simp at h

theorem withSheet?_text {α : Type} {letter : Char → Bool}
    {read : List Char → Option (α × List Char)} {text : α → List Char}
    (hread : ∀ {cs rest : List Char} {a : α}, read cs = some (a, rest) → text a ++ rest = cs)
    {cs rest : List Char} {p : SheetPrefix} {a : α}
    (h : withSheet? letter read cs = some ((p, a), rest)) : p.text ++ text a ++ rest = cs := by
  rcases withSheet?_cases h with ⟨mid, hp, ha⟩ | ⟨rfl, ha⟩
  · rw [List.append_assoc, hread ha, readPrefix?_text hp]
  · exact hread ha

/-- **A reference and what follows it make up the text.** -/
theorem readMention?_text {letter : Char → Bool} {cs rest : List Char} {s : Spelling}
    (h : readMention? letter cs = some (s, rest)) : s.text ++ rest = cs :=
  withSheet?_text readFreeCell?_text (withSheet?_of_readMention? h)

end Appraisal
