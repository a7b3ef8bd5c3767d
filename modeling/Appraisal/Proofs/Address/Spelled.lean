import Appraisal.Address.Basic
import Appraisal.Formula.Mention
import Appraisal.Proofs.Text.Run

/-!
# Spellings are read back

A spelling that has the parts of a reference is read from its own text, whatever the text goes on
with, as long as it does not go on with a character of a word.

* `isWord` — a character that a reference, a name or a word may consist of;
* `Spelling.Sound` — a spelling with the parts of a reference; `readMention?_sound`;
* `readMention?_append` — **a sound spelling is read back from its text**;
* `readRangeMention?_append` — the same for two spellings about a colon;
* `Spelling.Sound.eq_of_text` — a text has one sound spelling.
-/

namespace Appraisal

open Appraisal.Text Appraisal.Formula

/-! ## 1. Characters -/

/-- A character of a bare reference, a name or a word: of a name, an exclamation mark, a dollar
    mark, or a digit of any script. -/
def isWord (c : Char) : Bool :=
  isNameChar isCaseLetter c || c == '!' || c == '$' || isDigit c

theorem exists_zeroDigit {c : Char} (h : isDigit c = true) :
    ∃ z ∈ zeroDigits, z ≤ c.toNat ∧ c.toNat < z + 10 := by
  unfold isDigit digitValue? at h
  obtain ⟨z, hz, hif⟩ := List.findSome?_isSome_iff.mp h
  split at hif
  · next hrange => exact ⟨z, hz, hrange⟩
  · cases hif

/-- A digit that is an ASCII character is an ASCII digit. -/
theorem isDigit_of_ascii {c : Char} (h : isDigit c = true) (hascii : c.toNat < 128) :
    c.isDigit = true := by
  have hrows : zeroDigits.all (fun z => z == 48 || Nat.ble 128 z) = true := by
    decide
  obtain ⟨z, hz, hlow, hhigh⟩ := exists_zeroDigit h
  have hrow := List.all_eq_true.mp hrows z hz
  rw [Bool.or_eq_true, beq_iff_eq, Nat.ble_eq] at hrow
  unfold Char.isDigit
  rw [Bool.and_eq_true, decide_eq_true_iff, decide_eq_true_iff]
  have hrange : 48 ≤ c.toNat ∧ c.toNat ≤ 57 := by omega
  exact ⟨UInt32.le_iff_toNat_le.mpr hrange.1, UInt32.le_iff_toNat_le.mpr hrange.2⟩

theorem toNat_of_isAlpha {c : Char} (h : c.isAlpha = true) :
    (65 ≤ c.toNat ∧ c.toNat ≤ 90) ∨ (97 ≤ c.toNat ∧ c.toNat ≤ 122) := by
  rcases (Bool.or_eq_true c.isUpper c.isLower).mp h with hupper | hlower
  · exact Or.inl (of_decide_eq_true hupper)
  · obtain ⟨hlow, hhigh⟩ := (Bool.and_eq_true _ _).mp hlower
    exact Or.inr ⟨of_decide_eq_true hlow, of_decide_eq_true hhigh⟩

/-- What holds of the ASCII letters and of the four others holds of a letter. -/
theorem forall_caseLetter {P : Char → Prop} (hletter : ∀ c, c.isAlpha = true → P c)
    (hothers : P '\u0130' ∧ P '\u0131' ∧ P '\u017f' ∧ P '\u212a') {c : Char}
    (hc : isCaseLetter c = true) : P c := by
  unfold isCaseLetter at hc
  simp only [Bool.or_eq_true, beq_iff_eq] at hc
  rcases hc with (((hc | rfl) | rfl) | rfl) | rfl
  · exact hletter c hc
  · exact hothers.1
  · exact hothers.2.1
  · exact hothers.2.2.1
  · exact hothers.2.2.2

/-- Whether no row of digits meets the code points from `first` to `last`. -/
def digitless (first last : Nat) : Bool :=
  zeroDigits.all fun z => Nat.blt last z || Nat.ble (z + 10) first

theorem not_isDigit_of_range {first last : Nat} (hfree : digitless first last = true) {c : Char}
    (hc : first ≤ c.toNat ∧ c.toNat ≤ last) : ¬ isDigit c = true := by
  intro h
  obtain ⟨z, hz, hlow, hhigh⟩ := exists_zeroDigit h
  have hmiss := List.all_eq_true.mp hfree z hz
  rw [Bool.or_eq_true, Nat.blt_eq, Nat.ble_eq] at hmiss
  omega

theorem isBlank_of_isDigit {c : Char} (h : isDigit c = true) : isBlank c = false := by
  rw [Bool.eq_false_iff]
  intro hblank
  simp only [isBlank, Bool.or_eq_true, Bool.and_eq_true, decide_eq_true_eq, beq_iff_eq] at hblank
  rcases hblank with (((((((((hb | hb) | hb) | hb) | hb) | hb) | hb) | hb) | hb) | hb) | hb
  all_goals first
    | exact not_isDigit_of_range (by decide) hb h
    | exact not_isDigit_of_range (by decide) ⟨Nat.le_of_eq hb.symm, Nat.le_of_eq hb⟩ h

theorem isCaseLetter_of_isDigit {c : Char} (h : isDigit c = true) : isCaseLetter c = false := by
  rw [Bool.eq_false_iff]
  intro hletter
  refine forall_caseLetter (P := fun c => ¬ isDigit c = true) (fun c hc => ?_) (by decide) hletter h
  rcases toNat_of_isAlpha hc with hupper | hlower
  · exact not_isDigit_of_range (by decide) hupper
  · exact not_isDigit_of_range (by decide) hlower

theorem isDigit_of_isCaseLetter {c : Char} (h : isCaseLetter c = true) : isDigit c = false := by
  rw [Bool.eq_false_iff]
  intro hdigit
  rw [isCaseLetter_of_isDigit hdigit] at h
  cases h

theorem isDigit_of_isBlank {c : Char} (h : isBlank c = true) : isDigit c = false := by
  rw [Bool.eq_false_iff]
  intro hdigit
  rw [isBlank_of_isDigit hdigit] at h
  cases h

theorem isAlpha_of_isDigit {c : Char} (h : isDigit c = true) : c.isAlpha = false := by
  rw [Bool.eq_false_iff]
  intro halpha
  rw [isDigit_of_isCaseLetter (isCaseLetter_of_isAlpha halpha)] at h
  cases h

/-- No digit has an upper case of its own among the characters beyond ASCII. -/
theorem upperBeyondAscii_of_isDigit {c : Char} (h : isDigit c = true) :
    upperBeyondAscii c = [c] := by
  have hexpansions : upperExpansions.all (fun e => digitless e.1 e.1) = true := by
    decide +kernel
  have hruns : upperRuns.all (fun r => digitless r.first r.last) = true := by
    decide +kernel
  have hexpansion : upperExpansions.find? (fun e => e.1 == c.toNat) = none := by
    refine List.find?_eq_none.mpr fun e he heq => ?_
    rw [beq_iff_eq] at heq
    exact not_isDigit_of_range (List.all_eq_true.mp hexpansions e he)
      ⟨Nat.le_of_eq heq, Nat.le_of_eq heq.symm⟩ h
  have hrun : upperRuns.find? (fun r => r.holds c.toNat) = none := by
    refine List.find?_eq_none.mpr fun r hr hholds => ?_
    simp only [CaseRun.holds, Bool.and_eq_true, decide_eq_true_eq] at hholds
    exact not_isDigit_of_range (List.all_eq_true.mp hruns r hr) hholds.1 h
  rw [upperBeyondAscii, hexpansion, hrun]

theorem toUpper_of_isDigit {c : Char} (h : isDigit c = true) : c.toUpper = c :=
  toUpper_eq_self fun hsmall => not_isDigit_of_range (by decide) hsmall h

theorem upperChar_of_isDigit {c : Char} (h : isDigit c = true) : upperChar c = [c] := by
  unfold upperChar
  rw [toUpper_of_isDigit h, upperBeyondAscii_of_isDigit h, ite_self]

/-- What holds of the letters, the ASCII digits, the low line and the point holds of a character of
    a name. -/
theorem forall_nameChar {P : Char → Prop} (hletter : ∀ c, isCaseLetter c = true → P c)
    (hdigit : ∀ c, isAsciiDigit c = true → P c) (hline : P '_') (hpoint : P '.') {c : Char}
    (hc : isNameChar isCaseLetter c = true) : P c := by
  unfold isNameChar at hc
  simp only [Bool.or_eq_true, beq_iff_eq] at hc
  rcases hc with ((hc | hc) | rfl) | rfl
  · exact hletter c hc
  · exact hdigit c hc
  · exact hline
  · exact hpoint

theorem not_isBlank_of_range {c : Char} (h : 33 ≤ c.toNat ∧ c.toNat ≤ 126) :
    isBlank c = false := by
  rw [Bool.eq_false_iff]
  intro hb
  simp only [isBlank, Bool.or_eq_true, Bool.and_eq_true, decide_eq_true_eq, beq_iff_eq] at hb
  omega

/-- No character of a word is blank. -/
theorem isBlank_of_isWord {c : Char} (h : isWord c = true) : isBlank c = false := by
  have hletter : ∀ c, isCaseLetter c = true → isBlank c = false := fun c hc =>
    forall_caseLetter (P := fun c => isBlank c = false)
      (fun c hc => not_isBlank_of_range (by have := toNat_of_isAlpha hc; omega))
      (by decide) hc
  have hdigit : ∀ c, isAsciiDigit c = true → isBlank c = false := by
    intro c hc
    unfold isAsciiDigit at hc
    simp only [Bool.and_eq_true, decide_eq_true_eq] at hc
    exact not_isBlank_of_range (by omega)
  unfold isWord at h
  simp only [Bool.or_eq_true, beq_iff_eq] at h
  rcases h with ((h | rfl) | rfl) | h
  · exact forall_nameChar (P := fun c => isBlank c = false) hletter hdigit rfl rfl h
  · rfl
  · rfl
  · exact isBlank_of_isDigit h

theorem isWord_of_isBlank {c : Char} (h : isBlank c = true) : isWord c = false := by
  rw [Bool.eq_false_iff]
  intro hword
  rw [isBlank_of_isWord hword] at h
  cases h

/-! ## 2. Sound spellings -/

/-- One to three letters, and digits. -/
structure CellSpelling.Sound (letter : Char → Bool) (c : CellSpelling) : Prop where
  letters_ne : c.letters ≠ []
  letters_le : c.letters.length ≤ 3
  letters : ∀ x ∈ c.letters, letter x = true
  digits_ne : c.digits ≠ []
  digits : ∀ x ∈ c.digits, isDigit x = true

/-- A bare name consists of characters of a name, a quoted one has no apostrophe, and neither is
    empty. -/
def SheetPrefix.Sound (letter : Char → Bool) : SheetPrefix → Prop
  | .absent => True
  | .bare name => name ≠ [] ∧ ∀ x ∈ name, isNameChar letter x = true
  | .quoted name => name ≠ [] ∧ '\x27' ∉ name

/-- The parts of a reference. -/
structure Spelling.Sound (letter : Char → Bool) (s : Spelling) : Prop where
  sheet : s.sheet.Sound letter
  cell : s.cell.Sound letter

section Sound

variable {letter : Char → Bool} {cs rest : List Char}

theorem readCell?_sound {c : CellSpelling} (h : readCell? letter cs = some (c, rest)) :
    c.Sound letter := by
  unfold readCell? at h
  simp only at h
  split at h
  · cases h
  · next hparts =>
    obtain ⟨hletters, hlength, hdigits⟩ := not_or.mp hparts |>.imp_right not_or.mp
    cases h
    exact ⟨hletters, Nat.le_of_not_lt hlength, fun x hx => of_mem_takeWhile hx, hdigits,
      fun x hx => of_mem_takeWhile hx⟩

theorem mem_of_mem_releaseDigits {blocked : Char → Bool} {digits kept after : List Char}
    (h : releaseDigits blocked digits rest = some (kept, after)) : ∀ x ∈ kept, x ∈ digits := by
  induction digits generalizing kept with
  | nil => cases h
  | cons d ds ih =>
    intro x hx
    unfold releaseDigits at h
    split at h
    · next more after' hmore =>
      cases h
      rcases List.mem_cons.mp hx with rfl | hx
      · exact List.mem_cons_self
      · exact List.mem_cons_of_mem d (ih hmore x hx)
    · split at h
      · cases h
      · cases h
        rw [List.mem_singleton.mp hx]
        exact List.mem_cons_self

theorem readFreeCell?_sound {c : CellSpelling} (h : readFreeCell? letter cs = some (c, rest)) :
    c.Sound letter := by
  obtain ⟨digits, mid, hcell, hdigits⟩ := exists_of_readFreeCell? h
  have hsound := readCell?_sound hcell
  exact ⟨hsound.letters_ne, hsound.letters_le, hsound.letters, releaseDigits_ne_nil hdigits,
    fun x hx => hsound.digits x (mem_of_mem_releaseDigits hdigits x hx)⟩

theorem readPrefix?_sound {p : SheetPrefix} (h : readPrefix? letter cs = some (p, rest)) :
    p.Sound letter := by
  unfold readPrefix? at h
  split at h
  · split at h
    · next n name x rest' htake hdrop =>
      cases h
      refine ⟨List.cons_ne_nil _ _, fun hmem => ?_⟩
      rw [← htake] at hmem
      exact of_decide_eq_true (of_mem_takeWhile hmem) rfl
    · cases h
  · split at h
    · next n name rest' htake hdrop =>
      cases h
      refine ⟨List.cons_ne_nil _ _, fun x hx => ?_⟩
      rw [← htake] at hx
      exact of_mem_takeWhile hx
    · cases h

/-- A reader of sheets never returns that there is none. -/
theorem readPrefix?_ne_absent {p : SheetPrefix} (h : readPrefix? letter cs = some (p, rest)) :
    p ≠ .absent := by
  intro habsent
  rw [habsent] at h
  unfold readPrefix? at h
  split at h <;> split at h <;> cases h

theorem withSheet?_sound {α : Type} {read : List Char → Option (α × List Char)} {P : α → Prop}
    (hread : ∀ {cs rest : List Char} {a : α}, read cs = some (a, rest) → P a) {p : SheetPrefix}
    {a : α} (h : withSheet? letter read cs = some ((p, a), rest)) : p.Sound letter ∧ P a := by
  rcases withSheet?_cases h with ⟨mid, hp, ha⟩ | ⟨rfl, ha⟩
  · exact ⟨readPrefix?_sound hp, hread ha⟩
  · exact ⟨trivial, hread ha⟩

theorem readMention?_sound {s : Spelling} (h : readMention? letter cs = some (s, rest)) :
    s.Sound letter := by
  have hread := withSheet?_of_readMention? h
  obtain ⟨hp, hc⟩ := withSheet?_sound (P := fun c => c.Sound letter) readFreeCell?_sound hread
  exact ⟨hp, hc⟩

theorem readSpelling?_sound {s : Spelling} (h : readSpelling? letter cs = some (s, rest)) :
    s.Sound letter := by
  have hread := withSheet?_of_readSpelling? h
  obtain ⟨hp, hc⟩ := withSheet?_sound (P := fun c => c.Sound letter) readCell?_sound hread
  exact ⟨hp, hc⟩

end Sound

/-! ## 3. Reading back -/

theorem readMark_append {mark : Bool} {rest : List Char} (h : Free (· == '$') rest) :
    readMark (markText mark ++ rest) = (mark, rest) := by
  cases mark with
  | true => rfl
  | false =>
    show readMark rest = (false, rest)
    unfold readMark
    split
    · next after => cases h '$' rfl
    · rfl

/-- A character that continues a reference is one of a word, or an opening parenthesis. -/
def isJoining (c : Char) : Bool :=
  isWord c || c == '('

theorem isWord_of_isNameChar {c : Char} (h : isNameChar isCaseLetter c = true) :
    isWord c = true := by
  simp [isWord, h]

theorem isNameChar_of_isCaseLetter {c : Char} (h : isCaseLetter c = true) :
    isNameChar isCaseLetter c = true := by
  simp [isNameChar, h]

theorem isWord_of_isDigit {c : Char} (h : isDigit c = true) : isWord c = true := by
  simp [isWord, h]

theorem isJoining_of_continuesName {c : Char} (h : continuesName isCaseLetter c = true) :
    isJoining c = true := by
  unfold continuesName at h
  simp only [Bool.or_eq_true, beq_iff_eq] at h
  unfold isJoining isWord isNameChar
  rcases h with ((h | h) | rfl) | rfl
  · simp [h]
  · simp [h]
  · rfl
  · rfl

theorem isJoining_of_isWord {c : Char} (h : isWord c = true) : isJoining c = true := by
  simp [isJoining, h]

theorem isJoining_of_isBlank {c : Char} (h : isBlank c = true) : isJoining c = false := by
  rw [isJoining, isWord_of_isBlank h, Bool.false_or, beq_eq_false_iff_ne]
  intro heq
  rw [heq] at h
  cases h

theorem ne_of_isCaseLetter {c d : Char} (h : isCaseLetter c = true)
    (hd : isCaseLetter d = false) : c ≠ d := by
  rintro rfl
  rw [h] at hd
  cases hd

/-- With fewer letters there are fewer characters of a name. -/
theorem isNameChar_mono {letter : Char → Bool}
    (hletter : ∀ x, letter x = true → isCaseLetter x = true) {c : Char}
    (h : isNameChar letter c = true) : isNameChar isCaseLetter c = true := by
  unfold isNameChar at h ⊢
  simp only [Bool.or_eq_true] at h ⊢
  rcases h with ((h | h) | h) | h
  · exact Or.inl (Or.inl (Or.inl (hletter c h)))
  · exact Or.inl (Or.inl (Or.inr h))
  · exact Or.inl (Or.inr h)
  · exact Or.inr h

section Append

variable {letter : Char → Bool} {c : CellSpelling} {rest : List Char}

theorem CellSpelling.Sound.free_digits (h : c.Sound letter) :
    Free isCaseLetter (markText c.rowMark ++ c.digits ++ rest) ∧
      Free (· == '$') (c.digits ++ rest) := by
  obtain ⟨d, ds, hd⟩ := List.exists_cons_of_ne_nil h.digits_ne
  have hdigit : isDigit d = true := h.digits d (by rw [hd]; exact List.mem_cons_self)
  have hmark : d ≠ '$' := by
    rintro rfl
    cases hdigit
  rw [hd]
  refine ⟨?_, free_cons (beq_eq_false_iff_ne.mpr hmark)⟩
  cases c.rowMark with
  | true => exact free_cons rfl
  | false => exact free_cons (isCaseLetter_of_isDigit hdigit)

theorem readCell?_append (hletter : ∀ x, letter x = true → isCaseLetter x = true)
    (h : c.Sound letter) (hrest : Free isDigit rest) :
    readCell? letter (c.text ++ rest) = some (c, rest) := by
  obtain ⟨hfree, hmark⟩ := (h.free_digits : _ ∧ Free _ (c.digits ++ rest))
  have hletters : Free letter (markText c.rowMark ++ c.digits ++ rest) := hfree.mono hletter
  have hfirst : Free (· == '$') (c.letters ++ (markText c.rowMark ++ c.digits ++ rest)) := by
    refine Free.append (fun x hx => ?_) h.letters_ne
    have hx := hletter x (h.letters x (List.mem_of_head? hx))
    exact beq_eq_false_iff_ne.mpr (ne_of_isCaseLetter hx rfl)
  have htext : c.text ++ rest =
      markText c.columnMark ++ (c.letters ++ (markText c.rowMark ++ c.digits ++ rest)) := by
    simp [CellSpelling.text]
  have hrow :
      readMark (markText c.rowMark ++ c.digits ++ rest) = (c.rowMark, c.digits ++ rest) := by
    rw [List.append_assoc]
    exact readMark_append hmark
  unfold readCell?
  simp only [htext, readMark_append hfirst, takeWhile_run h.letters hletters,
    dropWhile_run h.letters hletters, hrow, takeWhile_run h.digits hrest,
    dropWhile_run h.digits hrest]
  have hlength := h.letters_le
  rw [if_neg (by simp [h.letters_ne, h.digits_ne]; omega)]

theorem releaseDigits_free {blocked : Char → Bool} {digits : List Char} (hne : digits ≠ [])
    (hrest : Free blocked rest) : releaseDigits blocked digits rest = some (digits, rest) := by
  induction digits with
  | nil => exact absurd rfl hne
  | cons d ds ih =>
    cases ds with
    | nil =>
      rw [releaseDigits, releaseDigits]
      simp [any_head?_eq_false_iff.mpr hrest]
    | cons e es =>
      rw [releaseDigits, ih (List.cons_ne_nil e es)]

theorem readFreeCell?_append (h : c.Sound isCaseLetter) (hrest : Free isJoining rest) :
    readFreeCell? isCaseLetter (c.text ++ rest) = some (c, rest) := by
  have hdigit : Free isDigit rest :=
    hrest.mono fun x hx => isJoining_of_isWord (isWord_of_isDigit hx)
  have hreleased :
      releaseDigits (continuesName isCaseLetter) c.digits rest = some (c.digits, rest) :=
    releaseDigits_free h.digits_ne (hrest.mono fun x hx => isJoining_of_continuesName hx)
  unfold readFreeCell?
  rw [readCell?_append (fun _ hx => hx) h hdigit]
  show (releaseDigits (continuesName isCaseLetter) c.digits rest).bind _ = _
  rw [hreleased]
  rfl

/-- All of a cell's spelling consists of characters of a word, none of which is an exclamation
    mark. -/
theorem CellSpelling.Sound.word (h : c.Sound isCaseLetter) :
    ∀ x ∈ c.text, isWord x = true ∧ x ≠ '!' ∧ x ≠ '\x27' := by
  have hmark : ∀ mark, ∀ x ∈ markText mark, isWord x = true ∧ x ≠ '!' ∧ x ≠ '\x27' := by
    intro mark x hx
    cases mark with
    | false => cases hx
    | true =>
      rw [List.mem_singleton.mp hx]
      exact ⟨rfl, by decide, by decide⟩
  have hletter : ∀ x ∈ c.letters, isWord x = true ∧ x ≠ '!' ∧ x ≠ '\x27' := fun x hx =>
    have hx := h.letters x hx
    ⟨isWord_of_isNameChar (isNameChar_of_isCaseLetter hx), ne_of_isCaseLetter hx rfl,
      ne_of_isCaseLetter hx rfl⟩
  have hdigit : ∀ x ∈ c.digits, isWord x = true ∧ x ≠ '!' ∧ x ≠ '\x27' := by
    intro x hx
    have hx := h.digits x hx
    refine ⟨isWord_of_isDigit hx, ?_, ?_⟩ <;> rintro rfl <;> cases hx
  intro x hx
  simp only [CellSpelling.text, List.mem_append] at hx
  rcases hx with (hx | hx) | hx | hx
  · exact hmark _ x hx
  · exact hletter x hx
  · exact hmark _ x hx
  · exact hdigit x hx

theorem SheetPrefix.Sound.word {name : List Char}
    (h : (SheetPrefix.bare name).Sound isCaseLetter) :
    ∀ x ∈ (SheetPrefix.bare name).text, isWord x = true := by
  intro x hx
  rcases List.mem_append.mp hx with hx | hx
  · exact isWord_of_isNameChar (h.2 x hx)
  · rw [List.mem_singleton.mp hx]
    rfl

/-- A spelling that does not begin with an apostrophe consists of characters of a word. -/
theorem Spelling.Sound.word {s : Spelling} (h : s.Sound isCaseLetter)
    (hquote : s.text.head? ≠ some '\x27') : ∀ x ∈ s.text, isWord x = true := by
  intro x hx
  rcases List.mem_append.mp hx with hx | hx
  · have hsheet := h.sheet
    cases hp : s.sheet with
    | absent =>
      rw [hp] at hx
      cases hx
    | bare name =>
      rw [hp] at hx hsheet
      exact hsheet.word x hx
    | quoted name =>
      refine absurd ?_ hquote
      rw [Spelling.text, hp]
      rfl
  · exact (h.cell.word x hx).1

/-- A cell's spelling does not begin with a sheet, whatever it goes on with. -/
theorem readPrefix?_cell (hletter : ∀ x, letter x = true → isCaseLetter x = true)
    (h : c.Sound isCaseLetter) (hrest : Free isWord rest) :
    readPrefix? letter (c.text ++ rest) = none := by
  cases hp : readPrefix? letter (c.text ++ rest) with
  | none => rfl
  | some r =>
    obtain ⟨p, after⟩ := r
    have htext : p.text ++ after = c.text ++ rest := readPrefix?_text hp
    have hword := h.word
    have hsound : p.Sound letter := readPrefix?_sound hp
    obtain ⟨x, xs, hx⟩ : ∃ x xs, c.text = x :: xs := by
      refine List.exists_cons_of_ne_nil fun hnil => h.letters_ne ?_
      simp only [CellSpelling.text, List.append_eq_nil_iff] at hnil
      exact hnil.1.2
    cases p with
    | absent => exact absurd rfl (readPrefix?_ne_absent hp)
    | quoted name =>
      rw [hx] at htext hword
      have hquote : '\x27' = x := (List.cons.inj htext).1
      exact absurd hquote.symm (hword x List.mem_cons_self).2.2
    | bare name =>
      have hmark : '!' ∉ c.text := fun hmem => (hword '!' hmem).2.1 rfl
      have hsplit : name ++ '!' :: after = c.text ++ rest := by
        simpa [SheetPrefix.text] using htext
      rcases List.append_eq_append_iff.mp hsplit with ⟨y, hy, hafter⟩ | ⟨y, hy, hafter⟩
      · -- the mark would stand in the cell or begin what follows it
        cases y with
        | nil => cases hrest '!' (by rw [← show '!' :: after = rest from hafter]; rfl)
        | cons z zs =>
          cases hafter
          exact absurd (by rw [hy]; simp) hmark
      · cases y with
        | nil => cases hrest '!' (by rw [show rest = '!' :: after from hafter]; rfl)
        | cons z zs =>
          have hz : isNameChar isCaseLetter z = true :=
            isNameChar_mono hletter (hsound.2 z (by rw [hy]; simp))
          have hfree := hrest z (by rw [hafter]; rfl)
          rw [isWord_of_isNameChar hz] at hfree
          cases hfree

theorem readPrefix?_append (hletter : ∀ x, letter x = true → isCaseLetter x = true)
    {p : SheetPrefix} (h : p.Sound letter) (hp : p ≠ .absent) (rest : List Char) :
    readPrefix? letter (p.text ++ rest) = some (p, rest) := by
  have hother : ∀ x, isNameChar isCaseLetter x = false → isNameChar letter x = false := by
    intro x hx
    rw [Bool.eq_false_iff]
    intro hname
    rw [isNameChar_mono hletter hname] at hx
    cases hx
  cases p with
  | absent => exact absurd rfl hp
  | quoted name =>
    obtain ⟨hne, hfree⟩ := h
    obtain ⟨n, ns, rfl⟩ := List.exists_cons_of_ne_nil hne
    have hname : ∀ x ∈ n :: ns, decide (x ≠ '\x27') = true := fun x hx =>
      decide_eq_true fun heq => hfree (heq ▸ hx)
    have hstop : Free (fun x => decide (x ≠ '\x27')) ('\x27' :: '!' :: rest) := free_cons rfl
    have htext : (SheetPrefix.quoted (n :: ns)).text ++ rest =
        '\x27' :: ((n :: ns) ++ '\x27' :: '!' :: rest) := by
      simp [SheetPrefix.text]
    rw [htext, readPrefix?, takeWhile_run hname hstop, dropWhile_run hname hstop]
    rfl
  | bare name =>
    obtain ⟨hne, hname⟩ := h
    obtain ⟨n, ns, rfl⟩ := List.exists_cons_of_ne_nil hne
    have hstop : Free (isNameChar letter) ('!' :: rest) := free_cons (hother '!' rfl)
    have htext : (SheetPrefix.bare (n :: ns)).text ++ rest = (n :: ns) ++ '!' :: rest := by
      simp [SheetPrefix.text]
    rw [htext]
    unfold readPrefix?
    split
    · next cs heq =>
      cases heq
      exact absurd (hname '\x27' List.mem_cons_self) (Bool.eq_false_iff.mp (hother '\x27' rfl))
    · rw [takeWhile_run hname hstop, dropWhile_run hname hstop]
      rfl

/-- What is read after a sheet, or without one, is read back with it. -/
theorem withSheet?_append {α : Type} {read : List Char → Option (α × List Char)} {p : SheetPrefix}
    {a : α} {cs : List Char} (hletter : ∀ x, letter x = true → isCaseLetter x = true)
    (hp : p.Sound letter) (hread : read cs = some (a, rest))
    (hcell : readPrefix? letter cs = none) :
    withSheet? letter read (p.text ++ cs) = some ((p, a), rest) := by
  unfold withSheet?
  by_cases habsent : p = .absent
  · rw [habsent]
    show ((readPrefix? letter cs).bind _).or ((read cs).map _) = _
    rw [hcell, hread]
    rfl
  · rw [readPrefix?_append hletter hp habsent]
    show ((read cs).map _).or _ = _
    rw [hread]
    rfl

/-- **A sound spelling is read back from its text**, as long as no word goes on after it. -/
theorem readMention?_append {s : Spelling} (h : s.Sound isCaseLetter)
    (hrest : Free isJoining rest) :
    readMention? isCaseLetter (s.text ++ rest) = some (s, rest) := by
  have hword : Free isWord rest := hrest.mono fun x hx => isJoining_of_isWord hx
  have hread := withSheet?_append (fun _ hx => hx) h.sheet (readFreeCell?_append h.cell hrest)
    (readPrefix?_cell (fun _ hx => hx) h.cell hword)
  unfold readMention?
  rw [Spelling.text, List.append_assoc, hread]
  rfl

/-- A sound spelling is read back from its text with all of its digits, by either notion of a
    letter. -/
theorem readSpelling?_append {s : Spelling}
    (hletter : ∀ x, letter x = true → isCaseLetter x = true) (h : s.Sound letter)
    (hcell : s.cell.Sound isCaseLetter) (hrest : Free isWord rest) :
    readSpelling? letter (s.text ++ rest) = some (s, rest) := by
  have hdigit : Free isDigit rest := hrest.mono fun x hx => isWord_of_isDigit hx
  have hread := withSheet?_append hletter h.sheet (readCell?_append hletter h.cell hdigit)
    (readPrefix?_cell hletter hcell hrest)
  unfold readSpelling?
  rw [Spelling.text, List.append_assoc, hread]
  rfl

/-- **Two spellings about a colon are read back**, the second without a sheet. -/
theorem readRangeMention?_append {p : SheetPrefix} {first last : CellSpelling}
    {left right : List Char} (hp : p.Sound isCaseLetter) (hfirst : first.Sound isCaseLetter)
    (hlast : last.Sound isCaseLetter) (hleft : ∀ x ∈ left, isBlank x = true)
    (hright : ∀ x ∈ right, isBlank x = true) (hrest : Free isJoining rest) :
    readRangeMention? (p.text ++ (first.text ++ (left ++ ':' :: (right ++ (last.text ++ rest))))) =
      some ((p, first, last), rest) := by
  have hblank : Free isWord (left ++ ':' :: (right ++ (last.text ++ rest))) := by
    cases left with
    | nil => exact free_cons rfl
    | cons b bs => exact free_cons (isWord_of_isBlank (hleft b List.mem_cons_self))
  have hdigit : Free isDigit (left ++ ':' :: (right ++ (last.text ++ rest))) :=
    hblank.mono fun x hx => isWord_of_isDigit hx
  have hcolon : Free isBlank (':' :: (right ++ (last.text ++ rest))) := free_cons rfl
  have hbegin : Free isBlank (last.text ++ rest) := by
    refine Free.append (fun x hx => ?_) fun hnil => hlast.letters_ne ?_
    · exact isBlank_of_isWord (hlast.word x (List.mem_of_head? hx)).1
    · simp only [CellSpelling.text, List.append_eq_nil_iff] at hnil
      exact hnil.1.2
  have hcorners : readCorners? (first.text ++ (left ++ ':' :: (right ++ (last.text ++ rest)))) =
      some ((first, last), rest) := by
    unfold readCorners?
    simp only [readCell?_append (fun _ hx => hx) hfirst hdigit, Option.bind_eq_bind,
      Option.bind_some, dropWhile_run hleft hcolon, dropWhile_run hright hbegin,
      readFreeCell?_append hlast hrest]
  exact withSheet?_append (fun _ hx => hx) hp hcorners
    (readPrefix?_cell (fun _ hx => hx) hfirst hblank)

end Append

/-- A text has one sound spelling. -/
theorem Spelling.Sound.eq_of_text {s t : Spelling} (hs : s.Sound isCaseLetter)
    (ht : t.Sound isCaseLetter) (h : s.text = t.text) : s = t := by
  have hread := readMention?_append hs free_nil
  rw [h, readMention?_append ht free_nil] at hread
  cases hread
  rfl

end Appraisal
