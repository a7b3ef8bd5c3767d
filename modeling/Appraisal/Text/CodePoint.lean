/-!
# Code points

A text is a sequence of code points. Nearly all of them are characters; a surrogate that is no half
of a pair is not, yet a text can name it by its code. Texts are therefore kept spelled: a character
stands for itself, and a surrogate is written as an escape mark and a character of its own after it.
The mark is the last code point, which Unicode leaves to uses of this kind; where a text has it, it
is written twice.

* `spell` — how a code point is written;
* `codePoints` — the code points of a spelled text;
* `codePoints_spell` — **the code points of a spelling are the ones that were spelled**;
* `spell_codePoints` — **no two texts have the same code points**.
-/

namespace Appraisal.Text

/-! ## 1. Spelling -/

/-- The character that announces what is no character. -/
def escapeMark : Char := Char.ofNat 0x10ffff

/-- Whether a code point is a surrogate. -/
def isSurrogate (n : Nat) : Bool := decide (0xd800 ≤ n) && decide (n < 0xe000)

/-- What follows the mark in the spelling of a surrogate. -/
def standIn (n : Nat) : Char := Char.ofNat (0x100000 + n)

/-- How a code point is spelled. What is no code point is spelled as the mark alone. -/
def spell (n : Nat) : List Char :=
  if isSurrogate n then [escapeMark, standIn n]
  else if n = 0x10ffff then [escapeMark, escapeMark]
  else if n < 0x10ffff then [Char.ofNat n]
  else [escapeMark]

/-! ## 2. Reading -/

/-- The code point that the mark and the character after it spell, if they spell one. -/
def escapedPoint? (c : Char) : Option Nat :=
  if c = escapeMark then some 0x10ffff
  else if isSurrogate (c.toNat - 0x100000) then some (c.toNat - 0x100000)
  else none

/-- The code points of a spelled text. A mark that spells nothing counts as the number after the
    last code point. -/
def codePoints : List Char → List Nat
  | [] => []
  | [c] => [if c = escapeMark then 0x110000 else c.toNat]
  | c :: d :: cs =>
    if c = escapeMark then
      match escapedPoint? d with
      | some n => n :: codePoints cs
      | none => 0x110000 :: codePoints (d :: cs)
    else c.toNat :: codePoints (d :: cs)

/-! ## 3. Laws -/

theorem isSurrogate_iff {n : Nat} : isSurrogate n = true ↔ 0xd800 ≤ n ∧ n < 0xe000 := by
  simp only [isSurrogate, Bool.and_eq_true, decide_eq_true_eq]

/-- No character is a surrogate. -/
theorem isSurrogate_toNat (c : Char) : isSurrogate c.toNat = false := by
  rw [Bool.eq_false_iff, ne_eq, isSurrogate_iff]
  have h : c.toNat < 0xd800 ∨ 0xe000 ≤ c.toNat := c.valid.imp id And.left
  omega

theorem toNat_ofNat {n : Nat} (h : n < 0x110000) (hs : isSurrogate n = false) :
    (Char.ofNat n).toNat = n := by
  rw [Bool.eq_false_iff, ne_eq, isSurrogate_iff] at hs
  have valid : n.isValidChar := by
    simp only [Nat.isValidChar]
    omega
  rw [Char.ofNat, dif_pos valid]
  rfl

theorem toNat_standIn {n : Nat} (h : isSurrogate n = true) : (standIn n).toNat = 0x100000 + n := by
  rw [isSurrogate_iff] at h
  refine toNat_ofNat (by omega) ?_
  rw [Bool.eq_false_iff, ne_eq, isSurrogate_iff]
  omega

theorem toNat_escapeMark : escapeMark.toNat = 0x10ffff := rfl

theorem eq_escapeMark_iff {c : Char} : c = escapeMark ↔ c.toNat = 0x10ffff := by
  rw [← toNat_escapeMark, Char.toNat_inj]

theorem toNat_lt (c : Char) : c.toNat < 0x110000 := by
  rcases c.valid with h | h
  · exact Nat.lt_trans h (by decide)
  · exact h.2

/-- A character other than the mark is spelled as itself. -/
theorem spell_toNat {c : Char} (h : c ≠ escapeMark) : spell c.toNat = [c] := by
  rw [ne_eq, eq_escapeMark_iff] at h
  have hlt := toNat_lt c
  rw [spell, if_neg (by rw [isSurrogate_toNat]; decide), if_neg h, if_pos (by omega),
    Char.ofNat_toNat]

theorem standIn_sub {c : Char} (h : isSurrogate (c.toNat - 0x100000) = true) :
    standIn (c.toNat - 0x100000) = c := by
  have hs := isSurrogate_iff.mp h
  rw [standIn, show 0x100000 + (c.toNat - 0x100000) = c.toNat by omega, Char.ofNat_toNat]

theorem spell_last : spell 0x10ffff = [escapeMark, escapeMark] := by
  rw [spell, if_neg (by decide), if_pos rfl]

theorem spell_beyond : spell 0x110000 = [escapeMark] := by
  rw [spell, if_neg (by decide), if_neg (by decide), if_neg (by decide)]

theorem spell_of_escapedPoint? {c : Char} {n : Nat} (h : escapedPoint? c = some n) :
    spell n = [escapeMark, c] := by
  unfold escapedPoint? at h
  split at h
  · next hc => rw [← Option.some.inj h, hc, spell_last]
  · split at h
    · next hs => rw [← Option.some.inj h, spell, if_pos hs, standIn_sub hs]
    · cases h

/-- **No two texts have the same code points:** spelling them gives the text again. -/
theorem spell_codePoints (cs : List Char) : (codePoints cs).flatMap spell = cs := by
  fun_induction codePoints cs with
  | case1 => rfl
  | case2 c =>
    by_cases hc : c = escapeMark
    · subst hc
      rfl
    · rw [if_neg hc, List.flatMap_singleton, spell_toNat hc]
  | case3 d cs n hn ih =>
    rw [List.flatMap_cons, ih, spell_of_escapedPoint? hn]
    rfl
  | case4 d cs hn ih =>
    rw [List.flatMap_cons, ih, spell_beyond]
    rfl
  | case5 c d cs hc ih =>
    rw [List.flatMap_cons, ih, spell_toNat hc]
    rfl

theorem codePoints_injective {as bs : List Char} (h : codePoints as = codePoints bs) : as = bs := by
  rw [← spell_codePoints as, h, spell_codePoints]

/-- The first code point of a text that begins with a spelling is the one that was spelled. -/
theorem codePoints_spell_append {n : Nat} (h : n < 0x110000) (cs : List Char) :
    codePoints (spell n ++ cs) = n :: codePoints cs := by
  unfold spell
  split
  · next hs =>
    have value := toNat_standIn hs
    have point : escapedPoint? (standIn n) = some n := by
      have differs : ¬ standIn n = escapeMark := by
        rw [eq_escapeMark_iff, value]
        have := isSurrogate_iff.mp hs
        omega
      rw [escapedPoint?, if_neg differs, value, Nat.add_sub_cancel_left, if_pos hs]
    simp [codePoints, point]
  · next hs =>
    split
    · next hn =>
      subst hn
      rfl
    · next hn =>
      have value := toNat_ofNat h (by simpa using hs)
      have differs : ¬ Char.ofNat n = escapeMark := by
        rw [eq_escapeMark_iff, value]
        exact hn
      rw [if_pos (by omega)]
      cases cs with
      | nil => simp [codePoints, differs, value]
      | cons d cs => simp [codePoints, differs, value]

/-- **The code points of a spelling are the ones that were spelled.** -/
theorem codePoints_spell {ns : List Nat} (h : ∀ n ∈ ns, n < 0x110000) :
    codePoints (ns.flatMap spell) = ns := by
  induction ns with
  | nil => rfl
  | cons n ns ih =>
    rw [List.flatMap_cons, codePoints_spell_append (h n (List.mem_cons_self)),
      ih fun m hm => h m (List.mem_cons_of_mem n hm)]

end Appraisal.Text
