import Appraisal.Number.Decimal
import Appraisal.Proofs.Address.Named
import Appraisal.Proofs.Formula.Layout
import Appraisal.Proofs.Text.Decimal

/-!
# Numerals are read

What a formula takes for a numeral is a numeral: the digits before and after the point, if there is
one, and an exponent that is complete. So it writes a number.

* `IsMantissa`, `IsExponent` — the parts of a numeral; `exists_parts`;
* `readFloat?_parts` — **a mantissa and an exponent are read as a float**;
* `readNumeral?_repr` — **the digits of a whole number are a numeral**.
-/

namespace Appraisal.Formula

open Appraisal.Text

/-! ## 1. The parts of a numeral -/

/-- Digits, with a point after, among or before them or without one. -/
inductive IsMantissa : List Char → Prop where
  /-- Digits alone. -/
  | whole {ds : List Char} (hne : ds ≠ []) (hds : ∀ c ∈ ds, isDigit c = true) : IsMantissa ds
  /-- Digits about a point, on one of its sides at least. -/
  | point {ds es : List Char} (hne : ¬(ds = [] ∧ es = [])) (hds : ∀ c ∈ ds, isDigit c = true)
      (hes : ∀ c ∈ es, isDigit c = true) : IsMantissa (ds ++ '.' :: es)

/-- Nothing, or the letter e, a sign or none, and digits. -/
inductive IsExponent : List Char → Prop where
  /-- Nothing. -/
  | none : IsExponent []
  /-- A letter, a sign or none, and digits. -/
  | some {c : Char} {sign ds : List Char} (hc : c = 'e' ∨ c = 'E')
      (hsign : sign = [] ∨ sign = ['+'] ∨ sign = ['-']) (hne : ds ≠ [])
      (hds : ∀ c ∈ ds, isDigit c = true) : IsExponent (c :: (sign ++ ds))

theorem isDigit_of_mem_readDigits {cs : List Char} : ∀ c ∈ (readDigits cs).1, isDigit c = true :=
  fun _ hc => of_mem_takeWhile hc

theorem isMantissa_of_readMantissa? {cs m rest : List Char}
    (h : readMantissa? cs = some (m, rest)) : IsMantissa m := by
  unfold readMantissa? at h
  simp only at h
  split at h
  · split at h
    · cases h
    · next hne =>
      cases h
      exact .point hne isDigit_of_mem_readDigits isDigit_of_mem_readDigits
  · split at h
    · cases h
    · next hne =>
      cases h
      exact .whole hne isDigit_of_mem_readDigits

theorem isExponent_readExponent (cs : List Char) : IsExponent (readExponent cs).1 := by
  have hsign : ∀ ds : List Char, (readSign ds).1 = [] ∨ (readSign ds).1 = ['+'] ∨
      (readSign ds).1 = ['-'] := by
    intro ds
    unfold readSign
    split
    · exact Or.inr (Or.inl rfl)
    · exact Or.inr (Or.inr rfl)
    · exact Or.inl rfl
  unfold readExponent
  split
  · exact .none
  · next c ds =>
    simp only
    split
    · next h => exact .some h.1 (hsign ds) h.2 isDigit_of_mem_readDigits
    · exact .none

/-- A mantissa ends where no digit goes on and, if it has no point yet, no point. -/
theorem stops_of_readMantissa? {cs m rest : List Char} (h : readMantissa? cs = some (m, rest)) :
    Free isDigit rest ∧ ('.' ∈ m ∨ Free (· == '.') rest) := by
  unfold readMantissa? at h
  simp only at h
  split at h
  · split at h
    · cases h
    · cases h
      exact ⟨free_dropWhile _ _, Or.inl (by simp)⟩
  · next hpoint =>
    split at h
    · cases h
    · cases h
      refine ⟨free_dropWhile _ _, Or.inr fun c hc => beq_eq_false_iff_ne.mpr ?_⟩
      rintro rfl
      obtain ⟨after, hafter⟩ := List.head?_eq_some_iff.mp hc
      exact hpoint after hafter

/-- A mantissa is read where it ends. -/
theorem readMantissa?_append {m rest : List Char} (hm : IsMantissa m) (hdigit : Free isDigit rest)
    (hpoint : '.' ∈ m ∨ Free (· == '.') rest) : readMantissa? (m ++ rest) = some (m, rest) := by
  unfold readMantissa? readDigits
  cases hm with
  | whole hne hds =>
    have hfree : Free (· == '.') rest := by
      refine hpoint.resolve_left fun hmem => ?_
      cases hds '.' hmem
    simp only [takeWhile_run hds hdigit, dropWhile_run hds hdigit]
    split
    · cases hfree '.' rfl
    · exact if_neg hne
  | @point ds es hne hds hes =>
    have hstop : Free isDigit ('.' :: (es ++ rest)) := free_cons rfl
    simp only [List.append_assoc, List.cons_append, takeWhile_run hds hstop,
      dropWhile_run hds hstop, takeWhile_run hes hdigit, dropWhile_run hes hdigit]
    exact if_neg hne

/-- A complete exponent is read where no digit goes on. -/
theorem readExponent_append {e rest : List Char} (he : IsExponent e) (hne : e ≠ [])
    (hrest : Free isDigit rest) : readExponent (e ++ rest) = (e, rest) := by
  cases he with
  | none => exact absurd rfl hne
  | @some c sign ds hc hsign hds hdigits =>
    have hread : readSign (sign ++ (ds ++ rest)) = (sign, ds ++ rest) := by
      rcases hsign with rfl | rfl | rfl
      · obtain ⟨d, ds, rfl⟩ := List.exists_cons_of_ne_nil hds
        have hd := hdigits d List.mem_cons_self
        show readSign (d :: (ds ++ rest)) = _
        unfold readSign
        split
        · next heq =>
          cases heq
          cases hd
        · next heq =>
          cases heq
          cases hd
        · rfl
      · rfl
      · rfl
    rw [List.cons_append, List.append_assoc]
    unfold readExponent
    simp only [hread, readDigits, takeWhile_run hdigits hrest, dropWhile_run hdigits hrest]
    exact if_pos ⟨hc, hds⟩

/-- A numeral is a mantissa and an exponent. -/
theorem exists_parts {cs text rest : List Char} (h : readNumeral? cs = some (text, rest)) :
    ∃ m e, text = m ++ e ∧ IsMantissa m ∧ IsExponent e := by
  unfold readNumeral? at h
  obtain ⟨⟨m, after⟩, hm, heq⟩ := Option.map_eq_some_iff.mp h
  exact ⟨m, (readExponent after).1, (Prod.mk.inj heq).1.symm, isMantissa_of_readMantissa? hm,
    isExponent_readExponent after⟩

/-! ## 2. Floats -/

section Floats

variable {m e : List Char}

theorem IsExponent.free (h : IsExponent e) : Free isDigit e := by
  cases h with
  | none => exact free_nil
  | some hc => rcases hc with rfl | rfl <;> exact free_cons rfl

theorem splitSign_of_isDigit {c : Char} {cs : List Char} (h : isDigit c = true ∨ c = '.') :
    Number.splitSign (c :: cs) = (false, c :: cs) := by
  unfold Number.splitSign
  split
  · next heq =>
    cases heq
    exact absurd h (by decide)
  · next heq =>
    cases heq
    exact absurd h (by decide)
  · rfl

theorem IsExponent.exists_value (h : IsExponent e) :
    ∃ n, Number.readExponent? e = Option.some n := by
  cases h with
  | none => exact ⟨0, rfl⟩
  | @some c sign ds hc hsign hne hds =>
    obtain ⟨d, more, rfl⟩ := List.exists_cons_of_ne_nil hne
    have hd : isDigit d = true := hds d List.mem_cons_self
    have hsplit : ∃ negative, Number.splitSign (sign ++ d :: more) = (negative, d :: more) := by
      rcases hsign with rfl | rfl | rfl
      · exact ⟨false, splitSign_of_isDigit (Or.inl hd)⟩
      · exact ⟨false, rfl⟩
      · exact ⟨true, rfl⟩
    obtain ⟨negative, hsplit⟩ := hsplit
    have hall : (d :: more).all isDigit = true := List.all_eq_true.mpr hds
    rw [Number.readExponent?, if_pos hc, hsplit]
    simp only
    rw [if_pos ⟨hne, hall⟩]
    exact ⟨_, rfl⟩

theorem exists_readUnsigned? (hm : IsMantissa m) (he : IsExponent e) :
    ∃ x, Number.readUnsigned? (m ++ e) = some x := by
  obtain ⟨n, hn⟩ := he.exists_value
  cases hm with
  | whole hne hds =>
    have hpoint : Number.splitFraction e = ([], e) := by
      cases he with
      | none => rfl
      | some hc => rcases hc with rfl | rfl <;> rfl
    refine ⟨Number.floatOfDecimal (digitsValue m) n, ?_⟩
    unfold Number.readUnsigned?
    simp [takeWhile_run hds he.free, dropWhile_run hds he.free, hpoint, hne, hn]
  | @point ds es hne hds hes =>
    have hstop : Free isDigit ('.' :: (es ++ e)) := free_cons rfl
    have htext : ds ++ '.' :: es ++ e = ds ++ '.' :: (es ++ e) := by simp
    have hpoint : Number.splitFraction ('.' :: (es ++ e)) = (es, e) := by
      rw [Number.splitFraction, takeWhile_run hes he.free, dropWhile_run hes he.free]
    refine ⟨Number.floatOfDecimal (digitsValue (ds ++ es)) (n - es.length), ?_⟩
    rw [htext]
    unfold Number.readUnsigned?
    simp [takeWhile_run hds hstop, dropWhile_run hds hstop, hpoint, hn]
    exact fun h1 h2 => hne ⟨h1, h2⟩

/-- A character of a numeral. -/
def isNumeralChar (c : Char) : Bool :=
  isDigit c || c == '.' || c == 'e' || c == 'E' || c == '+' || c == '-'

theorem isNumeralChar_of_isDigit {c : Char} (h : isDigit c = true) : isNumeralChar c = true := by
  simp [isNumeralChar, h]

/-- A mantissa begins with a digit or the point. -/
theorem IsMantissa.exists_head (h : IsMantissa m) :
    ∃ c cs, m = c :: cs ∧ (isDigit c = true ∨ c = '.') := by
  cases h with
  | whole hne hds =>
    obtain ⟨c, cs, rfl⟩ := List.exists_cons_of_ne_nil hne
    exact ⟨c, cs, rfl, Or.inl (hds c List.mem_cons_self)⟩
  | @point ds es hne hds hes =>
    cases ds with
    | nil => exact ⟨'.', es, rfl, Or.inr rfl⟩
    | cons d ds => exact ⟨d, ds ++ '.' :: es, rfl, Or.inl (hds d List.mem_cons_self)⟩

theorem isNumeralChar_of_mem (hm : IsMantissa m) (he : IsExponent e) :
    ∀ c ∈ m ++ e, isNumeralChar c = true := by
  have hdigits : ∀ {ds : List Char}, (∀ c ∈ ds, isDigit c = true) →
      ∀ c ∈ ds, isNumeralChar c = true :=
    fun hds c hc => isNumeralChar_of_isDigit (hds c hc)
  intro c hc
  rcases List.mem_append.mp hc with hc | hc
  · cases hm with
    | whole hne hds => exact hdigits hds c hc
    | point hne hds hes =>
      rcases List.mem_append.mp hc with hc | hc
      · exact hdigits hds c hc
      · rcases List.mem_cons.mp hc with rfl | hc
        · rfl
        · exact hdigits hes c hc
  · cases he with
    | none => cases hc
    | some hletter hsign hne hds =>
      rcases List.mem_cons.mp hc with rfl | hc
      · rcases hletter with rfl | rfl <;> rfl
      · rcases List.mem_append.mp hc with hc | hc
        · rcases hsign with rfl | rfl | rfl
          · cases hc
          · rw [List.mem_singleton.mp hc]
            rfl
          · rw [List.mem_singleton.mp hc]
            rfl
        · exact hdigits hds c hc

theorem isBlank_of_isNumeralChar {c : Char} (h : isNumeralChar c = true) : isBlank c = false := by
  unfold isNumeralChar at h
  simp only [Bool.or_eq_true, beq_iff_eq] at h
  rcases h with ((((h | rfl) | rfl) | rfl) | rfl) | rfl
  · exact isBlank_of_isDigit h
  all_goals rfl

theorem dropLowLines_of_free {cs : List Char} (h : '_' ∉ cs) (afterDigit : Bool) :
    Number.dropLowLines afterDigit cs = some cs := by
  induction cs generalizing afterDigit with
  | nil => rfl
  | cons c cs ih =>
    have hc : c ≠ '_' := fun heq => h (heq ▸ List.mem_cons_self)
    rw [Number.dropLowLines, if_neg hc, ih fun hmem => h (List.mem_cons_of_mem c hmem)]
    rfl

/-- **A mantissa and an exponent are read as a float.** -/
theorem readFloat?_parts (hm : IsMantissa m) (he : IsExponent e) :
    ∃ x, Number.readFloat? (m ++ e) = some x := by
  have hchars := isNumeralChar_of_mem hm he
  have hblank : ∀ c ∈ m ++ e, Number.isNumeralBlank c = false := by
    intro c hc
    rw [Number.isNumeralBlank, isBlank_of_isNumeralChar (hchars c hc), Bool.false_and]
  have htrim : trim Number.isNumeralBlank (m ++ e) = m ++ e :=
    trim_of_ends (fun c hc => hblank c (List.mem_of_head? hc))
      fun c hc => hblank c (List.mem_of_getLast? hc)
  have hsplit : Number.splitSign (m ++ e) = (false, m ++ e) := by
    obtain ⟨c, cs, rfl, hc⟩ := hm.exists_head
    exact splitSign_of_isDigit hc
  have hlines : Number.dropLowLines false (m ++ e) = some (m ++ e) :=
    dropLowLines_of_free (fun hmem => absurd (hchars '_' hmem) (by decide)) false
  obtain ⟨x, hx⟩ := exists_readUnsigned? hm he
  have hmagnitude : ∃ y, (Number.readWord? (m ++ e)).or
      ((Number.dropLowLines false (m ++ e)).bind Number.readUnsigned?) = some y := by
    rw [hlines, Option.bind_some, hx]
    cases Number.readWord? (m ++ e) with
    | none => exact ⟨x, rfl⟩
    | some y => exact ⟨y, rfl⟩
  obtain ⟨y, hy⟩ := hmagnitude
  refine ⟨y, ?_⟩
  unfold Number.readFloat?
  rw [htrim, hsplit]
  simp only [hy]
  rfl

end Floats

/-! ## 3. Whole numbers -/

/-- **The digits of a whole number are a numeral** where no word goes on after them. -/
theorem readNumeral?_repr {n : Nat} {rest : List Char} (hrest : Free isWord rest) :
    readNumeral? (n.repr.toList ++ rest) = some (n.repr.toList, rest) := by
  have hdigits : Free isDigit rest := hrest.mono fun c hc => isWord_of_isDigit hc
  have hpoint : Free (· == '.') rest := hrest.mono fun c hc => by
    rw [eq_of_beq hc]
    rfl
  have hmantissa : readMantissa? (n.repr.toList ++ rest) = some (n.repr.toList, rest) :=
    readMantissa?_append (.whole (repr_ne_nil n) (all_isDigit_repr n)) hdigits (Or.inr hpoint)
  have hexponent : readExponent rest = ([], rest) := by
    unfold readExponent
    split
    · rfl
    · next c cs =>
      simp only
      rw [if_neg]
      rintro ⟨hc | hc, -⟩
      · cases hrest 'e' (by rw [hc]; rfl)
      · cases hrest 'E' (by rw [hc]; rfl)
  rw [readNumeral?, hmantissa]
  simp only [Option.map_some, hexponent, List.append_nil]

end Appraisal.Formula
