import Appraisal.Proofs.Formula.Cutting

/-!
# How far a reader looks ahead

A piece ends where it ends because of what comes after it: a character that does not go on with it
or, for a name, a parenthesis behind blanks. For anything else no reader looks beyond a blank. So
what a reader takes from one text it takes from another, if the two go on alike up to a blank of the
second.

* `Halts`, `Loosened` — a text that is over or goes on with a blank; two texts that are the same up
  to where the second halts;
* `readName?_loosened`, `readTruth?_loosened`, `readNumeral?_loosened` — names, truth values and
  numerals are read alike from both;
* `SameRow`, `readFreeCell?_loosened` — **a cell is read alike where the same digits follow it**: it
  is the only part of a formula that looks past digits which it then gives back.
-/

namespace Appraisal.Formula

open Appraisal.Text

/-! ## 1. Texts that are the same up to a blank -/

/-- The text is over or goes on with a blank. -/
def Halts (cs : List Char) : Prop :=
  ∀ c, cs.head? = some c → isBlank c = true

/-- The second text goes on as the first does until it halts, and after its blanks as the first
    does after its own. -/
inductive Loosened : List Char → List Char → Prop where
  /-- It halts. -/
  | halts {v w : List Char} (hw : Halts w)
      (hnext : (w.dropWhile isBlank).head? = (v.dropWhile isBlank).head?) : Loosened v w
  /-- It goes on alike. -/
  | same {v w : List Char} (c : Char) (h : Loosened v w) : Loosened (c :: v) (c :: w)

section Loosening

variable {v w : List Char} {p : Char → Bool}

theorem halts_nil : Halts [] :=
  fun _ h => nomatch h

theorem halts_append {gap : List Char} (hgap : ∀ c ∈ gap, isBlank c = true) (hne : gap ≠ [])
    (w : List Char) : Halts (gap ++ w) := by
  obtain ⟨b, gap, rfl⟩ := List.exists_cons_of_ne_nil hne
  intro c hc
  cases hc
  exact hgap b List.mem_cons_self

/-- A text that halts goes on with nothing but a blank. -/
theorem Halts.free (h : Halts w) (hp : ∀ c, isBlank c = true → p c = false) : Free p w :=
  fun c hc => hp c (h c hc)

theorem Loosened.append (h : Loosened v w) (x : List Char) : Loosened (x ++ v) (x ++ w) := by
  induction x with
  | nil => exact h
  | cons c x ih => exact .same c ih

/-- What the first text does not begin with, the second does not begin with, blanks aside. -/
theorem Loosened.free (h : Loosened v w) (hp : ∀ c, isBlank c = true → p c = false)
    (hv : Free p v) : Free p w := by
  cases h with
  | halts hw => exact hw.free hp
  | same c h => exact free_cons (hv c rfl)

/-- Behind their blanks the two go on with the same character. -/
theorem Loosened.next (h : Loosened v w) :
    (w.dropWhile isBlank).head? = (v.dropWhile isBlank).head? := by
  induction h with
  | halts _ hnext => exact hnext
  | same c h ih =>
    rw [List.dropWhile_cons, List.dropWhile_cons]
    split
    · exact ih
    · rfl

/-- What the second text begins with before its first blank, the first begins with. -/
theorem Loosened.exists_append {u t : List Char} (h : Loosened v (u ++ t))
    (hu : ∀ c ∈ u, isBlank c = false) (hne : u ≠ []) : ∃ s, v = u ++ s := by
  induction u generalizing v with
  | nil => exact absurd rfl hne
  | cons c u ih =>
    obtain ⟨hc, hu⟩ := List.forall_mem_cons.mp hu
    cases h with
    | halts hw =>
      rw [hw c rfl] at hc
      cases hc
    | same _ h =>
      by_cases hmore : u = []
      · rw [hmore]
        exact ⟨_, rfl⟩
      · obtain ⟨s, hs⟩ := ih h hu hmore
        exact ⟨s, congrArg (c :: ·) hs⟩

end Loosening

/-! ## 2. Names, words and texts -/

section Words

variable {x v w : List Char}

/-- Whether the characters of a name, and blanks, lead to an opening parenthesis. -/
def opensCall (cs : List Char) : Bool :=
  ((cs.dropWhile (isNameChar isCaseLetter)).dropWhile isBlank).head? = some '('

theorem readName?_cons (c : Char) (cs : List Char) : readName? (c :: cs) =
    if isCaseLetter c ∧ opensCall cs = true then
      some (c :: cs.takeWhile (isNameChar isCaseLetter), cs.dropWhile (isNameChar isCaseLetter))
    else none := by
  simp only [readName?, opensCall, decide_eq_true_eq]

theorem isNameChar_of_isBlank {c : Char} (h : isBlank c = true) :
    isNameChar isCaseLetter c = false := by
  rw [Bool.eq_false_iff]
  intro hname
  rw [isBlank_of_isWord (isWord_of_isNameChar hname)] at h
  cases h

theorem opensCall_of_free (h : Free (isNameChar isCaseLetter) v) :
    opensCall v = true ↔ (v.dropWhile isBlank).head? = some '(' := by
  rw [opensCall, h.dropWhile, decide_eq_true_eq]

/-- Blanks that are put in open no call. -/
theorem Loosened.opensCall (h : Loosened v w) (hopens : opensCall w = true) :
    opensCall v = true := by
  induction h with
  | @halts v w hw hnext =>
    rw [opensCall_of_free (hw.free fun _ => isNameChar_of_isBlank), hnext] at hopens
    have hfree : Free (isNameChar isCaseLetter) v := by
      intro c hc
      by_cases hblank : isBlank c = true
      · exact isNameChar_of_isBlank hblank
      · have hstop : Free isBlank v := fun d hd => by
          rw [hc] at hd
          cases hd
          exact Bool.eq_false_iff.mpr hblank
        rw [hstop.dropWhile, hc] at hopens
        cases hopens
        rfl
    exact (opensCall_of_free hfree).mpr hopens
  | @same v w c h ih =>
    by_cases hname : isNameChar isCaseLetter c = true
    · have hskip : ∀ cs, Formula.opensCall (c :: cs) = Formula.opensCall cs := fun cs => by
        rw [Formula.opensCall, Formula.opensCall, List.dropWhile_cons, if_pos hname]
      rw [hskip] at hopens ⊢
      exact ih hopens
    · have hfree : ∀ cs, Free (isNameChar isCaseLetter) (c :: cs) := fun cs =>
        free_cons (Bool.eq_false_iff.mpr hname)
      rw [opensCall_of_free (hfree _)] at hopens ⊢
      rw [← (Loosened.same c h).next]
      exact hopens

/-- Where there was no name, there is none with more blanks. -/
theorem readName?_none_loosened (h : Loosened v w) (hne : x ≠ [])
    (hnone : readName? (x ++ v) = none) : readName? (x ++ w) = none := by
  obtain ⟨c, x, rfl⟩ := List.exists_cons_of_ne_nil hne
  rw [List.cons_append, readName?_cons] at hnone ⊢
  refine if_neg fun ⟨hletter, hopens⟩ => ?_
  rw [if_pos ⟨hletter, (h.append x).opensCall hopens⟩] at hnone
  cases hnone

theorem readName?_loosened (h : Loosened v w) (hread : readName? (x ++ v) = some (x, v)) :
    readName? (x ++ w) = some (x, w) := by
  obtain ⟨c, x, rfl⟩ := List.exists_cons_of_ne_nil (readName?_text hread).2
  rw [List.cons_append, readName?_cons] at hread ⊢
  split at hread
  · next hcall =>
    obtain ⟨htext, hrest⟩ := Prod.mk.inj (Option.some.inj hread)
    have hx : ∀ d ∈ x, isNameChar isCaseLetter d = true := fun d hd => by
      rw [← (List.cons.inj htext).2] at hd
      exact of_mem_takeWhile hd
    have hv : Free (isNameChar isCaseLetter) v := hrest ▸ free_dropWhile _ _
    have hw : Free (isNameChar isCaseLetter) w := h.free (fun _ => isNameChar_of_isBlank) hv
    have hopens : Formula.opensCall (x ++ w) = true := by
      have hcall := hcall.2
      rw [Formula.opensCall, dropWhile_run hx hv] at hcall
      rw [Formula.opensCall, dropWhile_run hx hw, h.next]
      exact hcall
    rw [if_pos ⟨hcall.1, hopens⟩, takeWhile_run hx hw, dropWhile_run hx hw]
  · cases hread

theorem readWord?_append {word text rest : List Char}
    (h : readWord? word (text ++ rest) = some (text, rest)) (more : List Char) :
    readWord? word (text ++ more) = some (text, more) := by
  induction word generalizing text with
  | nil =>
    cases text with
    | nil => rfl
    | cons c text => cases (Prod.mk.inj (Option.some.inj h)).1
  | cons w word ih =>
    cases text with
    | nil => cases (readWord?_text h).2
    | cons c text =>
      rw [List.cons_append, readWord?] at h ⊢
      split at h
      · next hreads =>
        obtain ⟨⟨text', rest'⟩, hread, heq⟩ := Option.map_eq_some_iff.mp h
        cases heq
        rw [if_pos hreads, ih hread]
        rfl
      · cases h

/-- No text begins with both words. -/
theorem readWord?_true_of_false {text rest : List Char}
    (h : readWord? "FALSE".toList (text ++ rest) = some (text, rest)) (more : List Char) :
    readWord? "TRUE".toList (text ++ more) = none := by
  cases text with
  | nil => cases (readWord?_text h).2
  | cons c text =>
    have hfalse : readsAs 'F' c = true := by
      by_contra hreads
      have hnone : readWord? "FALSE".toList (c :: text ++ rest) = none := if_neg hreads
      rw [hnone] at h
      cases h
    refine if_neg fun htrue => ?_
    simp only [readsAs, Bool.or_eq_true, beq_iff_eq, Bool.and_eq_true] at hfalse htrue
    rcases hfalse with hfalse | ⟨hs, -⟩
    · rcases htrue with htrue | ⟨hs, -⟩
      · cases hfalse.symm.trans htrue
      · cases hs
    · cases hs

/-- A truth value is read by its word and the next character. -/
theorem readTruth?_next (hread : readTruth? (x ++ v) = some (x, v))
    (hnext : w.head?.any continuesWord = false) : readTruth? (x ++ w) = some (x, w) := by
  have hword : (readWord? "TRUE".toList (x ++ w)).or (readWord? "FALSE".toList (x ++ w)) =
      some (x, w) := by
    unfold readTruth? at hread
    split at hread
    · next word rest hfound =>
      split at hread
      · cases hread
      · cases hread
        rcases Option.or_eq_some_iff.mp hfound with htrue | ⟨-, hfalse⟩
        · rw [readWord?_append htrue w]
          rfl
        · rw [readWord?_true_of_false hfalse w, readWord?_append hfalse w]
          rfl
    · cases hread
  unfold readTruth?
  rw [hword]
  exact if_neg (Bool.eq_false_iff.mp hnext)

theorem continuesWord_of_readTruth? {cs : List Char} (hread : readTruth? cs = some (x, v)) :
    v.head?.any continuesWord = false := by
  unfold readTruth? at hread
  split at hread
  · split at hread
    · cases hread
    · next hends =>
      cases hread
      exact Bool.eq_false_iff.mpr hends
  · cases hread

theorem readTruth?_loosened (h : Loosened v w) (hread : readTruth? (x ++ v) = some (x, v)) :
    readTruth? (x ++ w) = some (x, w) := by
  refine readTruth?_next hread (any_head?_eq_false_iff.mpr (h.free (fun c hc => ?_) ?_))
  · rw [Bool.eq_false_iff]
    intro hmore
    cases (isBlank_of_isWord (isWord_of_continuesWord hmore)).symm.trans hc
  · exact any_head?_eq_false_iff.mp (continuesWord_of_readTruth? hread)

/-- Where a text that is no word begins with no truth value, it does not with other characters
    after it. -/
theorem readTruth?_none_append (hx : ∃ c ∈ x, isCaseLetter c = false)
    (hnone : readTruth? (x ++ v) = none) (w : List Char) : readTruth? (x ++ w) = none := by
  cases hread : readTruth? (x ++ w) with
  | none => rfl
  | some p =>
    obtain ⟨y, z⟩ := p
    obtain ⟨c, hc, hother⟩ := hx
    have hletters := isCaseLetter_of_readTruth? hread
    have hyz : y ++ z = x ++ w := (readTruth?_text hread).1
    rcases List.append_eq_append_iff.mp hyz with ⟨mid, rfl, hz⟩ | ⟨mid, rfl, -⟩
    · have hmid : mid ≠ [] := by
        rintro rfl
        rw [List.append_nil] at hc
        rw [hletters c hc] at hother
        cases hother
      obtain ⟨d, mid, rfl⟩ := List.exists_cons_of_ne_nil hmid
      subst hz
      have hends := continuesWord_of_readTruth? hread
      have hnext : (d :: mid ++ v).head?.any continuesWord = false := hends
      rw [List.append_assoc] at hread hnone
      rw [readTruth?_next hread hnext] at hnone
      cases hnone
    · rw [hletters c (List.mem_append_left _ hc)] at hother
      cases hother

/-- Where a reference begins with no truth value, it does not with other characters after it. -/
theorem readTruth?_none_spelling {s : Spelling} (hs : s.Sound isCaseLetter)
    (hnone : readTruth? (s.text ++ v) = none) (w : List Char) :
    readTruth? (s.text ++ w) = none := by
  obtain ⟨d, ds, hd⟩ := List.exists_cons_of_ne_nil hs.cell.digits_ne
  have hmem : d ∈ s.cell.digits := by rw [hd]; exact List.mem_cons_self
  have htext : d ∈ s.text := by simp [Spelling.text, CellSpelling.text, hmem]
  exact readTruth?_none_append ⟨d, htext, isCaseLetter_of_isDigit (hs.cell.digits d hmem)⟩ hnone w

/-- A numeral begins with no truth value. -/
theorem readTruth?_none_mantissa {m : List Char} (hm : IsMantissa m) (rest : List Char) :
    readTruth? (m ++ rest) = none := by
  obtain ⟨c, cs, rfl, hc⟩ := hm.exists_head
  have hletter : isCaseLetter c = false := by
    rcases hc with hc | rfl
    · exact isCaseLetter_of_isDigit hc
    · rfl
  refine readTruth?_short ?_
  rw [List.cons_append, (free_cons hletter).takeWhile]
  decide

/-- Where a quote follows the quote that closes a text, no other one closes a text after it. -/
theorem readTextTail?_rest {cs tail rest : List Char}
    (h : readTextTail? cs = some (tail, '"' :: rest)) : readTextTail? rest = none := by
  fun_induction readTextTail? cs generalizing tail with
  | case1 => cases h
  | case2 cs tail' rest' hread ih =>
    cases h
    exact ih hread
  | case3 cs hnone ih =>
    cases h
    exact hnone
  | case4 cs hnext =>
    cases h
    exact absurd rfl (hnext rest rfl)
  | case5 c cs hnext hc ih =>
    obtain ⟨⟨tail', rest'⟩, hread, heq⟩ := Option.map_eq_some_iff.mp h
    cases heq
    exact ih hread

end Words

/-! ## 3. Numerals -/

section Numerals

variable {x v w : List Char}

theorem point_of_isBlank {c : Char} (h : isBlank c = true) : (c == '.') = false := by
  rw [beq_eq_false_iff_ne]
  rintro rfl
  cases h

theorem readSign_other {c : Char} (hplus : c ≠ '+') (hminus : c ≠ '-') (cs : List Char) :
    readSign (c :: cs) = ([], c :: cs) := by
  unfold readSign
  split
  · next heq => exact absurd (List.cons.inj heq).1 hplus
  · next heq => exact absurd (List.cons.inj heq).1 hminus
  · rfl

/-- Blanks that are put in bring no digit behind a sign. -/
theorem Loosened.free_readSign (h : Loosened v w) (hfree : Free isDigit (readSign v).2) :
    Free isDigit (readSign w).2 := by
  cases h with
  | halts hw =>
    cases w with
    | nil => exact free_nil
    | cons c cs =>
      have hc : isBlank c = true := hw c rfl
      rw [readSign_other (by rintro rfl; cases hc) (by rintro rfl; cases hc)]
      exact free_cons (isDigit_of_isBlank hc)
  | @same v w c h =>
    by_cases hplus : c = '+'
    · rw [hplus] at hfree ⊢
      exact h.free (fun _ => isDigit_of_isBlank) hfree
    by_cases hminus : c = '-'
    · rw [hminus] at hfree ⊢
      exact h.free (fun _ => isDigit_of_isBlank) hfree
    rw [readSign_other hplus hminus] at hfree ⊢
    exact free_cons (hfree c rfl)

theorem free_of_readDigits {cs : List Char} (h : (readDigits cs).1 = []) : Free isDigit cs := by
  intro d hd
  obtain ⟨rest, hrest⟩ := List.head?_eq_some_iff.mp hd
  rw [Bool.eq_false_iff]
  intro hdigit
  rw [hrest, readDigits, List.takeWhile_cons, if_pos hdigit] at h
  cases h

/-- Blanks that are put in complete no exponent. -/
theorem readExponent_nil_loosened (h : Loosened v w) (hread : readExponent v = ([], v)) :
    readExponent w = ([], w) := by
  cases h with
  | halts hw =>
    cases w with
    | nil => rfl
    | cons c cs =>
      refine if_neg fun ⟨hletter, _⟩ => ?_
      have hc : isBlank c = true := hw c rfl
      rcases hletter with rfl | rfl <;> cases hc
  | @same v w c h =>
    refine if_neg fun ⟨hletter, hdigits⟩ => hdigits ?_
    have hnone : (readDigits (readSign v).2).1 = [] := by
      by_contra hne
      have hsome : readExponent (c :: v) = (c :: _, _) := if_pos ⟨hletter, hne⟩
      rw [hread] at hsome
      cases hsome
    exact (h.free_readSign (free_of_readDigits hnone)).takeWhile

theorem free_of_readExponent {cs e : List Char} (h : readExponent cs = (e, v)) (hne : e ≠ []) :
    Free isDigit v := by
  unfold readExponent at h
  split at h
  · exact absurd (Prod.mk.inj h).1.symm hne
  · simp only at h
    split at h
    · rw [← (Prod.mk.inj h).2]
      exact free_dropWhile _ _
    · exact absurd (Prod.mk.inj h).1.symm hne

/-- **A numeral is read alike** before more blanks. -/
theorem readNumeral?_loosened (h : Loosened v w) (hread : readNumeral? (x ++ v) = some (x, v)) :
    readNumeral? (x ++ w) = some (x, w) := by
  obtain ⟨⟨m, after⟩, hm, heq⟩ := Option.map_eq_some_iff.mp hread
  obtain ⟨htext, hrest⟩ := Prod.mk.inj heq
  obtain ⟨hdigit, hpoint⟩ := stops_of_readMantissa? hm
  have hmantissa := isMantissa_of_readMantissa? hm
  have he : IsExponent (readExponent after).1 := isExponent_readExponent after
  have hafter : (readExponent after).1 ++ (readExponent after).2 = after := readExponent_text after
  obtain ⟨e, hexp⟩ : ∃ e, readExponent after = (e, v) := ⟨_, Prod.ext rfl hrest⟩
  simp only [hexp] at htext he hafter
  subst htext
  subst hafter
  have hloose := h.append e
  have hnumeral : readMantissa? (m ++ (e ++ w)) = some (m, e ++ w) :=
    readMantissa?_append hmantissa (hloose.free (fun _ => isDigit_of_isBlank) hdigit)
      (hpoint.imp_right (hloose.free fun _ => point_of_isBlank))
  have hexponent : readExponent (e ++ w) = (e, w) := by
    by_cases hne : e = []
    · subst hne
      exact readExponent_nil_loosened h hexp
    · exact readExponent_append he hne
        (h.free (fun _ => isDigit_of_isBlank) (free_of_readExponent hexp hne))
  rw [readNumeral?, List.append_assoc, hnumeral]
  simp only [Option.map_some, hexponent]

end Numerals

/-! ## 4. Cells -/

section Cells

variable {v w : List Char}

/-- Both texts begin with the same digits, and what comes after the digits would continue a name in
    both or in neither. -/
structure SameRow (v w : List Char) : Prop where
  digits : v.takeWhile isDigit = w.takeWhile isDigit
  next : (v.dropWhile isDigit).head?.any (continuesName isCaseLetter) =
    (w.dropWhile isDigit).head?.any (continuesName isCaseLetter)

theorem SameRow.cons {c : Char} (h : isDigit c = true → SameRow v w) :
    SameRow (c :: v) (c :: w) := by
  by_cases hc : isDigit c = true
  · obtain ⟨hdigits, hnext⟩ := h hc
    constructor
    · rw [List.takeWhile_cons, List.takeWhile_cons, if_pos hc, if_pos hc, hdigits]
    · rw [List.dropWhile_cons, List.dropWhile_cons, if_pos hc, if_pos hc, hnext]
  · have hfree : ∀ cs, Free isDigit (c :: cs) := fun _ => free_cons (Bool.eq_false_iff.mpr hc)
    constructor
    · rw [(hfree v).takeWhile, (hfree w).takeWhile]
    · rw [(hfree v).dropWhile, (hfree w).dropWhile]
      rfl

/-- Only where all of a text are digits does it matter for the row what comes after it. -/
theorem SameRow.append {u : List Char} (h : (∀ c ∈ u, isDigit c = true) → SameRow v w) :
    SameRow (u ++ v) (u ++ w) := by
  induction u with
  | nil => exact h fun c hc => absurd hc List.not_mem_nil
  | cons c u ih =>
    refine .cons fun hc => ih fun hu => h ?_
    exact List.forall_mem_cons.mpr ⟨hc, hu⟩

/-- How many digits are given back depends on the next character alone. -/
theorem releaseDigits_congr {blocked : Char → Bool} {rest rest' : List Char}
    (h : rest.head?.any blocked = rest'.head?.any blocked) (digits : List Char) :
    (releaseDigits blocked digits rest).map Prod.fst =
      (releaseDigits blocked digits rest').map Prod.fst := by
  induction digits with
  | nil => rfl
  | cons d ds ih =>
    have hnext : (ds ++ rest).head?.any blocked = (ds ++ rest').head?.any blocked := by
      cases ds with
      | nil => exact h
      | cons e ds => rfl
    rw [releaseDigits, releaseDigits, hnext]
    cases hmore : releaseDigits blocked ds rest with
    | none =>
      rw [hmore, Option.map_none, eq_comm, Option.map_eq_none_iff] at ih
      rw [ih]
      simp only
      split <;> rfl
    | some p =>
      rw [hmore, Option.map_some, eq_comm, Option.map_eq_some_iff] at ih
      obtain ⟨q, hq, heq⟩ := ih
      rw [hq]
      simp only [Option.map_some, heq]

/-- The cell with more digits after its own. -/
def extended (c : CellSpelling) (more : List Char) : CellSpelling :=
  { c with digits := c.digits ++ more }

theorem text_extended (c : CellSpelling) (more : List Char) :
    (extended c more).text = c.text ++ more := by
  simp [extended, CellSpelling.text]

theorem sound_extended {c : CellSpelling} {more : List Char} (hc : c.Sound isCaseLetter)
    (hmore : ∀ d ∈ more, isDigit d = true) : (extended c more).Sound isCaseLetter where
  letters_ne := hc.letters_ne
  letters_le := hc.letters_le
  letters := hc.letters
  digits_ne := fun hnil => hc.digits_ne (List.append_eq_nil_iff.mp hnil).1
  digits := fun d hd => (List.mem_append.mp hd).elim (hc.digits d) (hmore d)

/-- Of a cell, all the digits that follow are read and then some given back. -/
theorem readFreeCell?_eq {c : CellSpelling} (hc : c.Sound isCaseLetter) (v : List Char) :
    readFreeCell? isCaseLetter (c.text ++ v) =
      (releaseDigits (continuesName isCaseLetter) (c.digits ++ v.takeWhile isDigit)
        (v.dropWhile isDigit)).map fun p => ({ c with digits := p.1 }, p.2) := by
  have hsound : (extended c (v.takeWhile isDigit)).Sound isCaseLetter :=
    sound_extended hc fun _ => of_mem_takeWhile
  have htext : c.text ++ v =
      (extended c (v.takeWhile isDigit)).text ++ v.dropWhile isDigit := by
    rw [text_extended, List.append_assoc, List.takeWhile_append_dropWhile]
  rw [readFreeCell?, htext, readCell?_append (fun _ hx => hx) hsound (free_dropWhile _ _)]
  simp only [extended, Option.bind_eq_bind, Option.bind_some]
  cases releaseDigits (continuesName isCaseLetter) (c.digits ++ v.takeWhile isDigit)
    (v.dropWhile isDigit) <;> rfl

/-- **A cell is read alike** where the second text halts or the row is the same. -/
theorem readFreeCell?_loosened {c : CellSpelling} (hrow : Halts w ∨ SameRow v w)
    (hread : readFreeCell? isCaseLetter (c.text ++ v) = some (c, v)) :
    readFreeCell? isCaseLetter (c.text ++ w) = some (c, w) := by
  have hsound := readFreeCell?_sound hread
  rcases hrow with hw | ⟨hdigits, hblocked⟩
  · exact readFreeCell?_append hsound (hw.free fun _ => isJoining_of_isBlank)
  · rw [readFreeCell?_eq hsound, hdigits] at hread
    rw [readFreeCell?_eq hsound]
    obtain ⟨p, hp, heq⟩ := Option.map_eq_some_iff.mp hread
    have hsame := releaseDigits_congr hblocked (c.digits ++ w.takeWhile isDigit)
    have hkept : p.1 = c.digits := congrArg CellSpelling.digits (Prod.mk.inj heq).1
    rw [hp, Option.map_some, hkept, eq_comm, Option.map_eq_some_iff] at hsame
    obtain ⟨⟨kept, after⟩, hafter, rfl⟩ := hsame
    have htext := releaseDigits_text hafter
    rw [List.append_assoc, List.takeWhile_append_dropWhile, List.append_cancel_left_eq] at htext
    rw [hafter, htext]
    rfl

/-- What is read as a reference ends with a cell that is read by itself. -/
theorem readFreeCell?_of_readMention? {cs : List Char} {s : Spelling}
    (h : readMention? isCaseLetter cs = some (s, v)) :
    readFreeCell? isCaseLetter (s.cell.text ++ v) = some (s.cell, v) := by
  obtain ⟨mid, hcell⟩ := exists_readFreeCell? h
  rw [readFreeCell?_text hcell]
  exact hcell

end Cells

end Appraisal.Formula
