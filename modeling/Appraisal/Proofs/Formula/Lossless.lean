import Appraisal.Proofs.Formula.Patterns

/-!
# No character of a formula is lost

A text is read from its start, piece after piece, each as the first kind whose pattern matches where
the piece stands. No pattern matches nothing at all, so every piece takes a character at least and
the reading comes to an end: at the end of the text, or where no pattern matches.

* `codePoints_append` — the code points of a text that is cut in two;
* `Scanned` — a text, the pieces read from its start and what is left;
* `exists_scanned` — what reading the pieces of a text comes to, at whatever position it stands;
* `tokens_lossless` — **the pieces and what is left make up the text, and what is left is nothing or
  is where no pattern matches, which is where the fault is reported**.
-/

namespace Appraisal.Formula

open Appraisal.Text

/-! ## 1. Positions -/

/-- The code points of a text that is cut in two are those of the parts, if the first does not end
    with the mark of a character that stands for something else. -/
theorem codePoints_append {cs : List Char} (h : cs.getLast? ≠ some escapeMark)
    (rest : List Char) : codePoints (cs ++ rest) = codePoints cs ++ codePoints rest := by
  fun_induction codePoints cs with
  | case1 => rfl
  | case2 c =>
    have hc : c ≠ escapeMark := fun heq => h (congrArg some heq)
    cases rest with
    | nil => simp [codePoints]
    | cons d rest => simp [codePoints, hc]
  | case3 d cs n hn ih =>
    have hcs : cs.getLast? ≠ some escapeMark := by
      cases cs with
      | nil => simp
      | cons e cs => simpa using h
    simp [codePoints, hn, ih hcs]
  | case4 d cs hn ih =>
    simp [codePoints, hn, ← ih (by simpa using h)]
  | case5 c d cs hc ih =>
    simp [codePoints, hc, ← ih (by simpa using h)]

/-- No piece ends with the mark of a character that stands for something else. -/
theorem TokenKind.Matches.getLast?_ne {kind : TokenKind} {text rest : List Char}
    (h : kind.Matches text rest) : text.getLast? ≠ some escapeMark := by
  have hclass : ∀ {p : Char → Bool}, p escapeMark = false → (∀ c ∈ text, p c = true) →
      text.getLast? ≠ some escapeMark := by
    intro p hmark hall hlast
    rw [hall _ (List.mem_of_getLast? hlast)] at hmark
    cases hmark
  have hpattern := h.pattern
  cases kind with
  | blank => exact hclass (by decide) (mem_run.mp hpattern).2
  | text =>
    obtain ⟨inside, rfl⟩ := mem_textPattern_iff.mp hpattern
    rw [betweenQuotes, ← List.cons_append, List.getLast?_concat]
    decide
  | name =>
    obtain ⟨c, name, hc, hname, rfl⟩ := mem_one_mul.mp hpattern
    exact hclass (p := isNameChar isCaseLetter) (by decide)
      (List.forall_mem_cons.mpr ⟨isNameChar_of_isCaseLetter hc, mem_kstar_one.mp hname⟩)
  | truth =>
    have hletters : ∀ c ∈ text, isCaseLetter c = true := by
      rcases hpattern with htrue | hfalse
      · exact isCaseLetter_of_readWord? rfl (mem_inAnyCase_iff.mp htrue [])
      · exact isCaseLetter_of_readWord? rfl (mem_inAnyCase_iff.mp hfalse [])
    exact hclass (by decide) hletters
  | reference =>
    obtain ⟨s, hs, rfl⟩ := mem_referencePattern_iff.mp hpattern
    intro hlast
    have hdigits : s.cell.digits.getLast? = some escapeMark := by
      obtain ⟨d, ds, hd⟩ := List.exists_cons_of_ne_nil hs.cell.digits_ne
      simpa [Spelling.text, CellSpelling.text, List.getLast?_append, hd] using hlast
    have hdigit := hs.cell.digits _ (List.mem_of_getLast? hdigits)
    exact absurd hdigit (by decide)
  | numeral =>
    obtain ⟨m, e, rfl, hm, he⟩ := mem_numeralPattern_iff.mp hpattern
    exact hclass (by decide) (isNumeralChar_of_mem hm he)
  | operator =>
    obtain ⟨c, hc, rfl⟩ := hpattern
    exact hclass (p := isOperatorChar) (by decide) (List.forall_mem_singleton.mpr hc)
  | mark =>
    obtain ⟨c, hc, rfl⟩ := hpattern
    exact hclass (p := isMarkChar) (by decide) (List.forall_mem_singleton.mpr hc)

/-- No pattern matches nothing at all. -/
theorem TokenKind.nil_not_mem_pattern (kind : TokenKind) : [] ∉ kind.pattern := by
  intro h
  cases kind with
  | blank => exact (mem_run.mp h).1 rfl
  | text =>
    obtain ⟨inside, hinside⟩ := mem_textPattern_iff.mp h
    cases hinside
  | name =>
    obtain ⟨c, name, -, -, hname⟩ := mem_one_mul.mp h
    cases hname
  | truth =>
    rcases h with htrue | hfalse
    · cases mem_inAnyCase_iff.mp htrue []
    · cases mem_inAnyCase_iff.mp hfalse []
  | reference =>
    obtain ⟨s, hs, htext⟩ := mem_referencePattern_iff.mp h
    simp only [Spelling.text, CellSpelling.text, List.nil_eq, List.append_eq_nil_iff] at htext
    exact hs.cell.digits_ne htext.2.2.2
  | numeral =>
    obtain ⟨m, e, htext, hm, -⟩ := mem_numeralPattern_iff.mp h
    obtain ⟨c, cs, rfl, -⟩ := hm.exists_head
    cases htext
  | operator | mark =>
    obtain ⟨c, -, hc⟩ := h
    cases hc

/-- A piece of a kind other than a name matches its pattern on its own. -/
theorem TokenKind.Matches.alone {kind : TokenKind} {text rest : List Char}
    (h : kind.Matches text rest) (hname : kind ≠ .name) : kind.Matches text [] := by
  refine ⟨h.pattern, ?_⟩
  cases kind with
  | name => exact absurd rfl hname
  | truth => exact free_nil
  | reference => exact free_nil
  | _ => trivial

/-! ## 2. Pieces one after the other -/

/-- The pieces are read from the start of a text, each as the first kind whose pattern matches where
    it stands, and something is left. -/
inductive Scanned : List Char → List Token → List Char → Prop where
  /-- All is left. -/
  | nil (cs : List Char) : Scanned cs [] cs
  /-- The first piece, and the pieces of what comes after it. -/
  | cons {t : Token} {rest left : List Char} {ts : List Token}
      (hmatches : t.kind.Matches t.text rest)
      (hfirst : ∀ kind ∈ TokenKind.order.takeWhile (· ≠ t.kind), ¬ kind.Begins (t.text ++ rest))
      (h : Scanned rest ts left) : Scanned (t.text ++ rest) (t :: ts) left

section Scanning

variable {cs left : List Char} {ts : List Token}

theorem Scanned.text (h : Scanned cs ts left) : ts.flatMap (·.text) ++ left = cs := by
  induction h with
  | nil cs => rfl
  | cons _ _ _ ih => rw [List.flatMap_cons, List.append_assoc, ih]

theorem Scanned.exists_matches (h : Scanned cs ts left) :
    ∀ t ∈ ts, ∃ rest, t.kind.Matches t.text rest := by
  induction h with
  | nil cs => exact fun t ht => nomatch ht
  | cons hmatches _ _ ih => exact List.forall_mem_cons.mpr ⟨⟨_, hmatches⟩, ih⟩

theorem Scanned.getLast?_ne (h : Scanned cs ts left) :
    (ts.flatMap (·.text)).getLast? ≠ some escapeMark := by
  induction h with
  | nil cs => simp
  | @cons t rest left ts hmatches _ _ ih =>
    rw [List.flatMap_cons, List.getLast?_append]
    intro hlast
    rcases Option.or_eq_some_iff.mp hlast with hlast | ⟨-, hlast⟩
    · exact ih hlast
    · exact hmatches.getLast?_ne hlast

/-- The first piece of a text is of the first kind whose pattern matches there. -/
theorem Scanned.of_readToken? {t : Token} {rest : List Char}
    (hread : readToken? cs = some (t, rest)) (h : Scanned rest ts left) :
    Scanned cs (t :: ts) left := by
  obtain ⟨rfl, -⟩ := readToken?_text hread
  refine .cons (TokenKind.matches_of_read? (read?_of_readToken? hread)) (fun kind hkind => ?_) h
  exact TokenKind.read?_eq_none_iff.mp (read?_of_before hread hkind)

theorem mem_order (kind : TokenKind) : kind ∈ TokenKind.order := by
  cases kind <;> decide

/-- Where no piece is read, no pattern matches. -/
theorem not_begins_of_readToken? (h : readToken? cs = none) (kind : TokenKind) :
    ¬ kind.Begins cs := by
  have hnone := List.findSome?_eq_none_iff.mp h kind (mem_order kind)
  exact TokenKind.read?_eq_none_iff.mp (Option.map_eq_none_iff.mp hnone)

/-- Reading the pieces of a text comes to its end, or to a place where no pattern matches. -/
theorem exists_scanned (position : Nat) (cs : List Char) :
    ∃ ts left, Scanned cs ts left ∧
      ((left = [] ∧ lexemesFrom position cs = .ok ts) ∨
        left ≠ [] ∧ (∀ kind : TokenKind, ¬ kind.Begins left) ∧
          lexemesFrom position cs = .error (.unexpectedPoint ((codePoints left).headD 0)
            (position + (codePoints (ts.flatMap (·.text))).length))) := by
  fun_induction lexemesFrom position cs with
  | case1 => exact ⟨[], [], .nil [], Or.inl ⟨rfl, rfl⟩⟩
  | case2 position c cs hnone =>
    exact ⟨[], c :: cs, .nil _, Or.inr ⟨List.cons_ne_nil _ _, not_begins_of_readToken? hnone, rfl⟩⟩
  | case3 position c cs t rest hread ih =>
    obtain ⟨ts, left, hscanned, hend⟩ := ih
    refine ⟨t :: ts, left, .of_readToken? hread hscanned, hend.imp ?_ ?_⟩
    · rintro ⟨hleft, hok⟩
      rw [hok]
      exact ⟨hleft, rfl⟩
    · rintro ⟨hleft, hnone, herror⟩
      have hlast := (TokenKind.matches_of_read? (read?_of_readToken? hread)).getLast?_ne
      refine ⟨hleft, hnone, ?_⟩
      rw [herror, List.flatMap_cons, codePoints_append hlast, List.length_append, ← Nat.add_assoc]
      rfl

end Scanning

/-! ## 3. Nothing is lost -/

/-- **Cutting a text into tokens loses nothing and always comes to an end.** The pieces are read one
    after the other, each of them with a character at least and each a match of its own pattern,
    whole. They and what is left make up the text. Either nothing is left and the tokens are the
    pieces other than blanks, in order, or no pattern matches where the rest begins and that is the
    code point and the position of the fault. -/
theorem tokens_lossless (cs : List Char) :
    ∃ ts left, Scanned cs ts left ∧ ts.flatMap (·.text) ++ left = cs ∧
      (∀ t ∈ ts, t.text ≠ [] ∧ t.text ∈ t.kind.pattern ∧
        (t.kind ≠ .name → t.kind.Matches t.text [])) ∧
      ((left = [] ∧ tokens cs = .ok (ts.filter (·.kind ≠ .blank))) ∨
        (∀ kind : TokenKind, ¬ kind.Begins left) ∧
          ∃ point, (codePoints cs)[(codePoints (ts.flatMap (·.text))).length]? = some point ∧
            tokens cs = .error
              (.unexpectedPoint point (codePoints (ts.flatMap (·.text))).length)) := by
  obtain ⟨ts, left, hscanned, hend⟩ := exists_scanned 0 cs
  have htext := hscanned.text
  refine ⟨ts, left, hscanned, htext, fun t ht => ?_, ?_⟩
  · obtain ⟨rest, hmatches⟩ := hscanned.exists_matches t ht
    refine ⟨fun hnil => t.kind.nil_not_mem_pattern ?_, hmatches.pattern, hmatches.alone⟩
    rw [← hnil]
    exact hmatches.pattern
  · unfold tokens lexemes
    rcases hend with ⟨hleft, hok⟩ | ⟨hleft, hnone, herror⟩
    · rw [hok]
      exact Or.inl ⟨hleft, rfl⟩
    · refine Or.inr ⟨hnone, (codePoints left).headD 0, ?_, ?_⟩
      · have hpoints : codePoints left ≠ [] := by
          intro hnil
          refine hleft ?_
          rw [← spell_codePoints left, hnil]
          rfl
        obtain ⟨point, points, hpoint⟩ := List.exists_cons_of_ne_nil hpoints
        rw [← htext, codePoints_append hscanned.getLast?_ne, hpoint, List.getElem?_append_right
          (Nat.le_refl _), Nat.sub_self]
        rfl
      · rw [herror, Nat.zero_add]
        rfl

end Appraisal.Formula
