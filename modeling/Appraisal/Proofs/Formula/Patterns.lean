import Appraisal.Proofs.Formula.Numeral
import Appraisal.Proofs.Formula.Pieces
import Mathlib.Computability.Language

/-!
# What a piece of each kind may be

A piece of a kind is a word of the kind's regular language, and some kinds ask for something of what
comes after the piece. The readers are programs; what they look for is stated here beside them, as
languages built from classes of characters.

* `TokenKind.pattern` — the language of a kind; `TokenKind.Ahead` — what has to come after a piece;
  `TokenKind.Matches`, `TokenKind.Begins` — both, of a piece and of a text that begins with one;
* `mem_textPattern_iff`, `mem_inAnyCase_iff`, `mem_referencePattern_iff`, `mem_numeralPattern_iff` —
  what the words of the languages are;
* `TokenKind.matches_of_read?` — **what a reader takes matches its pattern**;
* `TokenKind.isSome_read?_iff` — **a reader takes something exactly where its pattern matches**.
-/

namespace Appraisal.Formula

open Appraisal.Text
open scoped Computability

/-! ## 1. Languages -/

/-- A character of the class. -/
def one (p : Char → Bool) : Language Char :=
  {cs | ∃ c, p c = true ∧ cs = [c]}

/-- Characters of the class, one at least. -/
def run (p : Char → Bool) : Language Char :=
  one p * (one p)∗

/-- The characters as they stand. -/
def exactly (cs : List Char) : Language Char :=
  {cs}

/-- A word of the language, or nothing. -/
def maybe (l : Language Char) : Language Char :=
  l + 1

/-- The word in any case. -/
def inAnyCase (word : List Char) : Language Char :=
  (word.map fun w => one (readsAs w)).prod

/-- Characters between double quotes, a quote among them written twice. -/
def textPattern : Language Char :=
  exactly ['"'] * ((one (· ≠ '"') + exactly ['"', '"'])∗ * exactly ['"'])

/-- A sheet and its exclamation mark: a name between apostrophes, or a bare one. -/
def sheetPattern : Language Char :=
  exactly ['\x27'] * (run (· ≠ '\x27') * exactly ['\x27', '!']) +
    run (isNameChar isCaseLetter) * exactly ['!']

/-- One to three letters and some digits, a dollar mark before either or not. -/
def cellPattern : Language Char :=
  maybe (exactly ['$']) *
      (one isCaseLetter * maybe (one isCaseLetter) * maybe (one isCaseLetter)) *
    (maybe (exactly ['$']) * run isDigit)

/-- Digits with a point after them or among them or without one, or a point and digits. -/
def mantissaPattern : Language Char :=
  run isDigit * maybe (exactly ['.']) * (one isDigit)∗ + exactly ['.'] * run isDigit

/-- The letter e, a sign or none, and digits. -/
def exponentPattern : Language Char :=
  one (fun c => c == 'e' || c == 'E') * maybe (one fun c => c == '+' || c == '-') * run isDigit

/-- The language of the pieces of a kind. -/
def TokenKind.pattern : TokenKind → Language Char
  | .blank => run isBlank
  | .text => textPattern
  | .name => one isCaseLetter * (one (isNameChar isCaseLetter))∗
  | .truth => inAnyCase "TRUE".toList + inAnyCase "FALSE".toList
  | .reference => maybe sheetPattern * cellPattern
  | .numeral => mantissaPattern * maybe exponentPattern
  | .operator => one isOperatorChar
  | .mark => one isMarkChar

/-- What has to come after a piece of the kind: after a name an opening parenthesis, blanks aside;
    after a truth value or a reference nothing that continues it. -/
def TokenKind.Ahead : TokenKind → List Char → Prop
  | .name, rest => ∃ gap ∈ (one isBlank)∗, ∃ after, rest = gap ++ '(' :: after
  | .truth, rest => Free continuesWord rest
  | .reference, rest => Free (continuesName isCaseLetter) rest
  | _, _ => True

/-- The characters match the pattern of the kind where the rest comes after them. -/
structure TokenKind.Matches (kind : TokenKind) (text rest : List Char) : Prop where
  pattern : text ∈ kind.pattern
  ahead : kind.Ahead rest

/-- The text begins with characters that match the pattern of the kind. -/
def TokenKind.Begins (kind : TokenKind) (cs : List Char) : Prop :=
  ∃ text rest, text ++ rest = cs ∧ kind.Matches text rest

/-! ## 2. Words of the languages -/

section Words

variable {p : Char → Bool} {l : Language Char} {cs : List Char}

theorem mem_exactly {word : List Char} : cs ∈ exactly word ↔ cs = word :=
  Iff.rfl

theorem mem_maybe : cs ∈ maybe l ↔ cs ∈ l ∨ cs = [] :=
  Iff.rfl

theorem mem_kstar_one : cs ∈ (one p)∗ ↔ ∀ c ∈ cs, p c = true := by
  rw [Language.mem_kstar]
  constructor
  · rintro ⟨pieces, rfl, hpieces⟩ c hc
    obtain ⟨piece, hpiece, hc⟩ := List.mem_flatten.mp hc
    obtain ⟨d, hd, rfl⟩ := hpieces piece hpiece
    rw [List.mem_singleton.mp hc]
    exact hd
  · intro h
    refine ⟨cs.map ([·]), by simp [← List.flatMap_def], fun piece hpiece => ?_⟩
    obtain ⟨c, hc, rfl⟩ := List.mem_map.mp hpiece
    exact ⟨c, h c hc, rfl⟩

theorem mem_one_mul : cs ∈ one p * l ↔ ∃ c rest, p c = true ∧ rest ∈ l ∧ cs = c :: rest := by
  rw [Language.mem_mul]
  constructor
  · rintro ⟨_, ⟨c, hc, rfl⟩, rest, hrest, rfl⟩
    exact ⟨c, rest, hc, hrest, rfl⟩
  · rintro ⟨c, rest, hc, hrest, rfl⟩
    exact ⟨[c], ⟨c, hc, rfl⟩, rest, hrest, rfl⟩

theorem mem_exactly_mul {word : List Char} :
    cs ∈ exactly word * l ↔ ∃ rest ∈ l, cs = word ++ rest := by
  rw [Language.mem_mul]
  constructor
  · rintro ⟨_, rfl, rest, hrest, rfl⟩
    exact ⟨rest, hrest, rfl⟩
  · rintro ⟨rest, hrest, rfl⟩
    exact ⟨word, rfl, rest, hrest, rfl⟩

theorem mem_mul_exactly {word : List Char} :
    cs ∈ l * exactly word ↔ ∃ front ∈ l, cs = front ++ word := by
  rw [Language.mem_mul]
  constructor
  · rintro ⟨front, hfront, _, rfl, rfl⟩
    exact ⟨front, hfront, rfl⟩
  · rintro ⟨front, hfront, rfl⟩
    exact ⟨front, hfront, word, rfl, rfl⟩

theorem mem_run : cs ∈ run p ↔ cs ≠ [] ∧ ∀ c ∈ cs, p c = true := by
  unfold run
  rw [mem_one_mul]
  constructor
  · rintro ⟨c, rest, hc, hrest, rfl⟩
    exact ⟨List.cons_ne_nil _ _, List.forall_mem_cons.mpr ⟨hc, mem_kstar_one.mp hrest⟩⟩
  · rintro ⟨hne, h⟩
    obtain ⟨c, rest, rfl⟩ := List.exists_cons_of_ne_nil hne
    obtain ⟨hc, hrest⟩ := List.forall_mem_cons.mp h
    exact ⟨c, rest, hc, mem_kstar_one.mpr hrest, rfl⟩

/-- A word in any case is what the reader of the word takes whole. -/
theorem mem_inAnyCase_iff {word : List Char} :
    cs ∈ inAnyCase word ↔ ∀ rest, readWord? word (cs ++ rest) = some (cs, rest) := by
  induction word generalizing cs with
  | nil =>
    constructor
    · rintro rfl rest
      rfl
    · intro h
      have hnil := h []
      rw [readWord?, Option.some.injEq, Prod.mk.injEq] at hnil
      exact hnil.1.symm
  | cons w word ih =>
    show cs ∈ one (readsAs w) * inAnyCase word ↔ _
    rw [mem_one_mul]
    constructor
    · rintro ⟨c, text, hc, htext, rfl⟩ rest
      rw [List.cons_append, readWord?, if_pos hc, ih.mp htext rest]
      rfl
    · intro h
      cases cs with
      | nil => cases h []
      | cons c cs =>
        have hreads : readsAs w c = true := by
          have hnil := h []
          rw [List.cons_append, readWord?] at hnil
          split at hnil
          · next hc => exact hc
          · cases hnil
        refine ⟨c, cs, hreads, ih.mpr fun rest => ?_, rfl⟩
        have hrest := h rest
        rw [List.cons_append, readWord?, if_pos hreads, Option.map_eq_some_iff] at hrest
        obtain ⟨⟨text, after⟩, hread, heq⟩ := hrest
        cases heq
        exact hread

/-- A text is some characters between quotes. -/
theorem mem_textPattern_iff : cs ∈ textPattern ↔ ∃ inside, cs = betweenQuotes inside := by
  have hinside : ∀ {cs : List Char}, cs ∈ (one (· ≠ '"') + exactly ['"', '"'])∗ ↔
      ∃ inside, cs = doubled inside := by
    intro cs
    rw [Language.mem_kstar]
    constructor
    · rintro ⟨pieces, rfl, hpieces⟩
      induction pieces with
      | nil => exact ⟨[], rfl⟩
      | cons piece pieces ih =>
        obtain ⟨hpiece, hpieces⟩ := List.forall_mem_cons.mp hpieces
        obtain ⟨inside, hinside⟩ := ih hpieces
        rw [List.flatten_cons, hinside]
        rcases hpiece with ⟨c, hc, rfl⟩ | hpiece
        · exact ⟨c :: inside, by rw [doubled, if_neg (of_decide_eq_true hc)]; rfl⟩
        · rw [mem_exactly.mp hpiece]
          exact ⟨'"' :: inside, rfl⟩
    · rintro ⟨inside, rfl⟩
      induction inside with
      | nil => exact ⟨[], rfl, by simp⟩
      | cons c inside ih =>
        obtain ⟨pieces, hinside, hpieces⟩ := ih
        rw [doubled]
        split
        · exact ⟨['"', '"'] :: pieces, by rw [List.flatten_cons, ← hinside]; rfl,
            List.forall_mem_cons.mpr ⟨Or.inr rfl, hpieces⟩⟩
        · next hc =>
          exact ⟨[c] :: pieces, by rw [List.flatten_cons, ← hinside]; rfl,
            List.forall_mem_cons.mpr ⟨Or.inl ⟨c, decide_eq_true hc, rfl⟩, hpieces⟩⟩
  unfold textPattern
  rw [mem_exactly_mul]
  constructor
  · rintro ⟨rest, hrest, rfl⟩
    obtain ⟨front, hfront, rfl⟩ := mem_mul_exactly.mp hrest
    obtain ⟨inside, rfl⟩ := hinside.mp hfront
    exact ⟨inside, rfl⟩
  · rintro ⟨inside, rfl⟩
    exact ⟨_, mem_mul_exactly.mpr ⟨doubled inside, hinside.mpr ⟨inside, rfl⟩, rfl⟩, rfl⟩

end Words

/-! ## 3. References and numerals -/

section Parts

variable {cs : List Char}

theorem mem_maybe_mark : cs ∈ maybe (exactly ['$']) ↔ ∃ mark, cs = markText mark := by
  rw [mem_maybe, mem_exactly]
  constructor
  · rintro (rfl | rfl)
    · exact ⟨true, rfl⟩
    · exact ⟨false, rfl⟩
  · rintro ⟨mark, rfl⟩
    cases mark with
    | true => exact Or.inl rfl
    | false => exact Or.inr rfl

/-- One letter, two or three. -/
theorem mem_upToThree {p : Char → Bool} : cs ∈ one p * maybe (one p) * maybe (one p) ↔
    cs ≠ [] ∧ cs.length ≤ 3 ∧ ∀ c ∈ cs, p c = true := by
  have hmaybe : ∀ {c : Char}, p c = true → [c] ∈ maybe (one p) := fun hc =>
    mem_maybe.mpr (Or.inl ⟨_, hc, rfl⟩)
  have hnothing : [] ∈ maybe (one p) := mem_maybe.mpr (Or.inr rfl)
  rw [mul_assoc, mem_one_mul]
  constructor
  · rintro ⟨c, _, hc, ⟨second, hsecond, third, hthird, rfl⟩, rfl⟩
    rcases mem_maybe.mp hsecond with ⟨d, hd, rfl⟩ | rfl <;>
      rcases mem_maybe.mp hthird with ⟨e, he, rfl⟩ | rfl <;> simp [*]
  · rintro ⟨hne, hlength, h⟩
    match cs with
    | [c] =>
      exact ⟨c, [], h c (by simp), ⟨[], hnothing, [], hnothing, rfl⟩, rfl⟩
    | [c, d] =>
      exact ⟨c, [d], h c (by simp), ⟨[d], hmaybe (h d (by simp)), [], hnothing, rfl⟩, rfl⟩
    | [c, d, e] =>
      exact ⟨c, [d, e], h c (by simp),
        ⟨[d], hmaybe (h d (by simp)), [e], hmaybe (h e (by simp)), rfl⟩, rfl⟩
    | _ :: _ :: _ :: _ :: _ => exact absurd hlength (by simp)

theorem mem_cellPattern_iff :
    cs ∈ cellPattern ↔ ∃ c : CellSpelling, c.Sound isCaseLetter ∧ cs = c.text := by
  unfold cellPattern
  constructor
  · rintro ⟨_, ⟨_, hcolumn, letters, hletters, rfl⟩, _, ⟨_, hrow, digits, hdigits, rfl⟩, rfl⟩
    obtain ⟨columnMark, rfl⟩ := mem_maybe_mark.mp hcolumn
    obtain ⟨rowMark, rfl⟩ := mem_maybe_mark.mp hrow
    obtain ⟨hne, hlength, hletter⟩ := mem_upToThree.mp hletters
    obtain ⟨hdne, hdigit⟩ := mem_run.mp hdigits
    exact ⟨⟨columnMark, letters, rowMark, digits⟩, ⟨hne, hlength, hletter, hdne, hdigit⟩, rfl⟩
  · rintro ⟨c, hc, rfl⟩
    have hletters := mem_upToThree.mpr ⟨hc.letters_ne, hc.letters_le, hc.letters⟩
    have hdigits := mem_run.mpr ⟨hc.digits_ne, hc.digits⟩
    exact Language.append_mem_mul
      (Language.append_mem_mul (mem_maybe_mark.mpr ⟨_, rfl⟩) hletters)
      (Language.append_mem_mul (mem_maybe_mark.mpr ⟨_, rfl⟩) hdigits)

theorem mem_maybe_sheet_iff :
    cs ∈ maybe sheetPattern ↔ ∃ p : SheetPrefix, p.Sound isCaseLetter ∧ cs = p.text := by
  have hfree : ∀ {name : List Char}, (∀ c ∈ name, decide (c ≠ '\x27') = true) ↔ '\x27' ∉ name := by
    intro name
    simp only [decide_eq_true_eq]
    exact ⟨fun h hmem => h _ hmem rfl, fun h c hc heq => h (heq ▸ hc)⟩
  rw [mem_maybe]
  constructor
  · rintro ((hquoted | hbare) | rfl)
    · obtain ⟨_, hrest, rfl⟩ := mem_exactly_mul.mp hquoted
      obtain ⟨name, hname, rfl⟩ := mem_mul_exactly.mp hrest
      obtain ⟨hne, hall⟩ := mem_run.mp hname
      exact ⟨.quoted name, ⟨hne, hfree.mp hall⟩, rfl⟩
    · obtain ⟨name, hname, rfl⟩ := mem_mul_exactly.mp hbare
      exact ⟨.bare name, mem_run.mp hname, rfl⟩
    · exact ⟨.absent, trivial, rfl⟩
  · rintro ⟨p, hp, rfl⟩
    cases p with
    | absent => exact Or.inr rfl
    | bare name => exact Or.inl (Or.inr (mem_mul_exactly.mpr ⟨name, mem_run.mpr hp, rfl⟩))
    | quoted name =>
      have hname := mem_run.mpr ⟨hp.1, hfree.mpr hp.2⟩
      exact Or.inl (Or.inl (mem_exactly_mul.mpr ⟨_, mem_mul_exactly.mpr ⟨name, hname, rfl⟩, rfl⟩))

/-- A reference is a spelling that has the parts of one. -/
theorem mem_referencePattern_iff : cs ∈ TokenKind.reference.pattern ↔
    ∃ s : Spelling, s.Sound isCaseLetter ∧ cs = s.text := by
  constructor
  · rintro ⟨_, hsheet, _, hcell, rfl⟩
    obtain ⟨p, hp, rfl⟩ := mem_maybe_sheet_iff.mp hsheet
    obtain ⟨c, hc, rfl⟩ := mem_cellPattern_iff.mp hcell
    exact ⟨⟨p, c⟩, ⟨hp, hc⟩, rfl⟩
  · rintro ⟨s, hs, rfl⟩
    exact Language.append_mem_mul (mem_maybe_sheet_iff.mpr ⟨_, hs.sheet, rfl⟩)
      (mem_cellPattern_iff.mpr ⟨_, hs.cell, rfl⟩)

theorem mem_mantissaPattern_iff : cs ∈ mantissaPattern ↔ IsMantissa cs := by
  constructor
  · rintro (⟨_, ⟨ds, hds, _, hpoint, rfl⟩, es, hes, rfl⟩ | hpoint)
    · obtain ⟨hne, hdigits⟩ := mem_run.mp hds
      have hmore := mem_kstar_one.mp hes
      rcases mem_maybe.mp hpoint with rfl | rfl
      · show IsMantissa (ds ++ ['.'] ++ es)
        rw [List.append_assoc]
        exact .point (fun h => hne h.1) hdigits hmore
      · show IsMantissa (ds ++ [] ++ es)
        rw [List.append_nil]
        exact .whole (List.append_ne_nil_of_left_ne_nil hne es) fun c hc =>
          (List.mem_append.mp hc).elim (hdigits c) (hmore c)
    · obtain ⟨es, hes, rfl⟩ := mem_exactly_mul.mp hpoint
      obtain ⟨hne, hdigits⟩ := mem_run.mp hes
      have hnone : ∀ c ∈ ([] : List Char), isDigit c = true := fun c hc =>
        absurd hc List.not_mem_nil
      exact .point (fun h => hne h.2) hnone hdigits
  · intro h
    cases h with
    | whole hne hds =>
      refine Or.inl ⟨cs, ⟨cs, mem_run.mpr ⟨hne, hds⟩, [], Or.inr rfl, ?_⟩, [], ?_, ?_⟩
      · exact List.append_nil cs
      · exact Language.nil_mem_kstar _
      · exact List.append_nil cs
    | @point ds es hne hds hes =>
      by_cases hempty : ds = []
      · have hmore : es ≠ [] := fun h => hne ⟨hempty, h⟩
        rw [hempty]
        exact Or.inr (mem_exactly_mul.mpr ⟨es, mem_run.mpr ⟨hmore, hes⟩, rfl⟩)
      · refine Or.inl ⟨ds ++ ['.'], ⟨ds, mem_run.mpr ⟨hempty, hds⟩, ['.'], Or.inl rfl, rfl⟩, es,
          mem_kstar_one.mpr hes, ?_⟩
        simp

theorem mem_maybe_exponent_iff : cs ∈ maybe exponentPattern ↔ IsExponent cs := by
  rw [mem_maybe, exponentPattern, mul_assoc, mem_one_mul]
  constructor
  · rintro (⟨c, _, hc, ⟨sign, hsign, ds, hds, rfl⟩, rfl⟩ | rfl)
    · obtain ⟨hne, hdigits⟩ := mem_run.mp hds
      rw [Bool.or_eq_true, beq_iff_eq, beq_iff_eq] at hc
      refine .some hc ?_ hne hdigits
      rcases mem_maybe.mp hsign with ⟨d, hd, rfl⟩ | rfl
      · rw [Bool.or_eq_true, beq_iff_eq, beq_iff_eq] at hd
        rcases hd with rfl | rfl
        · exact Or.inr (Or.inl rfl)
        · exact Or.inr (Or.inr rfl)
      · exact Or.inl rfl
    · exact .none
  · intro h
    cases h with
    | none => exact Or.inr rfl
    | @some c sign ds hc hsign hne hds =>
      have hletter : (c == 'e' || c == 'E') = true := by
        rw [Bool.or_eq_true, beq_iff_eq, beq_iff_eq]
        exact hc
      refine Or.inl ⟨c, _, hletter, ⟨sign, ?_, ds, mem_run.mpr ⟨hne, hds⟩, rfl⟩, rfl⟩
      rcases hsign with rfl | rfl | rfl
      · exact Or.inr rfl
      · exact Or.inl ⟨'+', rfl, rfl⟩
      · exact Or.inl ⟨'-', rfl, rfl⟩

/-- A numeral is a mantissa and an exponent, which may be missing. -/
theorem mem_numeralPattern_iff : cs ∈ TokenKind.numeral.pattern ↔
    ∃ m e, cs = m ++ e ∧ IsMantissa m ∧ IsExponent e := by
  constructor
  · rintro ⟨m, hm, e, he, rfl⟩
    exact ⟨m, e, rfl, mem_mantissaPattern_iff.mp hm, mem_maybe_exponent_iff.mp he⟩
  · rintro ⟨m, e, rfl, hm, he⟩
    exact Language.append_mem_mul (mem_mantissaPattern_iff.mpr hm) (mem_maybe_exponent_iff.mpr he)

end Parts

/-! ## 4. What is taken matches -/

section Taken

variable {cs text rest : List Char}

/-- After a name there is an opening parenthesis, blanks aside. -/
theorem ahead_name_iff :
    TokenKind.name.Ahead rest ↔ (rest.dropWhile isBlank).head? = some '(' := by
  constructor
  · rintro ⟨gap, hgap, after, rfl⟩
    rw [dropWhile_run (mem_kstar_one.mp hgap) (free_cons rfl)]
    rfl
  · intro h
    obtain ⟨after, hafter⟩ := List.head?_eq_some_iff.mp h
    refine ⟨rest.takeWhile isBlank, mem_kstar_one.mpr fun c hc => of_mem_takeWhile hc, after, ?_⟩
    rw [← hafter, List.takeWhile_append_dropWhile]

theorem matches_of_readName? (h : readName? cs = some (text, rest)) :
    TokenKind.name.Matches text rest := by
  cases cs with
  | nil => cases h
  | cons c cs =>
    rw [readName?] at h
    split at h
    · next hname =>
      cases h
      refine ⟨mem_one_mul.mpr ⟨c, _, hname.1, ?_, rfl⟩, ahead_name_iff.mpr hname.2⟩
      exact mem_kstar_one.mpr fun d hd => of_mem_takeWhile hd
    · cases h

/-- The word that is read is read from any text that begins with it. -/
theorem mem_inAnyCase_of_readWord? {word : List Char} (h : readWord? word cs = some (text, rest)) :
    text ∈ inAnyCase word := by
  induction word generalizing cs text with
  | nil =>
    cases h
    rfl
  | cons w word ih =>
    cases cs with
    | nil => cases h
    | cons c cs =>
      rw [readWord?] at h
      split at h
      · next hreads =>
        obtain ⟨⟨t, r⟩, ht, heq⟩ := Option.map_eq_some_iff.mp h
        cases heq
        exact mem_one_mul.mpr ⟨c, t, hreads, ih ht, rfl⟩
      · cases h

theorem matches_of_readTruth? (h : readTruth? cs = some (text, rest)) :
    TokenKind.truth.Matches text rest := by
  unfold readTruth? at h
  split at h
  · next word after hword =>
    split at h
    · cases h
    · next hahead =>
      cases h
      refine ⟨?_, any_head?_eq_false_iff.mp (Bool.eq_false_iff.mpr hahead)⟩
      rcases Option.or_eq_some_iff.mp hword with htrue | ⟨-, hfalse⟩
      · exact Or.inl (mem_inAnyCase_of_readWord? htrue)
      · exact Or.inr (mem_inAnyCase_of_readWord? hfalse)
  · cases h

/-- The digits that are kept end before something that does not go on with a name. -/
theorem free_of_releaseDigits {blocked : Char → Bool} {digits kept after : List Char}
    (h : releaseDigits blocked digits rest = some (kept, after)) : Free blocked after := by
  induction digits generalizing kept with
  | nil => cases h
  | cons d ds ih =>
    unfold releaseDigits at h
    split at h
    · next more after' hmore =>
      cases h
      exact ih hmore
    · split at h
      · cases h
      · next hahead =>
        cases h
        exact any_head?_eq_false_iff.mp (Bool.eq_false_iff.mpr hahead)

theorem free_of_readFreeCell? {letter : Char → Bool} {c : CellSpelling}
    (h : readFreeCell? letter cs = some (c, rest)) : Free (continuesName letter) rest := by
  obtain ⟨digits, mid, -, hdigits⟩ := exists_of_readFreeCell? h
  exact free_of_releaseDigits hdigits

theorem free_of_readMention? {letter : Char → Bool} {s : Spelling}
    (h : readMention? letter cs = some (s, rest)) : Free (continuesName letter) rest := by
  obtain ⟨mid, hcell⟩ := exists_readFreeCell? h
  exact free_of_readFreeCell? hcell

/-- **What a reader takes matches the pattern of its kind.** -/
theorem TokenKind.matches_of_read? {kind : TokenKind} (h : kind.read? cs = some (text, rest)) :
    kind.Matches text rest := by
  have hne := (TokenKind.read?_text h).2
  cases kind with
  | blank => exact ⟨mem_run.mpr ⟨hne, isBlank_of_readBlanks? h⟩, trivial⟩
  | text =>
    have hread : Token.Read ⟨.text, text⟩ := ⟨cs, rest, h⟩
    exact ⟨mem_textPattern_iff.mpr (hread.exists_betweenQuotes rfl), trivial⟩
  | name => exact matches_of_readName? h
  | truth => exact matches_of_readTruth? h
  | reference =>
    obtain ⟨⟨s, r⟩, hread, heq⟩ := Option.map_eq_some_iff.mp h
    cases heq
    exact ⟨mem_referencePattern_iff.mpr ⟨s, readMention?_sound hread, rfl⟩,
      free_of_readMention? hread⟩
  | numeral => exact ⟨mem_numeralPattern_iff.mpr (exists_parts h), trivial⟩
  | operator =>
    obtain ⟨c, rfl, hc⟩ := exists_of_readOne? h
    exact ⟨⟨c, hc, rfl⟩, trivial⟩
  | mark =>
    obtain ⟨c, rfl, hc⟩ := exists_of_readOne? h
    exact ⟨⟨c, hc, rfl⟩, trivial⟩

end Taken

/-! ## 5. Something is taken wherever the pattern matches -/

section Found

variable {cs text rest : List Char}

/-- A quote that closes a text is found. -/
theorem isSome_readTextTail? (h : '"' ∈ cs) : (readTextTail? cs).isSome = true := by
  fun_induction readTextTail? cs with
  | case1 => cases h
  | case2 => rfl
  | case3 => rfl
  | case4 => rfl
  | case5 c cs hnext hc ih =>
    rw [Option.isSome_map]
    exact ih ((List.mem_cons.mp h).resolve_left fun heq => hc heq.symm)

theorem isSome_readName? (h : TokenKind.name.Matches text rest) :
    (readName? (text ++ rest)).isSome = true := by
  obtain ⟨c, name, hc, hname, rfl⟩ := mem_one_mul.mp h.pattern
  have hahead := ahead_name_iff.mp h.ahead
  have hstop : Free (isNameChar isCaseLetter) rest := by
    obtain ⟨gap, hgap, after, rfl⟩ := h.ahead
    cases gap with
    | nil => exact free_cons rfl
    | cons b gap => exact free_cons (isNameChar_of_isBlank (mem_kstar_one.mp hgap b (by simp)))
  rw [List.cons_append, readName?, dropWhile_run (mem_kstar_one.mp hname) hstop,
    if_pos ⟨hc, hahead⟩]
  rfl

theorem isSome_readTruth? (h : TokenKind.truth.Matches text rest) :
    (readTruth? (text ++ rest)).isSome = true := by
  have hword : (readWord? "TRUE".toList (text ++ rest)).or
      (readWord? "FALSE".toList (text ++ rest)) = some (text, rest) := by
    rcases h.pattern with htrue | hfalse
    · rw [mem_inAnyCase_iff.mp htrue rest, Option.some_or]
    · obtain ⟨c, more, hc, -, rfl⟩ := mem_one_mul.mp hfalse
      have hother : readWord? "TRUE".toList (c :: more ++ rest) = none := by
        have hupper : c.toUpper = 'F' := by
          have hreads : readsAs 'F' c = true := hc
          simpa [readsAs] using hreads
        have hnot : ¬ readsAs 'T' c = true := by simp [readsAs, hupper]
        exact if_neg hnot
      rw [hother, Option.none_or, mem_inAnyCase_iff.mp hfalse rest]
  rw [readTruth?, hword]
  simp only
  rw [if_neg (Bool.eq_false_iff.mp (any_head?_eq_false_iff.mpr h.ahead))]
  rfl

/-- Among the digits before something that does not go on with a name, some can be kept. -/
theorem isSome_releaseDigits {blocked : Char → Bool} {kept more after : List Char}
    (hkept : kept ≠ []) (h : Free blocked (more ++ after)) :
    (releaseDigits blocked (kept ++ more) after).isSome = true := by
  induction kept with
  | nil => exact absurd rfl hkept
  | cons d ds ih =>
    rw [List.cons_append, releaseDigits]
    split
    · rfl
    · next hnone =>
      by_cases hds : ds = []
      · rw [hds, List.nil_append, any_head?_eq_false_iff.mpr h]
        rfl
      · have := ih hds
        rw [hnone] at this
        cases this

/-- A cell that nothing after it continues is found, if need be with more digits. -/
theorem isSome_readFreeCell? {c : CellSpelling} (hc : c.Sound isCaseLetter)
    (hrest : Free (continuesName isCaseLetter) rest) :
    (readFreeCell? isCaseLetter (c.text ++ rest)).isSome = true := by
  let longer : CellSpelling := { c with digits := c.digits ++ rest.takeWhile isDigit }
  have hlonger : longer.Sound isCaseLetter :=
    ⟨hc.letters_ne, hc.letters_le, hc.letters, List.append_ne_nil_of_left_ne_nil hc.digits_ne _,
      fun x hx => (List.mem_append.mp hx).elim (hc.digits x) of_mem_takeWhile⟩
  have htext : c.text ++ rest = longer.text ++ rest.dropWhile isDigit := by
    simp [CellSpelling.text, longer]
  have hread := readCell?_append (fun _ hx => hx) hlonger (free_dropWhile isDigit rest)
  have hreleased : (releaseDigits (continuesName isCaseLetter)
      (c.digits ++ rest.takeWhile isDigit) (rest.dropWhile isDigit)).isSome = true :=
    isSome_releaseDigits hc.digits_ne (by rwa [List.takeWhile_append_dropWhile])
  obtain ⟨⟨kept, after⟩, hkept⟩ := Option.isSome_iff_exists.mp hreleased
  rw [htext, readFreeCell?, hread]
  show ((releaseDigits (continuesName isCaseLetter) longer.digits _).bind _).isSome = true
  rw [show longer.digits = c.digits ++ rest.takeWhile isDigit from rfl, hkept]
  rfl

theorem isSome_readReference? (h : TokenKind.reference.Matches text rest) :
    (readReference? (text ++ rest)).isSome = true := by
  obtain ⟨s, hs, rfl⟩ := mem_referencePattern_iff.mp h.pattern
  obtain ⟨⟨c, after⟩, hcell⟩ := Option.isSome_iff_exists.mp (isSome_readFreeCell? hs.cell h.ahead)
  unfold readReference? readMention? withSheet?
  rw [Option.isSome_map, Option.isSome_map, Option.isSome_or, Spelling.text, List.append_assoc,
    Bool.or_eq_true]
  by_cases habsent : s.sheet = .absent
  · rw [habsent]
    show _ ∨ ((readFreeCell? isCaseLetter (s.cell.text ++ rest)).map _).isSome = true
    rw [hcell]
    exact Or.inr rfl
  · rw [readPrefix?_append (fun _ hx => hx) hs.sheet habsent]
    show ((readFreeCell? isCaseLetter (s.cell.text ++ rest)).map _).isSome = true ∨ _
    rw [hcell]
    exact Or.inl rfl

/-- Digits, or a point and a digit, begin a number. -/
theorem isSome_readMantissa?
    (h : cs.takeWhile isDigit ≠ [] ∨ ∃ d more, isDigit d = true ∧ cs = '.' :: d :: more) :
    (readMantissa? cs).isSome = true := by
  rcases h with hwhole | ⟨d, more, hd, rfl⟩
  · unfold readMantissa? readDigits
    simp only
    split
    · rw [if_neg fun h => hwhole h.1]
      rfl
    · rw [if_neg hwhole]
      rfl
  · have hpoint : Free isDigit ('.' :: d :: more) := free_cons rfl
    unfold readMantissa? readDigits
    simp only [hpoint.takeWhile, hpoint.dropWhile, List.takeWhile_cons, hd]
    rfl

theorem isSome_readNumeral? (h : TokenKind.numeral.Matches text rest) :
    (readNumeral? (text ++ rest)).isSome = true := by
  obtain ⟨m, e, rfl, hm, -⟩ := mem_numeralPattern_iff.mp h.pattern
  rw [readNumeral?, Option.isSome_map, List.append_assoc]
  have hwhole : ∀ {ds : List Char} (after : List Char), ds ≠ [] → (∀ c ∈ ds, isDigit c = true) →
      (ds ++ after).takeWhile isDigit ≠ [] := by
    intro ds after hne hds
    rw [List.takeWhile_append_of_pos hds]
    exact List.append_ne_nil_of_left_ne_nil hne _
  refine isSome_readMantissa? ?_
  cases hm with
  | whole hne hds => exact Or.inl (hwhole _ hne hds)
  | @point ds es hne hds hes =>
    by_cases hempty : ds = []
    · obtain ⟨d, more, rfl⟩ := List.exists_cons_of_ne_nil fun h => hne ⟨hempty, h⟩
      rw [hempty]
      exact Or.inr ⟨d, _, hes d List.mem_cons_self, rfl⟩
    · rw [List.append_assoc]
      exact Or.inl (hwhole _ hempty hds)

theorem TokenKind.isSome_read? {kind : TokenKind} (h : kind.Matches text rest) :
    (kind.read? (text ++ rest)).isSome = true := by
  cases kind with
  | blank =>
    obtain ⟨hne, hblanks⟩ := mem_run.mp h.pattern
    show (readBlanks? (text ++ rest)).isSome = true
    rw [readBlanks?, List.takeWhile_append_of_pos hblanks,
      if_neg (List.append_ne_nil_of_left_ne_nil hne _)]
    rfl
  | text =>
    obtain ⟨inside, rfl⟩ := mem_textPattern_iff.mp h.pattern
    show (readText? ('"' :: (doubled inside ++ ['"'] ++ rest))).isSome = true
    rw [readText?, Option.isSome_map]
    exact isSome_readTextTail? (by simp)
  | name => exact isSome_readName? h
  | truth => exact isSome_readTruth? h
  | reference => exact isSome_readReference? h
  | numeral => exact isSome_readNumeral? h
  | operator =>
    obtain ⟨c, hc, rfl⟩ := h.pattern
    show (readOne? isOperatorChar (c :: rest)).isSome = true
    rw [readOne?, if_pos hc]
    rfl
  | mark =>
    obtain ⟨c, hc, rfl⟩ := h.pattern
    show (readOne? isMarkChar (c :: rest)).isSome = true
    rw [readOne?, if_pos hc]
    rfl

/-- **A reader takes something exactly where the pattern of its kind matches.** -/
theorem TokenKind.isSome_read?_iff {kind : TokenKind} :
    (kind.read? cs).isSome = true ↔ kind.Begins cs := by
  constructor
  · intro h
    obtain ⟨⟨text, rest⟩, hread⟩ := Option.isSome_iff_exists.mp h
    exact ⟨text, rest, (TokenKind.read?_text hread).1, TokenKind.matches_of_read? hread⟩
  · rintro ⟨text, rest, rfl, h⟩
    exact TokenKind.isSome_read? h

theorem TokenKind.read?_eq_none_iff {kind : TokenKind} :
    kind.read? cs = none ↔ ¬ kind.Begins cs := by
  rw [← TokenKind.isSome_read?_iff, Bool.not_eq_true, Option.isSome_eq_false_iff,
    Option.isNone_iff_eq_none]

end Found

end Appraisal.Formula
