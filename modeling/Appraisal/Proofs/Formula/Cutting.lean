import Appraisal.Proofs.Address.Rendered
import Appraisal.Proofs.Formula.Grammar

/-!
# Where a text is cut into pieces

The readers of pieces are tried in turn, and each looks at what comes after the piece: a name needs
a parenthesis, a word and a reference need something that ends them. So a piece is cut out of a text
as it was put there where what follows it keeps it apart.

* `CutInto` — a text and the tokens that it is cut into, blanks aside;
* `Parted` — what may follow an operand: the end, a blank, an operator or a mark, but no
  parenthesis that would open a call;
* `CutInto.text`, `CutInto.truth`, `CutInto.mention`, `CutInto.numeral`, `CutInto.name`,
  `CutInto.operator`, `CutInto.mark`, `CutInto.blanks` — **a piece of each kind is cut out of a text
  as it was put there**.
-/

namespace Appraisal.Formula

open Appraisal.Text

/-! ## 1. Cuts -/

section Cuts

variable {cs rest : List Char} {t : Token} {ts : List Token}

/-- The text is cut into the tokens, blanks aside, wherever it stands. -/
def CutInto (cs : List Char) (ts : List Token) : Prop :=
  ∀ position, (lexemesFrom position cs).map (fun us => us.filter (·.kind ≠ .blank)) = .ok ts

theorem CutInto.tokens_eq (h : CutInto cs ts) : tokens cs = .ok ts := by
  unfold tokens lexemes
  exact h 0

theorem lexemesFrom_nil (position : Nat) : lexemesFrom position [] = .ok [] := by
  unfold lexemesFrom
  rfl

theorem cutInto_nil : CutInto [] [] := by
  intro position
  rw [lexemesFrom_nil]
  rfl

theorem lexemesFrom_of_readToken? (h : readToken? cs = some (t, rest)) (position : Nat) :
    lexemesFrom position cs =
      (lexemesFrom (position + (codePoints t.text).length) rest).map (t :: ·) := by
  fun_cases lexemesFrom position cs with
  | case1 => cases h
  | case2 c cs' hnone => cases hnone.symm.trans h
  | case3 c cs' u rest' hread =>
    cases hread.symm.trans h
    rfl

/-- A piece at the front is the first token, unless it is blank. -/
theorem CutInto.cons (hread : readToken? cs = some (t, rest)) (h : CutInto rest ts) :
    CutInto cs (if t.kind ≠ .blank then t :: ts else ts) := by
  intro position
  obtain ⟨us, hus, hfilter⟩ :=
    exists_of_map_ok (h (position + (codePoints t.text).length))
  rw [lexemesFrom_of_readToken? hread, hus, ← hfilter]
  show Except.ok ((t :: us).filter _) = _
  by_cases hblank : t.kind = .blank
  · simp [hblank]
  · simp [hblank]

end Cuts

/-! ## 2. What is not read -/

/-- What may follow an operand: it does not go on with the characters of a word, with a quote or,
    after blanks, with an opening parenthesis. -/
structure Parted (rest : List Char) : Prop where
  joining : Free isJoining rest
  quote : Free (· == '"') rest
  opening : Free (· == '(') (rest.dropWhile isBlank)

section None

variable {cs rest : List Char}

theorem Parted.word (h : Parted rest) : Free isWord rest :=
  h.joining.mono fun _ hx => isJoining_of_isWord hx

theorem parted_nil : Parted [] :=
  ⟨free_nil, free_nil, free_nil⟩

/-- A character that parts an operand from what follows: an operator, a comma, a colon or a closing
    parenthesis. -/
def isParting (c : Char) : Bool :=
  isOperatorChar c || c == ',' || c == ':' || c == ')'

theorem parted_cons {c : Char} (hc : isParting c = true) (cs : List Char) : Parted (c :: cs) := by
  unfold isParting isOperatorChar at hc
  simp only [Bool.or_eq_true, beq_iff_eq] at hc
  rcases hc with (((((rfl | rfl) | rfl) | rfl) | rfl) | rfl) | rfl <;>
    exact ⟨free_cons rfl, free_cons rfl, free_cons rfl⟩

/-- Blanks in front part as well. -/
theorem Parted.blanks {gap : List Char} (hgap : ∀ c ∈ gap, isBlank c = true) (h : Parted rest) :
    Parted (gap ++ rest) := by
  cases gap with
  | nil => exact h
  | cons b bs =>
    have hb : isBlank b = true := hgap b List.mem_cons_self
    have hquote : (b == '"') = false := by
      rw [beq_eq_false_iff_ne]
      rintro rfl
      cases hb
    refine ⟨free_cons (isJoining_of_isBlank hb), free_cons hquote, ?_⟩
    rw [List.dropWhile_append_of_pos hgap]
    exact h.opening

theorem readBlanks?_free (h : Free isBlank cs) : readBlanks? cs = none := by
  rw [readBlanks?, h.takeWhile]
  rfl

theorem readText?_free (h : Free (· == '"') cs) : readText? cs = none := by
  unfold readText?
  split
  · cases h '"' rfl
  · rfl

/-- After a word that no parenthesis follows there is no name. -/
theorem readName?_word {u : List Char} (hu : ∀ c ∈ u, isWord c = true) (hrest : Parted rest) :
    readName? (u ++ rest) = none := by
  have hname : Free (isNameChar isCaseLetter) rest :=
    hrest.word.mono fun _ hx => isWord_of_isNameChar hx
  have hopening : ∀ u : List Char, (∀ c ∈ u, isWord c = true) →
      Free (· == '(') (((u ++ rest).dropWhile (isNameChar isCaseLetter)).dropWhile isBlank) := by
    intro u hu
    induction u with
    | nil =>
      rw [List.nil_append, hname.dropWhile]
      exact hrest.opening
    | cons c u ih =>
      obtain ⟨hc, hu⟩ := List.forall_mem_cons.mp hu
      rw [List.cons_append, List.dropWhile_cons]
      split
      · exact ih hu
      · have hparen : (c == '(') = false := by
          rw [beq_eq_false_iff_ne]
          rintro rfl
          cases hc
        have hblank : Free isBlank (c :: (u ++ rest)) := free_cons (isBlank_of_isWord hc)
        rw [hblank.dropWhile]
        exact free_cons hparen
  have hnone : ∀ (c : Char) (cs : List Char),
      Free (· == '(') ((cs.dropWhile (isNameChar isCaseLetter)).dropWhile isBlank) →
      readName? (c :: cs) = none := by
    intro c cs hfree
    unfold readName?
    simp only
    rw [if_neg]
    rintro ⟨-, hhead⟩
    cases hfree '(' hhead
  cases u with
  | nil =>
    cases rest with
    | nil => rfl
    | cons c cs =>
      rw [List.nil_append, readName?, if_neg]
      rintro ⟨hletter, -⟩
      have hc := hrest.word c rfl
      rw [isWord_of_isNameChar (isNameChar_of_isCaseLetter hletter)] at hc
      cases hc
  | cons c u =>
    rw [List.cons_append]
    exact hnone c _ (hopening u fun x hx => hu x (List.mem_cons_of_mem c hx))

theorem length_le_of_readWord? {word text : List Char} (hword : word.all Char.isAlpha = true)
    (h : readWord? word cs = some (text, rest)) :
    word.length ≤ (cs.takeWhile isCaseLetter).length := by
  induction word generalizing cs text rest with
  | nil => exact Nat.zero_le _
  | cons w word ih =>
    obtain ⟨hw, hword⟩ := (Bool.and_eq_true _ _).mp hword
    cases cs with
    | nil => cases h
    | cons c cs =>
      rw [readWord?] at h
      split at h
      · next hreads =>
        obtain ⟨p, hread, -⟩ := Option.map_eq_some_iff.mp h
        have hlength := ih hword hread
        rw [List.takeWhile_cons, if_pos (isCaseLetter_of_readsAs hw hreads)]
        exact Nat.succ_le_succ hlength
      · cases h

/-- TRUE and FALSE begin with four letters. -/
theorem readTruth?_short (h : (cs.takeWhile isCaseLetter).length < 4) : readTruth? cs = none := by
  have hnone : ∀ word : List Char, word.all Char.isAlpha = true → 4 ≤ word.length →
      readWord? word cs = none := by
    intro word hword hlength
    cases hread : readWord? word cs with
    | none => rfl
    | some p =>
      have := length_le_of_readWord? hword hread
      omega
  unfold readTruth?
  rw [hnone _ rfl (by decide), hnone _ rfl (by decide)]
  rfl

theorem isAsciiDigit_of_isDigit {c : Char} (h : c.isDigit = true) : isAsciiDigit c = true := by
  unfold isAsciiDigit
  rw [Bool.and_eq_true, decide_eq_true_iff, decide_eq_true_iff]
  exact toNat_of_isDigit h

/-- Digits by themselves are no reference. -/
theorem readReference?_digits {ds : List Char} (hne : ds ≠ [])
    (hds : ∀ c ∈ ds, c.isDigit = true) (hrest : Free isWord rest) :
    readReference? (ds ++ rest) = none := by
  obtain ⟨d, ds, rfl⟩ := List.exists_cons_of_ne_nil hne
  have hd : isDigit d = true := by
    rw [isDigit, digitValue?_of_isDigit (hds d List.mem_cons_self)]
    rfl
  have hname : ∀ c ∈ d :: ds, isNameChar isCaseLetter c = true := by
    intro c hc
    simp [isNameChar, isAsciiDigit_of_isDigit (hds c hc)]
  have hstop : Free (isNameChar isCaseLetter) rest :=
    hrest.mono fun _ hx => isWord_of_isNameChar hx
  have hprefix : readPrefix? isCaseLetter (d :: ds ++ rest) = none := by
    unfold readPrefix?
    split
    · next heq =>
      cases heq
      exact absurd (hname '\x27' List.mem_cons_self) (by decide)
    · rw [takeWhile_run hname hstop, dropWhile_run hname hstop]
      split
      · cases hrest '!' rfl
      · rfl
  have hcell : readFreeCell? isCaseLetter (d :: ds ++ rest) = none := by
    have hmark : readMark (d :: ds ++ rest) = (false, d :: ds ++ rest) := by
      unfold readMark
      split
      · next heq =>
        cases heq
        cases hd
      · rfl
    have hletters : Free isCaseLetter (d :: ds ++ rest) :=
      free_cons (isCaseLetter_of_isDigit hd)
    unfold readFreeCell? readCell?
    rw [hmark]
    simp only [hletters.takeWhile]
    rfl
  rw [readReference?, readMention?, withSheet?, hprefix, hcell]
  rfl

end None

/-! ## 3. Pieces -/

section Pieces

variable {rest : List Char} {ts : List Token}

theorem CutInto.piece {kind : TokenKind} {text : List Char}
    (hread : readToken? (text ++ rest) = some (⟨kind, text⟩, rest)) (hkind : kind ≠ .blank)
    (h : CutInto rest ts) : CutInto (text ++ rest) (⟨kind, text⟩ :: ts) := by
  have hcons := h.cons hread
  rwa [if_pos hkind] at hcons

/-- Blanks are cut off and dropped. -/
theorem CutInto.blanks {gap : List Char} (hgap : ∀ c ∈ gap, isBlank c = true)
    (hrest : Free isBlank rest) (h : CutInto rest ts) : CutInto (gap ++ rest) ts := by
  by_cases hne : gap = []
  · rw [hne]
    exact h
  · have hread : readToken? (gap ++ rest) = some (⟨.blank, gap⟩, rest) := by
      have hblanks : readBlanks? (gap ++ rest) = some (gap, rest) := by
        rw [readBlanks?, takeWhile_run hgap hrest, dropWhile_run hgap hrest]
        exact if_neg hne
      simp only [readToken?, TokenKind.order, List.findSome?_cons, TokenKind.read?, hblanks,
        Option.map_some]
    exact h.cons hread

theorem readToken?_operator (op : Operator) (rest : List Char) :
    readToken? (op.symbol :: rest) = some (⟨.operator, [op.symbol]⟩, rest) := by
  cases op <;> rfl

theorem CutInto.operator (op : Operator) (h : CutInto rest ts) :
    CutInto (op.symbol :: rest) (⟨.operator, [op.symbol]⟩ :: ts) := by
  show CutInto ([op.symbol] ++ rest) _
  exact CutInto.piece (readToken?_operator op rest) (by decide) h

theorem readToken?_mark {c : Char} (hc : isMarkChar c = true) (rest : List Char) :
    readToken? (c :: rest) = some (⟨.mark, [c]⟩, rest) := by
  have hnone : ∀ kind : TokenKind, kind ≠ .mark → kind.read? (c :: rest) = none :=
    fun kind hkind => TokenKind.read?_mark hkind hc rest
  have hsome : TokenKind.mark.read? (c :: rest) = some ([c], rest) := if_pos hc
  simp [readToken?, TokenKind.order, hnone, hsome]

theorem CutInto.mark {c : Char} (hc : isMarkChar c = true) (h : CutInto rest ts) :
    CutInto (c :: rest) (⟨.mark, [c]⟩ :: ts) := by
  show CutInto ([c] ++ rest) _
  exact CutInto.piece (readToken?_mark hc rest) (by decide) h

theorem readTextTail?_doubled (hrest : Free (· == '"') rest) (cs : List Char) :
    readTextTail? (doubled cs ++ '"' :: rest) = some (doubled cs ++ ['"'], rest) := by
  induction cs with
  | nil =>
    show readTextTail? ('"' :: rest) = some (['"'], rest)
    rw [readTextTail?, if_pos rfl]
    intro tail _ htail
    rw [show rest = '"' :: tail from htail] at hrest
    cases hrest '"' rfl
  | cons c cs ih =>
    rw [doubled]
    split
    · next hc =>
      show readTextTail? ('"' :: '"' :: (doubled cs ++ '"' :: rest)) = _
      rw [readTextTail?, ih]
      rfl
    · next hc =>
      show readTextTail? (c :: (doubled cs ++ '"' :: rest)) = _
      rw [readTextTail?, if_neg hc, ih]
      · rfl
      · intro tail hquote
        exact absurd hquote hc

theorem readText?_betweenQuotes (hrest : Free (· == '"') rest) (cs : List Char) :
    readText? (betweenQuotes cs ++ rest) = some (betweenQuotes cs, rest) := by
  have hbegin : betweenQuotes cs ++ rest = '"' :: (doubled cs ++ '"' :: rest) := by
    simp [betweenQuotes]
  rw [hbegin, readText?, readTextTail?_doubled hrest]
  rfl

theorem readToken?_betweenQuotes (hrest : Free (· == '"') rest) (cs : List Char) :
    readToken? (betweenQuotes cs ++ rest) = some (⟨.text, betweenQuotes cs⟩, rest) := by
  have hblanks : readBlanks? (betweenQuotes cs ++ rest) = none := readBlanks?_free (free_cons rfl)
  simp only [readToken?, TokenKind.order, List.findSome?_cons, TokenKind.read?, hblanks,
    readText?_betweenQuotes hrest cs, Option.map_none, Option.map_some]

/-- **A text between quotes is cut out as it stands**, where no quote follows. -/
theorem CutInto.text (cs : List Char) (hrest : Free (· == '"') rest) (h : CutInto rest ts) :
    CutInto (betweenQuotes cs ++ rest) (⟨.text, betweenQuotes cs⟩ :: ts) :=
  CutInto.piece (readToken?_betweenQuotes hrest cs) (by decide) h

/-- The word for a truth value. -/
def truthWord (b : Bool) : List Char :=
  if b then "TRUE".toList else "FALSE".toList

/-- A word that is read as a truth value and not as a name is cut out as it stands. -/
theorem CutInto.word {word : List Char} (hletters : ∀ c ∈ word, isCaseLetter c = true)
    (hname : readName? (word ++ rest) = none)
    (htruth : readTruth? (word ++ rest) = some (word, rest)) (h : CutInto rest ts) :
    CutInto (word ++ rest) (⟨.truth, word⟩ :: ts) := by
  have hfirst : ∀ {p : Char → Bool}, (∀ c, isCaseLetter c = true → p c = false) →
      Free p (word ++ rest) :=
    fun hp => Free.append (fun c hc => hp c (hletters c (List.mem_of_head? hc)))
      (readTruth?_text htruth).2
  have hblanks : readBlanks? (word ++ rest) = none :=
    readBlanks?_free (hfirst fun c hc =>
      isBlank_of_isWord (isWord_of_isNameChar (isNameChar_of_isCaseLetter hc)))
  have htext : readText? (word ++ rest) = none :=
    readText?_free (hfirst fun c hc => beq_eq_false_iff_ne.mpr (ne_of_isCaseLetter hc rfl))
  have hread : readToken? (word ++ rest) = some (⟨.truth, word⟩, rest) := by
    simp only [readToken?, TokenKind.order, List.findSome?_cons, TokenKind.read?, hblanks, htext,
      hname, htruth, Option.map_none, Option.map_some]
  exact CutInto.piece hread (by decide) h

theorem isWord_of_continuesWord {c : Char} (h : continuesWord c = true) : isWord c = true := by
  unfold continuesWord at h
  unfold isWord isNameChar
  simp only [Bool.or_eq_true, beq_iff_eq] at h ⊢
  tauto

theorem CutInto.truth (b : Bool) (hrest : Parted rest) (h : CutInto rest ts) :
    CutInto (truthWord b ++ rest) (⟨.truth, truthWord b⟩ :: ts) := by
  have hletters : ∀ c ∈ truthWord b, isCaseLetter c = true :=
    List.all_eq_true.mp (by cases b <;> decide)
  have htruth : readTruth? (truthWord b ++ rest) = some (truthWord b, rest) := by
    have hfound : (readWord? "TRUE".toList (truthWord b ++ rest)).or
        (readWord? "FALSE".toList (truthWord b ++ rest)) = some (truthWord b, rest) := by
      cases b <;> rfl
    have hends : rest.head?.any continuesWord = false :=
      any_head?_eq_false_iff.mpr (hrest.word.mono fun _ => isWord_of_continuesWord)
    unfold readTruth?
    rw [hfound]
    simp only [hends]
    rfl
  have hword : ∀ c ∈ truthWord b, isWord c = true := fun c hc =>
    isWord_of_isNameChar (isNameChar_of_isCaseLetter (hletters c hc))
  exact h.word hletters (readName?_word hword hrest) htruth

theorem CutInto.numeral (n : Nat) (hrest : Parted rest) (h : CutInto rest ts) :
    CutInto (n.repr.toList ++ rest) (⟨.numeral, n.repr.toList⟩ :: ts) := by
  have hdigits := all_isDigit_repr n
  have hword : ∀ c ∈ n.repr.toList, isWord c = true := fun c hc => isWord_of_isDigit (hdigits c hc)
  have hfirst : ∀ {p : Char → Bool}, (∀ c, isDigit c = true → p c = false) →
      Free p (n.repr.toList ++ rest) := by
    intro p hp
    exact Free.append (fun c hc => hp c (hdigits c (List.mem_of_head? hc))) (repr_ne_nil n)
  have hquote : ∀ c, isDigit c = true → (c == '"') = false := by
    intro c hc
    rw [beq_eq_false_iff_ne]
    rintro rfl
    cases hc
  have hblanks : readBlanks? (n.repr.toList ++ rest) = none :=
    readBlanks?_free (hfirst fun _ hc => isBlank_of_isDigit hc)
  have htext : readText? (n.repr.toList ++ rest) = none := readText?_free (hfirst hquote)
  have htruth : readTruth? (n.repr.toList ++ rest) = none := by
    refine readTruth?_short ?_
    rw [(hfirst fun _ hc => isCaseLetter_of_isDigit hc).takeWhile]
    decide
  have hreference : readReference? (n.repr.toList ++ rest) = none :=
    readReference?_digits (repr_ne_nil n) (fun _ hc => isDigit_of_mem_repr hc) hrest.word
  have hread : readToken? (n.repr.toList ++ rest) = some (⟨.numeral, n.repr.toList⟩, rest) := by
    simp only [readToken?, TokenKind.order, List.findSome?_cons, TokenKind.read?, hblanks, htext,
      readName?_word hword hrest, htruth, hreference, readNumeral?_repr hrest.word,
      Option.map_none, Option.map_some]
  exact CutInto.piece hread (by decide) h

/-- A function's name in capitals: a capital, and capitals, digits, low lines and points. -/
def IsFunctionName (cs : List Char) : Prop :=
  ∃ c name, cs = c :: name ∧ IsCapital c ∧
    ∀ x ∈ name, IsCapital x ∨ isAsciiDigit x = true ∨ x = '_' ∨ x = '.'

theorem CutInto.name {cs : List Char} (hname : IsFunctionName cs) (h : CutInto ('(' :: rest) ts) :
    CutInto (cs ++ '(' :: rest) (⟨.name, cs⟩ :: ts) := by
  obtain ⟨c, name, rfl, hc, hmore⟩ := hname
  have hletter : isCaseLetter c = true := isCaseLetter_of_isAlpha hc.isAlpha
  have hchars : ∀ x ∈ name, isNameChar isCaseLetter x = true := by
    intro x hx
    rcases hmore x hx with hx | hx | rfl | rfl
    · exact isNameChar_of_isCaseLetter (isCaseLetter_of_isAlpha hx.isAlpha)
    · simp [isNameChar, hx]
    · rfl
    · rfl
  have hstop : Free (isNameChar isCaseLetter) ('(' :: rest) := free_cons rfl
  have hparen : Free isBlank ('(' :: rest) := free_cons rfl
  have hquote : (c == '"') = false := beq_eq_false_iff_ne.mpr (ne_of_isCaseLetter hletter rfl)
  have hblanks : readBlanks? (c :: name ++ '(' :: rest) = none :=
    readBlanks?_free (free_cons (isBlank_of_isWord (isWord_of_isNameChar
      (isNameChar_of_isCaseLetter hletter))))
  have htext : readText? (c :: name ++ '(' :: rest) = none := readText?_free (free_cons hquote)
  have hfound : readName? (c :: name ++ '(' :: rest) = some (c :: name, '(' :: rest) := by
    show readName? (c :: (name ++ '(' :: rest)) = _
    rw [readName?]
    simp only [takeWhile_run hchars hstop, dropWhile_run hchars hstop, hparen.dropWhile]
    exact if_pos ⟨hletter, rfl⟩
  have hread : readToken? (c :: name ++ '(' :: rest) =
      some (⟨.name, c :: name⟩, '(' :: rest) := by
    simp only [readToken?, TokenKind.order, List.findSome?_cons, TokenKind.read?, hblanks, htext,
      hfound, Option.map_none, Option.map_some]
  exact CutInto.piece hread (by decide) h

theorem length_takeWhile_cell {c : CellSpelling} (h : c.Sound isCaseLetter) (rest : List Char) :
    ((c.text ++ rest).takeWhile isCaseLetter).length ≤ 3 := by
  have hfree : Free isCaseLetter (markText c.rowMark ++ c.digits ++ rest) := h.free_digits.1
  have htext : c.text ++ rest =
      markText c.columnMark ++ (c.letters ++ (markText c.rowMark ++ c.digits ++ rest)) := by
    simp [CellSpelling.text]
  rw [htext]
  cases c.columnMark with
  | true => exact Nat.zero_le 3
  | false =>
    show ((c.letters ++ _).takeWhile isCaseLetter).length ≤ 3
    rw [takeWhile_run h.letters hfree]
    exact h.letters_le

/-- Only with the bare name of a sheet does a reference begin with four letters. -/
theorem length_takeWhile_spelling {s : Spelling} (hs : s.Sound isCaseLetter)
    (hbare : ∀ name, s.sheet ≠ .bare name) (rest : List Char) :
    ((s.text ++ rest).takeWhile isCaseLetter).length < 4 := by
  cases hsheet : s.sheet with
  | bare name => exact absurd hsheet (hbare name)
  | quoted name =>
    rw [Spelling.text, hsheet]
    exact Nat.zero_lt_succ 3
  | absent =>
    have hcell : s.text = s.cell.text := by
      rw [Spelling.text, hsheet]
      rfl
    rw [hcell]
    exact Nat.lt_succ_of_le (length_takeWhile_cell hs.cell rest)

/-- **A reference is cut out as it stands** with its sheet and its dollar marks, unless it begins
    with TRUE or FALSE. -/
theorem CutInto.mention {s : Spelling} (hs : s.Sound isCaseLetter)
    (htruth : readTruth? (s.text ++ rest) = none) (hrest : Parted rest) (h : CutInto rest ts) :
    CutInto (s.text ++ rest) (⟨.reference, s.text⟩ :: ts) := by
  have hfound : readReference? (s.text ++ rest) = some (s.text, rest) := by
    rw [readReference?, readMention?_append hs hrest.joining]
    rfl
  obtain ⟨hblanks, htext, hname⟩ : readBlanks? (s.text ++ rest) = none ∧
      readText? (s.text ++ rest) = none ∧ readName? (s.text ++ rest) = none := by
    by_cases hapostrophe : s.text.head? = some '\x27'
    · -- no other piece begins with an apostrophe
      obtain ⟨cs, hcs⟩ := List.head?_eq_some_iff.mp hapostrophe
      rw [hcs]
      exact ⟨rfl, rfl, rfl⟩
    · have hword := hs.word hapostrophe
      have hne : s.text ≠ [] := by
        intro hnil
        simp only [Spelling.text, CellSpelling.text, List.append_eq_nil_iff] at hnil
        exact hs.cell.letters_ne hnil.2.1.2
      have hfirst : ∀ {p : Char → Bool}, (∀ c, isWord c = true → p c = false) →
          Free p (s.text ++ rest) :=
        fun hp => Free.append (fun c hc => hp c (hword c (List.mem_of_head? hc))) hne
      have hquote : ∀ c, isWord c = true → (c == '"') = false := by
        intro c hc
        rw [beq_eq_false_iff_ne]
        rintro rfl
        cases hc
      exact ⟨readBlanks?_free (hfirst fun _ hc => isBlank_of_isWord hc),
        readText?_free (hfirst hquote), readName?_word hword hrest⟩
  have hread : readToken? (s.text ++ rest) = some (⟨.reference, s.text⟩, rest) := by
    simp only [readToken?, TokenKind.order, List.findSome?_cons, TokenKind.read?, hblanks, htext,
      hname, htruth, hfound, Option.map_none, Option.map_some]
  exact CutInto.piece hread (by decide) h

/-- A reference without a sheet or with its sheet between apostrophes is cut out as it stands. -/
theorem CutInto.spelling {s : Spelling} (hs : s.Sound isCaseLetter)
    (hbare : ∀ name, s.sheet ≠ .bare name) (hrest : Parted rest) (h : CutInto rest ts) :
    CutInto (s.text ++ rest) (⟨.reference, s.text⟩ :: ts) :=
  h.mention hs (readTruth?_short (length_takeWhile_spelling hs hbare rest)) hrest

/-- The text of a writable address is cut out as it stands. -/
theorem CutInto.reference {a : Address} (ha : a.Writable) (hrest : Parted rest)
    (h : CutInto rest ts) :
    CutInto (a.spelling.text ++ rest) (⟨.reference, a.spelling.text⟩ :: ts) := by
  refine CutInto.spelling ha.sound_mono (fun name => ?_) hrest h
  unfold Address.spelling
  cases a.sheet <;> nofun

end Pieces

end Appraisal.Formula
