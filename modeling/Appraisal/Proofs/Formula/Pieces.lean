import Appraisal.Proofs.Formula.Lookahead
import Appraisal.Proofs.Formula.Scan

/-!
# Pieces before more blanks

A piece of a text that is cut into pieces is read alike where the text goes on with more blanks
after it. What the readers before its own do not take, they do not take then either.

* `Lexed` — a text and its pieces, one after the other;
* `Lexed.cell_of_mark` — **a name and an exclamation mark in such a text are a sheet**, with a cell
  after them, so that `Lexed.mention_of_loosened` no other sheet comes up with more blanks;
* `readReference?_loosened` — references are read alike where the row is the same;
* `readToken?_loosened` — **a piece is read alike before more blanks**.
-/

namespace Appraisal.Formula

open Appraisal.Text

/-! ## 1. Texts and their pieces -/

/-- The pieces are read from the text one after the other. -/
inductive Lexed : List Char → List Token → Prop where
  /-- Nothing is left. -/
  | nil : Lexed [] []
  /-- The first piece, and the pieces of the rest. -/
  | cons {cs rest : List Char} {t : Token} {ts : List Token}
      (hread : readToken? cs = some (t, rest)) (h : Lexed rest ts) : Lexed cs (t :: ts)

section Lexing

variable {cs rest : List Char} {t : Token} {ts : List Token}

theorem lexemesFrom_eq_ok_iff {position : Nat} :
    lexemesFrom position cs = .ok ts ↔ Lexed cs ts := by
  constructor
  · intro h
    fun_induction lexemesFrom position cs generalizing ts with
    | case1 =>
      cases h
      exact .nil
    | case2 => cases h
    | case3 position c cs t rest hread ih =>
      obtain ⟨us, hus, rfl⟩ := exists_of_map_ok h
      exact .cons hread (ih hus)
  · intro h
    induction h generalizing position with
    | nil => exact lexemesFrom_nil position
    | cons hread _ ih =>
      rw [lexemesFrom_of_readToken? hread, ih]
      rfl

theorem cutInto_iff : CutInto cs ts ↔ ∃ us, Lexed cs us ∧ us.filter (·.kind ≠ .blank) = ts := by
  constructor
  · intro h
    obtain ⟨us, hus, hfilter⟩ := exists_of_map_ok (h 0)
    exact ⟨us, lexemesFrom_eq_ok_iff.mp hus, hfilter⟩
  · rintro ⟨us, hus, rfl⟩ position
    rw [lexemesFrom_eq_ok_iff.mpr hus]
    rfl

/-- The readers that come before the one that takes the piece take nothing. -/
theorem read?_of_before (h : readToken? cs = some (t, rest)) {kind : TokenKind}
    (hkind : kind ∈ TokenKind.order.takeWhile (· ≠ t.kind)) : kind.read? cs = none := by
  obtain ⟨before, k, after, horder, hk, hbefore⟩ := List.findSome?_eq_some_iff.mp h
  obtain ⟨p, -, heq⟩ := Option.map_eq_some_iff.mp hk
  cases heq
  refine Option.map_eq_none_iff.mp (hbefore kind ?_)
  rw [horder, List.takeWhile_append] at hkind
  split at hkind
  · simpa using hkind
  · exact (List.takeWhile_prefix _).mem hkind

/-- What a reader takes is the first piece where those that come before it take nothing. -/
theorem readToken?_of_read? {kind : TokenKind} {text : List Char}
    (h : kind.read? cs = some (text, rest))
    (hbefore : ∀ k ∈ TokenKind.order.takeWhile (· ≠ kind), k.read? cs = none) :
    readToken? cs = some (⟨kind, text⟩, rest) := by
  obtain ⟨after, horder⟩ : ∃ after,
      TokenKind.order = TokenKind.order.takeWhile (· ≠ kind) ++ kind :: after := by
    cases kind <;> exact ⟨_, rfl⟩
  refine List.findSome?_eq_some_iff.mpr ⟨_, kind, after, horder, ?_, fun k hk => ?_⟩
  · rw [h]
    rfl
  · rw [hbefore k hk]
    rfl

/-- A blank begins no piece of another kind. -/
theorem TokenKind.read?_blank {kind : TokenKind} (hkind : kind ≠ .blank) {c : Char}
    (hc : isBlank c = true) (cs : List Char) : kind.read? (c :: cs) = none := by
  have hother : ∀ {d : Char}, isBlank d = false → c ≠ d := by
    rintro d hd rfl
    rw [hc] at hd
    cases hd
  have hletter : isCaseLetter c = false := by
    rw [Bool.eq_false_iff]
    intro hletter
    rw [isBlank_of_isWord (isWord_of_isNameChar (isNameChar_of_isCaseLetter hletter))] at hc
    cases hc
  cases kind with
  | blank => exact absurd rfl hkind
  | text => exact readText?_free (free_cons (beq_eq_false_iff_ne.mpr (hother rfl)))
  | name =>
    show readName? (c :: cs) = none
    rw [readName?, if_neg fun h => Bool.eq_false_iff.mp hletter h.1]
  | truth =>
    refine readTruth?_short ?_
    rw [(free_cons hletter).takeWhile]
    decide
  | reference =>
    show readReference? (c :: cs) = none
    rw [readReference?, readMention?_none (inert_of_blank hc)]
    rfl
  | numeral =>
    have hdigits : readDigits (c :: cs) = ([], c :: cs) := by
      rw [readDigits, (free_cons (isDigit_of_isBlank hc)).takeWhile,
        (free_cons (isDigit_of_isBlank hc)).dropWhile]
    show readNumeral? (c :: cs) = none
    rw [readNumeral?, readMantissa?, hdigits]
    simp only
    split
    · next heq =>
      cases heq
      exact absurd rfl (hother rfl)
    · rfl
  | operator | mark =>
    refine if_neg fun hmem => ?_
    simp only [isOperatorChar, isMarkChar, Bool.or_eq_true, beq_iff_eq] at hmem
    rcases hmem with ((rfl | rfl) | rfl) | rfl <;> cases hc

/-- A double quote begins no piece of another kind than a text. -/
theorem TokenKind.read?_quote {kind : TokenKind} (hkind : kind ≠ .text) (cs : List Char) :
    kind.read? ('"' :: cs) = none := by
  cases kind with
  | text => exact absurd rfl hkind
  | _ => rfl

/-- In a text that is cut into pieces, no quote follows a text between quotes. -/
theorem Lexed.free_quote {text : List Char} (hrest : Lexed rest ts)
    (hread : readText? (text ++ rest) = some (text, rest)) : Free (· == '"') rest := by
  intro c hc
  rw [beq_eq_false_iff_ne]
  rintro rfl
  obtain ⟨after, rfl⟩ := List.head?_eq_some_iff.mp hc
  have hnone : readTextTail? after = none := by
    unfold readText? at hread
    split at hread
    · obtain ⟨⟨tail, rest⟩, htail, heq⟩ := Option.map_eq_some_iff.mp hread
      cases heq
      exact readTextTail?_rest htail
    · cases hread
  cases hrest with
  | @cons _ _ t _ hnext _ =>
    have hkind := read?_of_readToken? hnext
    by_cases htext : t.kind = .text
    · rw [htext] at hkind
      change (readTextTail? after).map _ = _ at hkind
      rw [hnone] at hkind
      cases hkind
    · rw [TokenKind.read?_quote htext] at hkind
      cases hkind

end Lexing

/-! ## 2. References -/

section References

variable {x v w : List Char}

/-- A name and an exclamation mark have one reading. -/
theorem split_mark {name other after rest : List Char}
    (hname : ∀ c ∈ name, isNameChar isCaseLetter c = true)
    (hother : ∀ c ∈ other, isNameChar isCaseLetter c = true)
    (h : name ++ '!' :: after = other ++ '!' :: rest) : name = other ∧ after = rest := by
  have hstop : ∀ cs, Free (isNameChar isCaseLetter) ('!' :: cs) := fun _ => free_cons rfl
  have htake := congrArg (List.takeWhile (isNameChar isCaseLetter)) h
  rw [takeWhile_run hname (hstop _), takeWhile_run hother (hstop _)] at htake
  subst htake
  exact ⟨rfl, (List.cons.inj (List.append_cancel_left h)).2⟩

/-- Only a text and a reference may have an exclamation mark in them. -/
theorem mark_not_mem {kind : TokenKind} {cs text rest : List Char} (htext : kind ≠ .text)
    (href : kind ≠ .reference) (hread : kind.read? cs = some (text, rest)) : '!' ∉ text := by
  intro hmem
  cases kind with
  | text => exact absurd rfl htext
  | reference => exact absurd rfl href
  | blank => cases isBlank_of_readBlanks? hread '!' hmem
  | truth => cases isCaseLetter_of_readTruth? hread '!' hmem
  | name =>
    cases cs with
    | nil => cases hread
    | cons c cs =>
      change readName? (c :: cs) = _ at hread
      rw [readName?_cons] at hread
      split at hread
      · next hcall =>
        obtain ⟨rfl, -⟩ := Prod.mk.inj (Option.some.inj hread)
        rcases List.mem_cons.mp hmem with rfl | hmem
        · cases hcall.1
        · cases (of_mem_takeWhile hmem : isNameChar isCaseLetter '!' = true)
      · cases hread
  | numeral =>
    obtain ⟨m, e, rfl, hm, he⟩ := exists_parts hread
    cases isNumeralChar_of_mem hm he '!' hmem
  | operator | mark =>
    obtain ⟨c, rfl, hc⟩ := exists_of_readOne? hread
    cases List.mem_singleton.mp hmem
    cases hc

/-- **A name and an exclamation mark in a text that is cut into pieces are a sheet**, with a cell
    after them: no other piece has an exclamation mark behind characters of a name. -/
theorem Lexed.cell_of_mark {cs name after : List Char} {ts : List Token} (h : Lexed cs ts)
    (hname : ∀ c ∈ name, isNameChar isCaseLetter c = true) (hcs : cs = name ++ '!' :: after) :
    ∃ p, readFreeCell? isCaseLetter after = some p := by
  induction h generalizing name with
  | nil => cases name <;> cases hcs
  | @cons cs rest t ts hread h ih =>
    have hkind := read?_of_readToken? hread
    have htext : t.text ++ rest = name ++ '!' :: after := (readToken?_text hread).1.trans hcs
    rcases List.append_eq_append_iff.mp htext with ⟨mid, rfl, hrest⟩ | ⟨mid, hmid, hafter⟩
    · exact ih (fun c hc => hname c (List.mem_append_right _ hc)) hrest
    cases mid with
    | nil =>
      have hnil : ∀ c ∈ ([] : List Char), isNameChar isCaseLetter c = true :=
        fun c hc => absurd hc List.not_mem_nil
      exact ih hnil hafter.symm
    | cons d mid =>
      obtain ⟨rfl, rfl⟩ := List.cons.inj hafter
      have hmark : '!' ∈ t.text := by rw [hmid]; simp
      have hfirst : ∀ c, isNameChar isCaseLetter c = false → c ≠ '!' → t.text.head? ≠ some c := by
        intro c hc hne hhead
        rw [hmid] at hhead
        cases name with
        | nil => exact hne (Option.some.inj hhead).symm
        | cons e name =>
          cases hhead
          rw [hname c List.mem_cons_self] at hc
          cases hc
      by_cases hquoted : t.kind = .text
      · obtain ⟨inside, hinside⟩ := Token.Read.exists_betweenQuotes ⟨_, _, hkind⟩ hquoted
        exact absurd (by rw [hinside]; rfl) (hfirst '"' rfl (by decide))
      by_cases href : t.kind = .reference
      · rw [href] at hkind
        obtain ⟨⟨s, r⟩, hs, heq⟩ := Option.map_eq_some_iff.mp hkind
        obtain ⟨hst, rfl⟩ := Prod.mk.inj heq
        have hsound := readMention?_sound hs
        rw [← hst] at hmark hmid hfirst
        have hsheet := hsound.sheet
        cases hp : s.sheet with
        | absent =>
          rw [Spelling.text, hp] at hmark
          exact absurd rfl (hsound.cell.word '!' hmark).2.1
        | quoted quote =>
          refine absurd ?_ (hfirst '\x27' rfl (by decide))
          rw [Spelling.text, hp]
          rfl
        | bare sheet =>
          rw [hp] at hsheet
          have hboth : sheet ++ '!' :: s.cell.text = name ++ '!' :: mid := by
            rw [← hmid, Spelling.text, hp, SheetPrefix.text, List.append_assoc]
            rfl
          obtain ⟨-, rfl⟩ := split_mark hsheet.2 hname hboth
          exact ⟨_, readFreeCell?_of_readMention? hs⟩
      · exact absurd hmark (mark_not_mem hquoted href hkind)

/-- No sheet comes up that was not there: what is a name and an exclamation mark with more blanks is
    so without them, and a reference. -/
theorem Lexed.mention_of_loosened {ts : List Token} {name after : List Char}
    (hlexed : Lexed (x ++ v) ts) (h : Loosened v w) (hx : '!' ∉ x)
    (hname : name ≠ [] ∧ ∀ c ∈ name, isNameChar isCaseLetter c = true)
    (heq : name ++ '!' :: after = x ++ w) :
    ∃ s rest, readMention? isCaseLetter (x ++ v) = some (s, rest) ∧ s.sheet = .bare name := by
  obtain ⟨more, rfl, hw⟩ : ∃ more, name = x ++ more ∧ w = more ++ '!' :: after := by
    rcases List.append_eq_append_iff.mp heq with ⟨mid, rfl, hmid⟩ | ⟨mid, rfl, hmid⟩
    · cases mid with
      | nil => exact ⟨[], by simp, hmid.symm⟩
      | cons d mid =>
        obtain ⟨rfl, -⟩ := List.cons.inj hmid
        exact absurd (by simp) hx
    · exact ⟨mid, rfl, hmid⟩
  have hplain : ∀ c ∈ more ++ ['!'], isBlank c = false := by
    intro c hc
    rcases List.mem_append.mp hc with hc | hc
    · exact isBlank_of_isWord (isWord_of_isNameChar (hname.2 c (List.mem_append_right _ hc)))
    · rw [List.mem_singleton.mp hc]
      rfl
  obtain ⟨rest, rfl⟩ : ∃ rest, v = more ++ '!' :: rest := by
    have happend : w = (more ++ ['!']) ++ after := by rw [hw, List.append_assoc]; rfl
    obtain ⟨rest, hrest⟩ := (happend ▸ h).exists_append hplain (by simp)
    exact ⟨rest, by rw [hrest, List.append_assoc]; rfl⟩
  have hsplit : x ++ (more ++ '!' :: rest) = (x ++ more) ++ '!' :: rest :=
    (List.append_assoc _ _ _).symm
  rw [hsplit] at hlexed ⊢
  obtain ⟨⟨c, r⟩, hcell⟩ := hlexed.cell_of_mark hname.2 rfl
  have hprefix : readPrefix? isCaseLetter ((x ++ more) ++ '!' :: rest) =
      some (.bare (x ++ more), rest) := by
    have hsound : (SheetPrefix.bare (x ++ more)).Sound isCaseLetter := hname
    have hread := readPrefix?_append (fun _ hx => hx) hsound (by nofun) rest
    rwa [SheetPrefix.text, List.append_assoc] at hread
  refine ⟨⟨.bare (x ++ more), c⟩, r, ?_, rfl⟩
  rw [readMention?, withSheet?, hprefix, Option.bind_some, hcell]
  rfl

/-- A cell begins with a letter or a dollar mark. -/
theorem exists_head_cell {c : CellSpelling} (hc : c.Sound isCaseLetter) :
    ∃ d ds, c.text = d :: ds ∧ (d = '$' ∨ isCaseLetter d = true) := by
  obtain ⟨d, ds, hd⟩ := List.exists_cons_of_ne_nil hc.letters_ne
  rw [CellSpelling.text, hd]
  cases c.columnMark with
  | true => exact ⟨'$', _, rfl, Or.inl rfl⟩
  | false => exact ⟨d, _, rfl, Or.inr (hc.letters d (by rw [hd]; exact List.mem_cons_self))⟩

/-- **A reference is read alike** before more blanks, where the row is the same. -/
theorem readReference?_loosened {ts : List Token} (hlexed : Lexed (x ++ v) ts) (h : Loosened v w)
    (hrow : Halts w ∨ SameRow v w) (hread : readReference? (x ++ v) = some (x, v)) :
    readReference? (x ++ w) = some (x, w) := by
  obtain ⟨⟨s, r⟩, hs, heq⟩ := Option.map_eq_some_iff.mp hread
  obtain ⟨rfl, rfl⟩ := Prod.mk.inj heq
  have hsound := readMention?_sound hs
  have hcell := readFreeCell?_loosened hrow (readFreeCell?_of_readMention? hs)
  have hmention : readMention? isCaseLetter (s.text ++ w) = some (s, w) := by
    by_cases habsent : s.sheet = .absent
    · have htext : s.text = s.cell.text := by rw [Spelling.text, habsent]; rfl
      have hword := hsound.cell.word
      have hprefix : readPrefix? isCaseLetter (s.cell.text ++ w) = none := by
        cases hp : readPrefix? isCaseLetter (s.cell.text ++ w) with
        | none => rfl
        | some p =>
          obtain ⟨p, after⟩ := p
          have hpsound := readPrefix?_sound hp
          have hptext := readPrefix?_text hp
          cases p with
          | absent => exact absurd rfl (readPrefix?_ne_absent hp)
          | quoted name =>
            obtain ⟨c, cs, hc, -⟩ := exists_head_cell hsound.cell
            rw [hc] at hptext hword
            exact absurd (List.cons.inj hptext).1.symm (hword c List.mem_cons_self).2.2
          | bare name =>
            have hmark : '!' ∉ s.cell.text := fun hmem => (hword '!' hmem).2.1 rfl
            have hsplit : name ++ '!' :: after = s.cell.text ++ w := by
              rw [← hptext, SheetPrefix.text, List.append_assoc]
              rfl
            rw [htext] at hlexed hs
            obtain ⟨s', r, hs', hbare⟩ := hlexed.mention_of_loosened h hmark hpsound hsplit
            cases hs.symm.trans hs'
            cases habsent.symm.trans hbare
      rw [htext, readMention?, withSheet?, hprefix, hcell]
      show some (Spelling.mk SheetPrefix.absent s.cell, w) = _
      rw [← habsent]
    · rw [readMention?, withSheet?, Spelling.text, List.append_assoc,
        readPrefix?_append (fun _ hx => hx) hsound.sheet habsent]
      simp only [Option.bind_some, hcell, Option.map_some, Option.some_or]
  rw [readReference?, hmention]
  rfl

/-- Where a numeral comes first there is no reference, and none with more blanks. -/
theorem readReference?_none_loosened {ts : List Token} {m e : List Char} (hm : IsMantissa m)
    (he : IsExponent e) (hlexed : Lexed (m ++ e ++ v) ts) (h : Loosened v w)
    (hnone : readReference? (m ++ e ++ v) = none) : readReference? (m ++ e ++ w) = none := by
  cases hread : readReference? (m ++ e ++ w) with
  | none => rfl
  | some p =>
    obtain ⟨⟨s, r⟩, hs, -⟩ := Option.map_eq_some_iff.mp hread
    have hsound := readMention?_sound hs
    have hsheet := hsound.sheet
    have htext : s.text ++ r = m ++ e ++ w := readMention?_text hs
    have hmark : '!' ∉ m ++ e := fun hmem => by cases isNumeralChar_of_mem hm he '!' hmem
    obtain ⟨c, cs, hc, hfirst⟩ := hm.exists_head
    cases hp : s.sheet with
    | absent =>
      obtain ⟨d, ds, hd, hletter⟩ := exists_head_cell hsound.cell
      rw [Spelling.text, hp, hd, hc] at htext
      have hdc : d = c := (List.cons.inj htext).1
      rw [← hdc] at hfirst
      rcases hletter with rfl | hletter
      · rcases hfirst with hfirst | hfirst <;> cases hfirst
      · rcases hfirst with hfirst | rfl
        · cases (isDigit_of_isCaseLetter hletter).symm.trans hfirst
        · cases hletter
    | quoted name =>
      rw [Spelling.text, hp, hc] at htext
      have hquote : '\x27' = c := (List.cons.inj htext).1
      rw [← hquote] at hfirst
      rcases hfirst with hfirst | hfirst <;> cases hfirst
    | bare name =>
      rw [hp] at hsheet
      have hsplit : name ++ '!' :: (s.cell.text ++ r) = m ++ e ++ w := by
        rw [← htext, Spelling.text, hp, SheetPrefix.text]
        simp
      obtain ⟨s', r', hs', -⟩ := hlexed.mention_of_loosened h hmark hsheet hsplit
      rw [readReference?, hs'] at hnone
      cases hnone

end References

/-! ## 3. Pieces -/

section Pieces

variable {t : Token} {ts : List Token} {v w : List Char}

/-- The readers that come after those of blanks and texts and before another. -/
def wordsBefore (kind : TokenKind) : List TokenKind :=
  (TokenKind.order.drop 2).takeWhile (· ≠ kind)

/-- A piece that begins with neither a blank nor a quote is the first piece where the readers
    between those two and its own take nothing. -/
theorem readToken?_of_word {kind : TokenKind} {c : Char} {cs text rest : List Char}
    (hblank : isBlank c = false) (hquote : c ≠ '"')
    (hread : kind.read? (c :: cs) = some (text, rest))
    (hbefore : ∀ k ∈ wordsBefore kind, k.read? (c :: cs) = none) :
    readToken? (c :: cs) = some (⟨kind, text⟩, rest) := by
  have hsplit : ∀ k ∈ TokenKind.order.takeWhile (· ≠ kind),
      k = .blank ∨ k = .text ∨ k ∈ wordsBefore kind := by
    cases kind <;> decide
  refine readToken?_of_read? hread fun k hk => ?_
  rcases hsplit k hk with rfl | rfl | hk
  · exact readBlanks?_free (free_cons hblank)
  · exact readText?_free (free_cons (beq_eq_false_iff_ne.mpr hquote))
  · exact hbefore k hk

/-- What begins with a blank or a quote is a blank or a text. -/
theorem TokenKind.exists_head {kind : TokenKind} {text rest : List Char}
    (h : kind.read? (text ++ rest) = some (text, rest)) (hne : text ≠ []) (hblank : kind ≠ .blank)
    (htext : kind ≠ .text) : ∃ c cs, text = c :: cs ∧ isBlank c = false ∧ c ≠ '"' := by
  obtain ⟨c, cs, rfl⟩ := List.exists_cons_of_ne_nil hne
  refine ⟨c, cs, rfl, Bool.eq_false_iff.mpr fun hc => ?_, ?_⟩
  · rw [List.cons_append, read?_blank hblank hc] at h
    cases h
  · rintro rfl
    rw [List.cons_append, read?_quote htext] at h
    cases h

/-- A text between quotes is read alike before more blanks. -/
theorem readToken?_text_loosened {text : List Char} (hread : readText? (text ++ v) = some (text, v))
    (hts : Lexed v ts) (h : Loosened v w) :
    readToken? (text ++ w) = some (⟨.text, text⟩, w) := by
  obtain ⟨inside, hinside⟩ := Token.Read.exists_betweenQuotes (t := ⟨.text, text⟩) ⟨_, _, hread⟩ rfl
  simp only at hinside
  subst hinside
  have hquote : Free (· == '"') w := by
    refine h.free (fun c hc => beq_eq_false_iff_ne.mpr ?_) (hts.free_quote hread)
    rintro rfl
    cases hc
  exact readToken?_betweenQuotes hquote inside

/-- **A piece is read alike** from two texts that go on alike after it up to a blank of the
    second. -/
theorem readToken?_loosened (hread : readToken? (t.text ++ v) = some (t, v)) (hts : Lexed v ts)
    (hkind : t.kind ≠ .blank) (h : Loosened v w)
    (hrow : t.kind = .reference → Halts w ∨ SameRow v w) :
    readToken? (t.text ++ w) = some (t, w) := by
  obtain ⟨kind, text⟩ := t
  simp only at hread hkind hrow ⊢
  have hlexed : Lexed (text ++ v) _ := .cons hread hts
  have hown : kind.read? (text ++ v) = some (text, v) := read?_of_readToken? hread
  have hne : text ≠ [] := (readToken?_text hread).2
  have hbefore : ∀ k, k ∈ TokenKind.order.takeWhile (· ≠ kind) → k.read? (text ++ v) = none :=
    fun _ hk => read?_of_before hread hk
  have htoken : (⟨kind, text⟩ : Token).Read := ⟨_, _, hown⟩
  have hword : ∀ {k : TokenKind}, k.read? (text ++ w) = some (text, w) → kind ≠ .text →
      (∀ l ∈ wordsBefore k, l.read? (text ++ w) = none) →
        readToken? (text ++ w) = some (⟨k, text⟩, w) := by
    intro k hk htext hnone
    obtain ⟨c, cs, rfl, hblank, hquote⟩ := TokenKind.exists_head hown hne hkind htext
    exact readToken?_of_word hblank hquote hk hnone
  cases kind with
  | blank => exact absurd rfl hkind
  | text => exact readToken?_text_loosened hown hts h
  | operator =>
    obtain ⟨op, hop⟩ := htoken.exists_operator rfl
    rw [hop, show text = [op.symbol] from congrArg Token.text hop]
    exact readToken?_operator op w
  | mark =>
    obtain ⟨c, rfl, hc⟩ := exists_of_readOne? (p := isMarkChar) hown
    exact readToken?_mark hc w
  | name =>
    have hnone : ∀ k ∈ [], TokenKind.read? k (text ++ w) = none := List.forall_mem_nil _
    exact hword (readName?_loosened h hown) (by decide) hnone
  | truth =>
    have hname : readName? (text ++ w) = none :=
      readName?_none_loosened h hne (hbefore .name (by decide))
    have hnone : ∀ k ∈ [.name], TokenKind.read? k (text ++ w) = none :=
      List.forall_mem_singleton.mpr hname
    exact hword (readTruth?_loosened h hown) (by decide) hnone
  | reference =>
    obtain ⟨⟨s, r⟩, hs, heq⟩ := Option.map_eq_some_iff.mp hown
    obtain ⟨rfl, -⟩ := Prod.mk.inj heq
    have hname : readName? (s.text ++ w) = none :=
      readName?_none_loosened h hne (hbefore .name (by decide))
    have htruth : readTruth? (s.text ++ w) = none :=
      readTruth?_none_spelling (readMention?_sound hs) (hbefore .truth (by decide)) w
    have hnone : ∀ k ∈ [.name, .truth], TokenKind.read? k (s.text ++ w) = none :=
      List.forall_mem_cons.mpr ⟨hname, List.forall_mem_singleton.mpr htruth⟩
    exact hword (readReference?_loosened hlexed h (hrow rfl) hown) (by decide) hnone
  | numeral =>
    obtain ⟨m, e, rfl, hm, he⟩ := exists_parts hown
    have hname : readName? (m ++ e ++ w) = none :=
      readName?_none_loosened h hne (hbefore .name (by decide))
    have htruth : readTruth? (m ++ e ++ w) = none := by
      rw [List.append_assoc]
      exact readTruth?_none_mantissa hm (e ++ w)
    have hreference : readReference? (m ++ e ++ w) = none :=
      readReference?_none_loosened hm he hlexed h (hbefore .reference (by decide))
    have hnone : ∀ k ∈ [.name, .truth, .reference], TokenKind.read? k (m ++ e ++ w) = none :=
      List.forall_mem_cons.mpr ⟨hname, List.forall_mem_cons.mpr ⟨htruth,
        List.forall_mem_singleton.mpr hreference⟩⟩
    exact hword (readNumeral?_loosened h hown) (by decide) hnone

end Pieces

end Appraisal.Formula
