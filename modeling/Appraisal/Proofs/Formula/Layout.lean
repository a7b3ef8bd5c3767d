import Appraisal.Formula.Mention
import Appraisal.Proofs.Address.Spelled
import Appraisal.Proofs.Formula.Phrase

/-!
# How a formula is laid out

The text of a formula is its phrases with blanks between them. Where no reference has a double quote
in it, taking out the texts between quotes leaves all the others as they stand.

* `Read` — a token that some text begins with; `read?_plain` — what no piece has in it other than
  texts and references;
* `withoutTexts_lexemes` — **taking out the texts takes out the pieces that are texts**;
* `Laid` — phrases and a text that shows them; `laid_body` — **what is left of a formula shows its
  phrases**.
-/

namespace Appraisal.Formula

open Appraisal.Text

/-! ## 1. Pieces -/

/-- Some text begins with the token. -/
def Token.Read (t : Token) : Prop :=
  ∃ cs rest, t.kind.read? cs = some (t.text, rest)

theorem read?_of_readToken? {cs rest : List Char} {t : Token} (h : readToken? cs = some (t, rest)) :
    t.kind.read? cs = some (t.text, rest) := by
  obtain ⟨kind, -, hk⟩ := List.exists_of_findSome?_eq_some h
  obtain ⟨p, hp, heq⟩ := Option.map_eq_some_iff.mp hk
  cases heq
  exact hp

theorem lexemesFrom_read {position : Nat} {cs : List Char} {ts : List Token}
    (h : lexemesFrom position cs = .ok ts) : ∀ t ∈ ts, t.Read := by
  fun_induction lexemesFrom position cs generalizing ts with
  | case1 =>
    cases h
    exact fun t ht => absurd ht List.not_mem_nil
  | case2 => cases h
  | case3 position c cs' t rest hread ih =>
    obtain ⟨more, hmore, heq⟩ := exists_of_map_ok h
    subst heq
    exact List.forall_mem_cons.mpr ⟨⟨_, _, read?_of_readToken? hread⟩, ih hmore⟩

/-- The tokens of a text are read from it. -/
theorem tokens_read {cs : List Char} {ts : List Token} (h : tokens cs = .ok ts) :
    ∀ t ∈ ts, t.Read := by
  obtain ⟨us, hus, rfl⟩ := exists_of_map_ok h
  exact fun t ht => lexemesFrom_read hus t (List.mem_filter.mp ht).1

/-- The characters that set off texts, sheets and ranges. -/
def isFence (c : Char) : Bool :=
  c == '"' || c == '\x27' || c == ':'

/-- What holds of none of the three does not hold of a fence. -/
theorem isFence_eq_false {p : Char → Bool} (hquote : p '"' = false) (hsheet : p '\x27' = false)
    (hcolon : p ':' = false) {c : Char} (h : p c = true) : isFence c = false := by
  rw [Bool.eq_false_iff]
  intro hfence
  unfold isFence at hfence
  simp only [Bool.or_eq_true, beq_iff_eq] at hfence
  rcases hfence with (rfl | rfl) | rfl
  · exact Bool.false_ne_true (hquote.symm.trans h)
  · exact Bool.false_ne_true (hsheet.symm.trans h)
  · exact Bool.false_ne_true (hcolon.symm.trans h)

theorem isFence_of_isWord {c : Char} (h : isWord c = true) : isFence c = false :=
  isFence_eq_false rfl rfl rfl h

theorem isFence_of_isBlank {c : Char} (h : isBlank c = true) : isFence c = false :=
  isFence_eq_false rfl rfl rfl h

section Plain

variable {cs text rest : List Char}

theorem exists_of_readOne? {p : Char → Bool} (h : readOne? p cs = some (text, rest)) :
    ∃ c, text = [c] ∧ p c = true := by
  unfold readOne? at h
  split at h
  · cases h
  · next c ds =>
    split at h
    · next hc =>
      cases h
      exact ⟨c, rfl, hc⟩
    · cases h

theorem isBlank_of_readBlanks? (h : readBlanks? cs = some (text, rest)) :
    ∀ c ∈ text, isBlank c = true := by
  unfold readBlanks? at h
  simp only at h
  split at h
  · cases h
  · cases h
    exact fun c hc => of_mem_takeWhile hc

theorem readName?_plain (h : readName? cs = some (text, rest)) :
    ∀ c ∈ text, isWord c = true := by
  cases cs with
  | nil => cases h
  | cons c cs =>
    rw [readName?] at h
    split at h
    · next hname =>
      cases h
      intro x hx
      rcases List.mem_cons.mp hx with rfl | hx
      · exact isWord_of_isNameChar (isNameChar_of_isCaseLetter hname.1)
      · exact isWord_of_isNameChar (of_mem_takeWhile hx)
    · cases h

/-- What is read as a capital is a letter. -/
theorem isCaseLetter_of_readsAs {w c : Char} (hw : w.isAlpha = true) (h : readsAs w c = true) :
    isCaseLetter c = true := by
  unfold readsAs at h
  rcases (Bool.or_eq_true _ _).mp h with h | h
  · have hc : c.toUpper = w := eq_of_beq h
    exact isCaseLetter_of_isAlpha (isAlpha_of_toUpper (hc ▸ hw))
  · have hc : c = '\u017f' := eq_of_beq ((Bool.and_eq_true _ _).mp h).2
    rw [hc]
    rfl

theorem isCaseLetter_of_readWord? {word : List Char} (hword : word.all Char.isAlpha = true)
    (h : readWord? word cs = some (text, rest)) : ∀ c ∈ text, isCaseLetter c = true := by
  induction word generalizing cs text with
  | nil =>
    cases h
    exact fun c hc => absurd hc List.not_mem_nil
  | cons w word ih =>
    obtain ⟨hw, hword⟩ := (Bool.and_eq_true _ _).mp hword
    cases cs with
    | nil => cases h
    | cons c cs =>
      rw [readWord?] at h
      split at h
      · next hreads =>
        simp only [Option.map_eq_some_iff, Prod.exists, Prod.mk.injEq] at h
        obtain ⟨t, r, ht, rfl, rfl⟩ := h
        exact List.forall_mem_cons.mpr ⟨isCaseLetter_of_readsAs hw hreads, ih hword ht⟩
      · cases h

theorem isCaseLetter_of_readTruth? (h : readTruth? cs = some (text, rest)) :
    ∀ c ∈ text, isCaseLetter c = true := by
  unfold readTruth? at h
  split at h
  · next word after hread =>
    split at h
    · cases h
    · cases h
      rcases Option.or_eq_some_iff.mp hread with htrue | ⟨-, hfalse⟩
      · exact isCaseLetter_of_readWord? rfl htrue
      · exact isCaseLetter_of_readWord? rfl hfalse
  · cases h

theorem readTruth?_plain (h : readTruth? cs = some (text, rest)) :
    ∀ c ∈ text, isWord c = true :=
  fun c hc => isWord_of_isNameChar (isNameChar_of_isCaseLetter (isCaseLetter_of_readTruth? h c hc))

theorem readExponent_plain : ∀ c ∈ (readExponent cs).1, isFence c = false := by
  have hdigits : ∀ ds, ∀ c ∈ (readDigits ds).1, isFence c = false := fun ds c hc =>
    isFence_of_isWord (isWord_of_isDigit (of_mem_takeWhile hc))
  have hsign : ∀ ds, ∀ c ∈ (readSign ds).1, isFence c = false := by
    intro ds c hc
    unfold readSign at hc
    split at hc
    · rw [List.mem_singleton.mp hc]
      rfl
    · rw [List.mem_singleton.mp hc]
      rfl
    · cases hc
  intro c hc
  unfold readExponent at hc
  split at hc
  · cases hc
  · next d ds =>
    simp only at hc
    split at hc
    · next hletter =>
      rcases List.mem_cons.mp hc with rfl | hc
      · rcases hletter.1 with rfl | rfl <;> rfl
      · exact (List.mem_append.mp hc).elim (hsign _ c) (hdigits _ c)
    · cases hc

theorem readNumeral?_plain (h : readNumeral? cs = some (text, rest)) :
    ∀ c ∈ text, isFence c = false := by
  have hdigits : ∀ ds, ∀ c ∈ (readDigits ds).1, isFence c = false := fun ds c hc =>
    isFence_of_isWord (isWord_of_isDigit (of_mem_takeWhile hc))
  have hmantissa : ∀ {m : List Char × List Char}, readMantissa? cs = some m →
      ∀ c ∈ m.1, isFence c = false := by
    intro m hm
    unfold readMantissa? at hm
    simp only at hm
    split at hm
    · split at hm
      · cases hm
      · cases hm
        intro c hc
        rcases List.mem_append.mp hc with hc | hc
        · exact hdigits _ c hc
        · rcases List.mem_cons.mp hc with rfl | hc
          · rfl
          · exact hdigits _ c hc
    · split at hm
      · cases hm
      · cases hm
        exact hdigits _
  unfold readNumeral? at h
  obtain ⟨m, hm, heq⟩ := Option.map_eq_some_iff.mp h
  cases heq
  intro c hc
  exact (List.mem_append.mp hc).elim (hmantissa hm c) (readExponent_plain c)

/-- **No piece but a text, a reference and a mark has a quote, an apostrophe or a colon in it.** -/
theorem read?_plain {kind : TokenKind} (htext : kind ≠ .text) (href : kind ≠ .reference)
    (hmark : kind ≠ .mark) (h : kind.read? cs = some (text, rest)) :
    ∀ c ∈ text, isFence c = false := by
  cases kind with
  | text => exact absurd rfl htext
  | reference => exact absurd rfl href
  | mark => exact absurd rfl hmark
  | name => exact fun c hc => isFence_of_isWord (readName?_plain h c hc)
  | truth => exact fun c hc => isFence_of_isWord (readTruth?_plain h c hc)
  | numeral => exact readNumeral?_plain h
  | blank => exact fun c hc => isFence_of_isBlank (isBlank_of_readBlanks? h c hc)
  | operator =>
    obtain ⟨c, rfl, hc⟩ := exists_of_readOne? (p := isOperatorChar) h
    intro x hx
    rw [List.mem_singleton.mp hx]
    unfold isOperatorChar at hc
    simp only [Bool.or_eq_true, beq_iff_eq] at hc
    rcases hc with ((rfl | rfl) | rfl) | rfl <;> rfl

end Plain

/-! ## 2. Without texts -/

/-- What is left of a token where texts are taken out. -/
def Token.shown (t : Token) : List Char :=
  if t.kind = .text then [] else t.text

section WithoutTexts

variable {cs post : List Char}

/-- A text ends where it ended, whatever comes after, as long as no quote does. -/
theorem readTextTail?_append (hpost : '"' ∉ post) (cs : List Char) :
    readTextTail? (cs ++ post) = (readTextTail? cs).map fun p => (p.1, p.2 ++ post) := by
  have hnone : ∀ {post : List Char}, '"' ∉ post → readTextTail? post = none := by
    intro post hfree
    induction post with
    | nil => rfl
    | cons c post ih =>
      have hc : c ≠ '"' := fun heq => hfree (heq ▸ List.mem_cons_self)
      have ih := ih fun hmem => hfree (List.mem_cons_of_mem c hmem)
      rw [readTextTail?, if_neg hc, ih]
      · rfl
      · intro tail hquote
        exact absurd hquote hc
  fun_induction readTextTail? cs with
  | case1 => exact hnone hpost
  | case2 cs tail rest hread ih =>
    rw [hread] at ih
    show readTextTail? ('"' :: '"' :: (cs ++ post)) = _
    rw [readTextTail?, ih]
    rfl
  | case3 cs hread ih =>
    rw [hread] at ih
    show readTextTail? ('"' :: '"' :: (cs ++ post)) = _
    rw [readTextTail?, ih]
    rfl
  | case4 cs hnext =>
    show readTextTail? ('"' :: (cs ++ post)) = _
    rw [readTextTail?, if_pos rfl]
    · rfl
    · intro tail _ htail
      cases cs with
      | nil => exact hpost (by rw [show post = '"' :: tail from htail]; exact List.mem_cons_self)
      | cons c cs =>
        cases htail
        exact hnext cs rfl rfl
  | case5 c cs hnext hc ih =>
    show readTextTail? (c :: (cs ++ post)) = _
    rw [readTextTail?, if_neg hc, ih]
    · simp [Option.map_map, Function.comp_def]
    · intro tail hquote
      exact absurd hquote hc

theorem readText?_append (hpost : '"' ∉ post) {text rest : List Char}
    (h : readText? cs = some (text, rest)) :
    readText? (cs ++ post) = some (text, rest ++ post) := by
  unfold readText? at h
  split at h
  · next cs =>
    obtain ⟨⟨tail, after⟩, hread, heq⟩ := Option.map_eq_some_iff.mp h
    cases heq
    show readText? ('"' :: (cs ++ post)) = _
    rw [readText?, readTextTail?_append hpost, hread]
    rfl
  · cases h

theorem withoutTexts_cons {c : Char} (hc : c ≠ '"') (cs : List Char) :
    withoutTexts (c :: cs) = c :: withoutTexts cs := by
  have hnone : readText? (c :: cs) = none := by
    unfold readText?
    split
    · next heq =>
      cases heq
      exact absurd rfl hc
    · rfl
  rw [withoutTexts]
  split
  · next hsome =>
    rw [hnone] at hsome
    cases hsome
  · rfl

theorem withoutTexts_append {u : List Char} (hu : '"' ∉ u) (cs : List Char) :
    withoutTexts (u ++ cs) = u ++ withoutTexts cs := by
  induction u with
  | nil => rfl
  | cons c u ih =>
    have hc : c ≠ '"' := fun heq => hu (heq ▸ List.mem_cons_self)
    have ih := ih fun hmem => hu (List.mem_cons_of_mem c hmem)
    rw [List.cons_append, withoutTexts_cons hc, ih]
    rfl

theorem withoutTexts_text {text rest : List Char} (h : readText? cs = some (text, rest)) :
    withoutTexts cs = withoutTexts rest := by
  cases cs with
  | nil => cases h
  | cons c cs =>
    rw [withoutTexts]
    split
    · next hsome =>
      rw [h] at hsome
      cases hsome
      rfl
    · next hnone =>
      rw [h] at hnone
      cases hnone

/-- A piece at the start of a text is left as it stands, unless it is a text. -/
theorem withoutTexts_token {t : Token} {rest : List Char} (hpost : '"' ∉ post)
    (h : t.kind.read? cs = some (t.text, rest)) (href : t.kind = .reference → '"' ∉ t.text) :
    withoutTexts (cs ++ post) = t.shown ++ withoutTexts (rest ++ post) := by
  by_cases htext : t.kind = .text
  · rw [htext] at h
    rw [Token.shown, if_pos htext, withoutTexts_text (readText?_append hpost h)]
    rfl
  · have hquote : '"' ∉ t.text := by
      by_cases hreference : t.kind = .reference
      · exact href hreference
      intro hmem
      by_cases hmark : t.kind = .mark
      · rw [hmark] at h
        obtain ⟨c, hone, hc⟩ := exists_of_readOne? (p := isMarkChar) h
        rw [hone, List.mem_singleton] at hmem
        rw [← hmem] at hc
        cases hc
      · cases read?_plain htext hreference hmark h '"' hmem
    rw [Token.shown, if_neg htext, ← (TokenKind.read?_text h).1, List.append_assoc,
      withoutTexts_append hquote]

/-- **Taking out the texts takes out the pieces that are texts.** -/
theorem withoutTexts_lexemes {position : Nat} {ts : List Token} (hpost : '"' ∉ post)
    (h : lexemesFrom position cs = .ok ts)
    (href : ∀ t ∈ ts, t.kind = .reference → '"' ∉ t.text) :
    withoutTexts (cs ++ post) = ts.flatMap Token.shown ++ post := by
  fun_induction lexemesFrom position cs generalizing ts with
  | case1 =>
    cases h
    have hall := withoutTexts_append hpost []
    rw [List.append_nil] at hall
    rw [List.nil_append, hall, withoutTexts]
    simp
  | case2 => cases h
  | case3 position c cs' t rest hread ih =>
    obtain ⟨more, hmore, heq⟩ := exists_of_map_ok h
    subst heq
    obtain ⟨ht, hrefs⟩ := List.forall_mem_cons.mp href
    rw [withoutTexts_token hpost (read?_of_readToken? hread) ht, ih hmore hrefs, List.flatMap_cons,
      List.append_assoc]

end WithoutTexts

/-! ## 3. Laid out phrases -/

/-- A text that shows the phrases in their order. Blanks may stand before each token and at the
    end. -/
inductive Laid : List Phrase → List Char → Prop where
  /-- No phrase. -/
  | nil {blanks : List Char} (hblanks : ∀ c ∈ blanks, isBlank c = true) : Laid [] blanks
  /-- One token, and what comes after it. -/
  | one {t : Token} {ps : List Phrase} {blanks cs : List Char}
      (hblanks : ∀ c ∈ blanks, isBlank c = true) (ht : t.Read) (hcs : Laid ps cs) :
      Laid (.one t :: ps) (blanks ++ (t.shown ++ cs))
  /-- Two references about a colon, and what comes after them. -/
  | span {first last : Token} {ps : List Phrase} {blanks left right cs : List Char}
      (hblanks : ∀ c ∈ blanks, isBlank c = true) (hfirst : first.Read)
      (hleft : ∀ c ∈ left, isBlank c = true) (hright : ∀ c ∈ right, isBlank c = true)
      (hlast : last.Read) (hcs : Laid ps cs) :
      Laid (.span first last :: ps)
        (blanks ++ (first.shown ++ (left ++ ':' :: (right ++ (last.shown ++ cs)))))

/-- Pieces of blanks show blanks. -/
theorem isBlank_of_mem_shown {ts : List Token} (hread : ∀ t ∈ ts, t.Read)
    (hkind : ∀ t ∈ ts, ¬ decide (t.kind ≠ .blank) = true) :
    ∀ c ∈ ts.flatMap Token.shown, isBlank c = true := by
  intro c hc
  obtain ⟨t, ht, hc⟩ := List.mem_flatMap.mp hc
  have hblank : t.kind = .blank := by
    have ht := hkind t ht
    rwa [decide_eq_true_eq, not_not] at ht
  obtain ⟨cs, rest, h⟩ := hread t ht
  rw [hblank] at h
  rw [Token.shown, hblank, if_neg (by decide)] at hc
  exact isBlank_of_readBlanks? h c hc

/-- The pieces up to the first one that is not blank show blanks. -/
theorem exists_first_token {ts more : List Token} {t : Token} (hread : ∀ u ∈ ts, u.Read)
    (h : ts.filter (fun u => decide (u.kind ≠ .blank)) = t :: more) :
    ∃ (blanks : List Char) (rest : List Token),
      ts.flatMap Token.shown = blanks ++ (t.shown ++ rest.flatMap Token.shown) ∧
      (∀ c ∈ blanks, isBlank c = true) ∧ t.Read ∧ (∀ u ∈ rest, u.Read) ∧
      rest.filter (fun u => decide (u.kind ≠ .blank)) = more := by
  obtain ⟨before, rest, rfl, hbefore, -, hrest⟩ := List.filter_eq_cons_iff.mp h
  refine ⟨before.flatMap Token.shown, rest, by simp, ?_, hread t (by simp),
    fun u hu => hread u (by simp [hu]), hrest⟩
  exact isBlank_of_mem_shown (fun u hu => hread u (List.mem_append_left _ hu)) hbefore

theorem laid_lexemes {ps : List Phrase} {ts : List Token} {post : List Char}
    (hread : ∀ t ∈ ts, t.Read) (hpost : ∀ c ∈ post, isBlank c = true)
    (h : ts.filter (fun t => decide (t.kind ≠ .blank)) = ps.flatMap Phrase.tokens) :
    Laid ps (ts.flatMap Token.shown ++ post) := by
  induction ps generalizing ts with
  | nil =>
    have hblanks := isBlank_of_mem_shown hread (List.filter_eq_nil_iff.mp h)
    exact .nil fun c hc => (List.mem_append.mp hc).elim (hblanks c) (hpost c)
  | cons p ps ih =>
    cases p with
    | one t =>
      obtain ⟨blanks, rest, htext, hblanks, ht, hrest, hmore⟩ := exists_first_token hread h
      rw [htext, List.append_assoc, List.append_assoc]
      exact .one hblanks ht (ih hrest hmore)
    | span first last =>
      obtain ⟨blanks, ts₁, htext, hblanks, hfirst, hread₁, h₁⟩ := exists_first_token hread h
      obtain ⟨left, ts₂, htext₁, hleft, -, hread₂, h₂⟩ := exists_first_token hread₁ h₁
      obtain ⟨right, ts₃, htext₂, hright, hlast, hread₃, h₃⟩ := exists_first_token hread₂ h₂
      have hlaid := Laid.span hblanks hfirst hleft hright hlast (ih hread₃ h₃)
      rw [htext, htext₁, htext₂]
      simpa [Token.shown, colon] using hlaid

/-- What stands before the body of a formula is blank or an equals sign, what stands after it is
    blank. -/
theorem exists_body (cs : List Char) :
    ∃ front post, cs = front ++ (body cs ++ post) ∧ (∀ c ∈ front, isBlank c = true ∨ c = '=') ∧
      ∀ c ∈ post, isBlank c = true := by
  obtain ⟨left, right, hcs, hleft, hright⟩ := exists_strip cs
  unfold body
  split
  · next rest hstrip =>
    refine ⟨left ++ ['='], right, ?_, fun c hc => ?_, hright⟩
    · rw [hstrip] at hcs
      rw [hcs]
      simp
    · rcases List.mem_append.mp hc with hc | hc
      · exact Or.inl (hleft c hc)
      · exact Or.inr (List.mem_singleton.mp hc)
  · exact ⟨left, right, hcs, fun c hc => Or.inl (hleft c hc), hright⟩

/-- **What is left of a formula without its texts shows its phrases**, after blanks and an equals
    sign. -/
theorem laid_body {cs : List Char} {ts : List Token} {ps : List Phrase}
    (h : tokens (body cs) = .ok ts) (hps : ts = ps.flatMap Phrase.tokens)
    (href : ∀ t ∈ ts, t.kind = .reference → '"' ∉ t.text) :
    ∃ front rest, withoutTexts cs = front ++ rest ∧
      (∀ c ∈ front, isBlank c = true ∨ c = '=') ∧ Laid ps rest := by
  obtain ⟨front, post, hcs, hfront, hpost⟩ := exists_body cs
  obtain ⟨us, hus, hfilter⟩ := exists_of_map_ok h
  have hmem : ∀ t ∈ us, t.kind = .reference → '"' ∉ t.text := by
    intro t ht hkind
    refine href t ?_ hkind
    rw [← hfilter]
    exact List.mem_filter.mpr ⟨ht, by rw [hkind]; rfl⟩
  have hquote : ∀ {c : Char}, isBlank c = true → c ≠ '"' := by
    intro c hc heq
    rw [heq] at hc
    cases hc
  have hpostQuote : '"' ∉ post := fun hmem => hquote (hpost _ hmem) rfl
  have hfrontQuote : '"' ∉ front := by
    intro hmem
    rcases hfront _ hmem with hblank | hequals
    · exact hquote hblank rfl
    · cases hequals
  have hshown := withoutTexts_lexemes hpostQuote hus hmem
  refine ⟨front, us.flatMap Token.shown ++ post, ?_, hfront, ?_⟩
  · rw [← hshown, ← withoutTexts_append hfrontQuote, ← hcs]
  · exact laid_lexemes (lexemesFrom_read hus) hpost (hfilter.trans hps)

end Appraisal.Formula
