import Appraisal.Function.Library
import Appraisal.Proofs.Formula.Acceptance
import Appraisal.Proofs.Formula.Pieces

/-!
# Blanks between pieces

Blanks between the pieces of a formula do not matter, with one exception. The digits of a row are
digits of any script, and a reference that may not end where it ends gives some of them back; but
only the ASCII digits count as going on with it. So a piece of digits can stand right after a
reference, torn off its row, and with a blank behind it the row takes it back.

* `Widened` — pieces and a text that shows them, with more blanks between them and at its ends;
* `Torn`, `Untorn` — a reference and the digits torn off it; pieces among which there are none;
* `Lexed.cutInto_widened` — **untorn pieces are read from every text that shows them**, and
  `Lexed.untorn` — no others are;
* `CutInto.body` — the blanks at the ends and the equals sign do not matter;
* `tokens_widened` — **with more blanks a formula has the same tokens, and the same tree, exactly if
  nothing in it is torn**.
-/

namespace Appraisal.Formula

open Appraisal.Text

/-! ## 1. Texts with more blanks -/

/-- The text shows the pieces, with blanks put in between them or at either end. -/
inductive Widened : List Token → List Char → Prop where
  /-- Blanks at the end. -/
  | done {gap : List Char} (hgap : ∀ c ∈ gap, isBlank c = true) : Widened [] gap
  /-- A piece of blanks, with more blanks before, among or after its own. -/
  | blank {p : Token} {ps : List Token} {gap cs : List Char} (hp : p.kind = .blank)
      (hgap : ∀ c ∈ gap, isBlank c = true) (hsub : p.text.Sublist gap) (h : Widened ps cs) :
      Widened (p :: ps) (gap ++ cs)
  /-- Another piece, with blanks before it. -/
  | piece {p : Token} {ps : List Token} {gap cs : List Char} (hp : p.kind ≠ .blank)
      (hgap : ∀ c ∈ gap, isBlank c = true) (h : Widened ps cs) :
      Widened (p :: ps) (gap ++ (p.text ++ cs))

/-- A reference, and a piece that consists of digits alone. -/
def Torn (p q : Token) : Prop :=
  p.kind = .reference ∧ ∀ c ∈ q.text, isDigit c = true

instance (p q : Token) : Decidable (Torn p q) :=
  have : Decidable (∀ c ∈ q.text, isDigit c = true) :=
    List.decidableBAll (fun c => isDigit c = true) q.text
  inferInstanceAs (Decidable (_ ∧ _))

/-- No piece of digits stands right after a reference. -/
def Untorn (ps : List Token) : Prop :=
  ps.IsChain fun p q => ¬ Torn p q

instance (ps : List Token) : Decidable (Untorn ps) :=
  inferInstanceAs (Decidable (ps.IsChain _))

section Texts

variable {cs v w : List Char} {t : Token} {ts : List Token}

theorem forall_mem_nil_blank : ∀ c ∈ ([] : List Char), isBlank c = true :=
  fun _ hc => absurd hc List.not_mem_nil

theorem forall_mem_space_blank : ∀ c ∈ [' '], isBlank c = true :=
  List.all_eq_true.mp rfl

/-- More blanks in front. -/
theorem Widened.blanks {gap : List Char} (h : Widened ts w) (hgap : ∀ c ∈ gap, isBlank c = true) :
    Widened ts (gap ++ w) := by
  have hboth : ∀ {more : List Char}, (∀ c ∈ more, isBlank c = true) →
      ∀ c ∈ gap ++ more, isBlank c = true :=
    fun hmore c hc => (List.mem_append.mp hc).elim (hgap c) (hmore c)
  cases h with
  | done hmore => exact .done (hboth hmore)
  | blank hp hmore hsub h =>
    rw [← List.append_assoc]
    exact .blank hp (hboth hmore) (hsub.trans (List.sublist_append_right _ _)) h
  | piece hp hmore h =>
    rw [← List.append_assoc]
    exact .piece hp (hboth hmore) h

/-- A piece is not empty, and is blank if it begins with a blank. -/
theorem exists_head_piece (hread : readToken? cs = some (t, v)) :
    ∃ c x, t.text = c :: x ∧ (isBlank c = true → t.kind = .blank) := by
  obtain ⟨rfl, hne⟩ := readToken?_text hread
  obtain ⟨c, x, hx⟩ := List.exists_cons_of_ne_nil hne
  refine ⟨c, x, hx, fun hc => ?_⟩
  by_contra hkind
  have hown := read?_of_readToken? hread
  rw [hx, List.cons_append, TokenKind.read?_blank hkind hc] at hown
  cases hown

theorem isBlank_of_blank (hread : readToken? cs = some (t, v)) (hkind : t.kind = .blank) :
    ∀ c ∈ t.text, isBlank c = true := by
  have hown := read?_of_readToken? hread
  rw [hkind] at hown
  exact isBlank_of_readBlanks? hown

/-- A text shows its own pieces. -/
theorem Lexed.widened (h : Lexed cs ts) : Widened ts cs := by
  induction h with
  | nil => exact .done forall_mem_nil_blank
  | @cons cs rest t ts hread h ih =>
    rw [← (readToken?_text hread).1]
    by_cases hkind : t.kind = .blank
    · exact .blank hkind (isBlank_of_blank hread hkind) (List.Sublist.refl _) ih
    · exact @Widened.piece t ts [] rest hkind forall_mem_nil_blank ih

/-- Any two texts that show the same pieces go on alike up to a blank of the second. -/
theorem Lexed.loosened (h : Lexed v ts) (hw : Widened ts w) : Loosened v w := by
  induction h generalizing w with
  | nil =>
    cases hw with
    | done hgap =>
      refine .halts (fun c hc => hgap c (List.mem_of_head? hc)) ?_
      have hall := dropWhile_run hgap (free_nil (p := isBlank))
      rw [List.append_nil] at hall
      rw [hall]
      rfl
  | @cons v rest t ts hread h ih =>
    obtain ⟨hv, hne⟩ := readToken?_text hread
    subst hv
    cases hw with
    | @blank _ _ gap w hkind hgap hsub hw =>
      have hblank := isBlank_of_blank hread hkind
      have hgapne : gap ≠ [] := by
        rintro rfl
        exact hne (List.sublist_nil.mp hsub)
      refine .halts (halts_append hgap hgapne w) ?_
      rw [List.dropWhile_append_of_pos hgap, List.dropWhile_append_of_pos hblank]
      exact (ih hw).next
    | @piece _ _ gap w hkind hgap hw =>
      by_cases hgapne : gap = []
      · subst hgapne
        exact (ih hw).append t.text
      · obtain ⟨c, x, hx, hc⟩ := exists_head_piece hread
        have hfree : ∀ r, Free isBlank (t.text ++ r) := fun r => by
          rw [hx]
          exact free_cons (Bool.eq_false_iff.mpr fun hblank => hkind (hc hblank))
        refine .halts (halts_append hgap hgapne _) ?_
        rw [List.dropWhile_append_of_pos hgap, (hfree w).dropWhile, (hfree rest).dropWhile, hx]
        rfl

/-- Where no digits are torn off a reference, two texts that show the same pieces after it go on
    with the same row. -/
theorem Lexed.sameRow (h : Lexed v ts) (hw : Widened ts w) (hrow : ∀ q ∈ ts.head?, ¬ Torn t q)
    (hkind : t.kind = .reference) : Halts w ∨ SameRow v w := by
  cases h with
  | nil =>
    cases hw with
    | done hgap => exact Or.inl fun c hc => hgap c (List.mem_of_head? hc)
  | @cons v rest p ps hread h =>
    obtain ⟨hv, hne⟩ := readToken?_text hread
    subst hv
    cases hw with
    | @blank _ _ gap w _ hgap hsub hw =>
      refine Or.inl (halts_append hgap ?_ w)
      rintro rfl
      exact hne (List.sublist_nil.mp hsub)
    | @piece _ _ gap w _ hgap hw =>
      by_cases hgapne : gap = []
      · subst hgapne
        exact Or.inr (.append fun hdigits => absurd ⟨hkind, hdigits⟩ (hrow p rfl))
      · exact Or.inl (halts_append hgap hgapne _)

end Texts

/-! ## 2. Blanks in front and behind -/

section Ends

variable {cs rest gap : List Char} {t : Token} {ts : List Token}

/-- Blanks in front do not matter. -/
theorem cutInto_dropWhile : CutInto (cs.dropWhile isBlank) ts ↔ CutInto cs ts := by
  have hgap : ∀ c ∈ cs.takeWhile isBlank, isBlank c = true := fun c hc => of_mem_takeWhile hc
  constructor
  · intro h
    rw [← @List.takeWhile_append_dropWhile _ isBlank cs]
    exact h.blanks hgap (free_dropWhile isBlank cs)
  · intro h
    by_cases hnone : cs.takeWhile isBlank = []
    · have hcs := @List.takeWhile_append_dropWhile _ isBlank cs
      rw [hnone, List.nil_append] at hcs
      rwa [hcs]
    · have hread : readToken? cs = some (⟨.blank, cs.takeWhile isBlank⟩, cs.dropWhile isBlank) := by
        have hblanks : readBlanks? cs = some (cs.takeWhile isBlank, cs.dropWhile isBlank) :=
          if_neg hnone
        rw [readToken?, TokenKind.order, List.findSome?_cons, TokenKind.read?, hblanks]
        rfl
      obtain ⟨us, hus, rfl⟩ := cutInto_iff.mp h
      cases hus with
      | nil => exact absurd rfl hnone
      | cons hread' hus =>
        cases hread.symm.trans hread'
        exact cutInto_iff.mpr ⟨_, hus, rfl⟩

theorem cutInto_append (hgap : ∀ c ∈ gap, isBlank c = true) :
    CutInto (gap ++ cs) ts ↔ CutInto cs ts := by
  rw [← cutInto_dropWhile, List.dropWhile_append_of_pos hgap, cutInto_dropWhile]

/-- What follows a piece is cut into the pieces after it. -/
theorem CutInto.tail (hread : readToken? cs = some (t, rest)) (hkind : t.kind ≠ .blank)
    (h : CutInto cs (t :: ts)) : CutInto rest ts := by
  obtain ⟨us, hus, hfilter⟩ := cutInto_iff.mp h
  cases hus with
  | nil => cases hfilter
  | cons hread' hus =>
    cases hread.symm.trans hread'
    rw [List.filter_cons, if_pos (decide_eq_true hkind)] at hfilter
    exact cutInto_iff.mpr ⟨_, hus, (List.cons.inj hfilter).2⟩

theorem CutInto.head (hfree : Free isBlank cs) (h : CutInto cs (t :: ts)) :
    ∃ rest, readToken? cs = some (t, rest) := by
  obtain ⟨us, hus, hfilter⟩ := cutInto_iff.mp h
  cases hus with
  | nil => cases hfilter
  | @cons _ rest u us hread hus =>
    by_cases hkind : u.kind = .blank
    · obtain ⟨c, x, hx, -⟩ := exists_head_piece hread
      have hblank := isBlank_of_blank hread hkind
      rw [← (readToken?_text hread).1] at hfree
      rw [hx] at hfree hblank
      cases (hfree c rfl).symm.trans (hblank c List.mem_cons_self)
    · rw [List.filter_cons, if_pos (decide_eq_true hkind)] at hfilter
      obtain ⟨rfl, -⟩ := List.cons.inj hfilter
      exact ⟨rest, hread⟩

end Ends

/-! ## 3. Pieces and more blanks -/

section Pieces

variable {cs : List Char} {t : Token} {ts : List Token}

theorem untorn_cons : Untorn (t :: ts) ↔ (∀ q ∈ ts.head?, ¬ Torn t q) ∧ Untorn ts :=
  List.isChain_cons

/-- **Untorn pieces are read from every text that shows them.** -/
theorem Lexed.cutInto_widened {w : List Char} (h : Lexed cs ts) (huntorn : Untorn ts)
    (hw : Widened ts w) : CutInto w (ts.filter (·.kind ≠ .blank)) := by
  induction h generalizing w with
  | nil =>
    cases hw with
    | done hgap =>
      rw [← List.append_nil w, cutInto_append hgap]
      exact cutInto_nil
  | @cons cs rest t ts hread h ih =>
    obtain ⟨hcs, -⟩ := readToken?_text hread
    obtain ⟨hrow, huntorn⟩ := untorn_cons.mp huntorn
    cases hw with
    | blank hkind hgap hsub hw =>
      rw [List.filter_cons, if_neg (by simp [hkind]), cutInto_append hgap]
      exact ih huntorn hw
    | piece hkind hgap hw =>
      rw [← hcs] at hread
      have hread' := readToken?_loosened hread h hkind (h.loosened hw) (h.sameRow hw hrow)
      rw [List.filter_cons, if_pos (decide_eq_true hkind), cutInto_append hgap]
      exact .piece hread' hkind (ih huntorn hw)

/-- A reference takes the digits after it that a blank follows. -/
theorem readReference?_digits_blank {x v ds : List Char}
    (hread : readReference? (x ++ v) = some (x, v)) (hds : ∀ c ∈ ds, isDigit c = true)
    (rest : List Char) :
    readReference? (x ++ (ds ++ ' ' :: rest)) = some (x ++ ds, ' ' :: rest) := by
  obtain ⟨⟨s, r⟩, hs, heq⟩ := Option.map_eq_some_iff.mp hread
  obtain ⟨rfl, -⟩ := Prod.mk.inj heq
  have hsound := readMention?_sound hs
  have hmore : (⟨s.sheet, extended s.cell ds⟩ : Spelling).Sound isCaseLetter :=
    ⟨hsound.sheet, sound_extended hsound.cell hds⟩
  have htext : (⟨s.sheet, extended s.cell ds⟩ : Spelling).text = s.text ++ ds := by
    rw [Spelling.text, text_extended, Spelling.text, List.append_assoc]
  rw [← List.append_assoc, ← htext, readReference?,
    readMention?_append hmore (free_cons rfl)]
  rfl

/-- With a blank behind them, digits that were torn off a reference are the reference's again. -/
theorem Torn.not_cutInto {q : Token} {rest after : List Char} (htorn : Torn t q)
    (hread : readToken? (t.text ++ rest) = some (t, rest)) (hne : q.text ≠ []) :
    ¬ CutInto (t.text ++ (q.text ++ ' ' :: after)) (t :: ts) := by
  intro h
  have hfree : Free isBlank (t.text ++ (q.text ++ ' ' :: after)) := by
    obtain ⟨c, x, hx, hc⟩ := exists_head_piece hread
    rw [hx]
    refine free_cons (Bool.eq_false_iff.mpr fun hblank => ?_)
    cases htorn.1.symm.trans (hc hblank)
  obtain ⟨r, hread'⟩ := CutInto.head hfree h
  have hlong := read?_of_readToken? hread
  have hshort := read?_of_readToken? hread'
  rw [htorn.1] at hshort hlong
  have hboth := hshort.symm.trans (readReference?_digits_blank hlong htorn.2 after)
  have htext : t.text = t.text ++ q.text := (Prod.mk.inj (Option.some.inj hboth)).1
  exact hne (List.self_eq_append_right.mp htext)

/-- After a reference with digits torn off, some text that shows the pieces is read otherwise. -/
theorem Torn.exists_widened {q : Token} {rest : List Char} (htorn : Torn t q)
    (hread : readToken? (t.text ++ rest) = some (t, rest)) (h : Lexed rest (q :: ts)) :
    ∃ w, Widened (q :: ts) w ∧ ∀ us, ¬ CutInto (t.text ++ w) (t :: us) := by
  cases h with
  | @cons _ after _ _ hnext h =>
    obtain ⟨c, x, hx, -⟩ := exists_head_piece hnext
    have hsolid : q.kind ≠ .blank := fun hblank => by
      have hc : c ∈ q.text := by rw [hx]; exact List.mem_cons_self
      cases (isBlank_of_isDigit (htorn.2 c hc)).symm.trans (isBlank_of_blank hnext hblank c hc)
    refine ⟨q.text ++ ([' '] ++ after), @Widened.piece q ts [] _ hsolid forall_mem_nil_blank
      (h.widened.blanks forall_mem_space_blank), fun us => htorn.not_cutInto hread ?_⟩
    rw [hx]
    exact List.cons_ne_nil _ _

/-- **Pieces that are read from every text that shows them are untorn.** -/
theorem Lexed.untorn (h : Lexed cs ts)
    (hall : ∀ w, Widened ts w → CutInto w (ts.filter (·.kind ≠ .blank))) : Untorn ts := by
  induction h with
  | nil => exact .nil
  | @cons cs rest t ts hread h ih =>
    obtain ⟨rfl, -⟩ := readToken?_text hread
    by_cases hkind : t.kind = .blank
    · have hgap := isBlank_of_blank hread hkind
      rw [List.filter_cons, if_neg (by simp [hkind])] at hall
      refine untorn_cons.mpr ⟨fun q _ htorn => ?_, ih fun w hw => ?_⟩
      · cases hkind.symm.trans htorn.1
      · exact (cutInto_append hgap).mp (hall _ (.blank hkind hgap (List.Sublist.refl _) hw))
    have hshown : ∀ {w}, Widened ts w → Widened (t :: ts) (t.text ++ w) := fun hw =>
      @Widened.piece t ts [] _ hkind forall_mem_nil_blank hw
    rw [List.filter_cons, if_pos (decide_eq_true hkind)] at hall
    refine untorn_cons.mpr ⟨fun q hq htorn => ?_, ih fun w hw => ?_⟩
    · obtain ⟨us, rfl⟩ := List.head?_eq_some_iff.mp hq
      obtain ⟨w, hw, hnot⟩ := htorn.exists_widened hread h
      exact hnot _ (hall _ (hshown hw))
    · -- with a blank behind it the first piece is read alike, and the rest is read without it
      have hw' := hw.blanks forall_mem_space_blank
      have hread' : readToken? (t.text ++ ([' '] ++ w)) = some (t, [' '] ++ w) :=
        readToken?_loosened hread h hkind (h.loosened hw') fun _ =>
          Or.inl (halts_append forall_mem_space_blank (by decide) w)
      exact (cutInto_append forall_mem_space_blank).mp
        (CutInto.tail hread' hkind (hall _ (hshown hw')))

end Pieces

/-! ## 4. The body of a formula -/

section Body

variable {cs gap : List Char} {t : Token} {ts : List Token}

/-- No piece but blanks ends with a blank. -/
theorem isBlank_of_getLast? {rest : List Char} (hread : readToken? cs = some (t, rest))
    (hkind : t.kind ≠ .blank) : ∀ c, t.text.getLast? = some c → isBlank c = false := by
  have hown := read?_of_readToken? hread
  have htoken : t.Read := ⟨_, _, hown⟩
  have hcs := (readToken?_text hread).1
  obtain ⟨kind, text⟩ := t
  simp only at hkind hown hcs ⊢
  have hall : (∀ c ∈ text, isBlank c = false) →
      ∀ c, text.getLast? = some c → isBlank c = false :=
    fun h c hc => h c (List.mem_of_getLast? hc)
  cases kind with
  | blank => exact absurd rfl hkind
  | text =>
    obtain ⟨inside, hinside⟩ := htoken.exists_betweenQuotes rfl
    simp only at hinside
    intro c hc
    rw [hinside, betweenQuotes, ← List.cons_append, List.getLast?_concat] at hc
    cases hc
    rfl
  | name => exact hall fun c hc => isBlank_of_isWord (readName?_plain hown c hc)
  | truth => exact hall fun c hc => isBlank_of_isWord (readTruth?_plain hown c hc)
  | numeral =>
    obtain ⟨m, e, rfl, hm, he⟩ := exists_parts hown
    exact hall fun c hc => isBlank_of_isNumeralChar (isNumeralChar_of_mem hm he c hc)
  | reference =>
    obtain ⟨⟨s, r⟩, hs, heq⟩ := Option.map_eq_some_iff.mp hown
    obtain ⟨rfl, -⟩ := Prod.mk.inj heq
    have hcell := (readMention?_sound hs).cell
    intro c hc
    rw [Spelling.text, CellSpelling.text, ← List.append_assoc, ← List.append_assoc,
      List.getLast?_append_of_ne_nil _ hcell.digits_ne] at hc
    exact isBlank_of_isDigit (hcell.digits c (List.mem_of_getLast? hc))
  | operator | mark =>
    obtain ⟨d, rfl, -⟩ := exists_of_readOne? hown
    refine hall fun c hc => ?_
    rw [List.mem_singleton.mp hc, Bool.eq_false_iff]
    intro hblank
    rw [← hcs, List.singleton_append, TokenKind.read?_blank (by decide) hblank] at hown
    cases hown

/-- A piece that ends with a blank is blank. -/
theorem kind_of_ends_blank {x y rest : List Char} (hread : readToken? cs = some (t, rest))
    (htext : t.text = x ++ y) (hne : y ≠ []) (hy : ∀ c ∈ y, isBlank c = true) :
    t.kind = .blank := by
  have hend : t.text.getLast? = some (y.getLast hne) := by
    rw [htext, List.getLast?_append_of_ne_nil _ hne, List.getLast?_eq_getLast_of_ne_nil hne]
  by_contra hkind
  cases (isBlank_of_getLast? hread hkind _ hend).symm.trans (hy _ (List.getLast_mem hne))

/-- Blanks and the end of a text are alike to what comes before them. -/
theorem loosened_end (hgap : ∀ c ∈ gap, isBlank c = true) :
    Loosened gap [] ∧ SameRow gap [] := by
  have hfree : ∀ {p : Char → Bool}, (∀ c, isBlank c = true → p c = false) → Free p gap :=
    fun hp c hc => hp c (hgap c (List.mem_of_head? hc))
  have hdigit : Free isDigit gap := hfree fun _ => isDigit_of_isBlank
  have hname : Free (continuesName isCaseLetter) gap := hfree fun c hc => by
    rw [Bool.eq_false_iff]
    intro hmore
    cases (isJoining_of_isBlank hc).symm.trans (isJoining_of_continuesName hmore)
  have hall := dropWhile_run hgap (free_nil (p := isBlank))
  rw [List.append_nil] at hall
  refine ⟨.halts halts_nil ?_, ?_, ?_⟩
  · rw [hall]
    rfl
  · rw [hdigit.takeWhile]
    rfl
  · rw [hdigit.dropWhile, any_head?_eq_false_iff.mpr hname]
    rfl

/-- Blanks behind do not matter. -/
theorem Lexed.cutInto_of_append (h : Lexed (cs ++ gap) ts) (hgap : ∀ c ∈ gap, isBlank c = true) :
    CutInto cs (ts.filter (·.kind ≠ .blank)) := by
  generalize htext : cs ++ gap = text at h
  induction h generalizing cs gap with
  | nil =>
    rw [(List.append_eq_nil_iff.mp htext).1]
    exact cutInto_nil
  | @cons text rest t ts hread h ih =>
    obtain ⟨rfl, hne⟩ := readToken?_text hread
    by_cases hwithin : ∃ mid, cs = t.text ++ mid
    · obtain ⟨mid, rfl⟩ := hwithin
      rw [List.append_assoc, List.append_cancel_left_eq] at htext
      have hmid := ih hgap htext
      by_cases hkind : t.kind = .blank
      · rwa [List.filter_cons, if_neg (by simp [hkind]),
          cutInto_append (isBlank_of_blank hread hkind)]
      · obtain ⟨hloose, hrow⟩ := loosened_end hgap
        have hloose' := hloose.append mid
        have hrow' : SameRow (mid ++ gap) (mid ++ []) := .append fun _ => hrow
        rw [List.append_nil, htext] at hloose' hrow'
        rw [List.filter_cons, if_pos (decide_eq_true hkind)]
        exact .piece (readToken?_loosened hread h hkind hloose' fun _ => Or.inr hrow') hkind hmid
    · -- the piece goes beyond the text, so that it is blank, and so is all that is left
      obtain ⟨mid, hmid, rfl⟩ : ∃ mid, t.text = cs ++ mid ∧ gap = mid ++ rest := by
        rcases List.append_eq_append_iff.mp htext with hbeyond | ⟨mid, hmid, -⟩
        · exact hbeyond
        · exact absurd ⟨mid, hmid⟩ hwithin
      have hmidne : mid ≠ [] := fun hnil => hwithin ⟨[], by rw [hmid, hnil]; simp⟩
      have hkind : t.kind = .blank := kind_of_ends_blank hread hmid hmidne fun c hc =>
        hgap c (List.mem_append_left rest hc)
      have hcs : ∀ c ∈ cs, isBlank c = true := fun c hc =>
        isBlank_of_blank hread hkind c (by rw [hmid]; exact List.mem_append_left mid hc)
      rw [List.filter_cons, if_neg (by simp [hkind]), ← List.append_nil cs, cutInto_append hcs]
      exact ih (fun c hc => hgap c (List.mem_append_right mid hc)) rfl

/-- The blanks at the ends of a text do not matter. -/
theorem CutInto.strip (h : CutInto cs ts) : CutInto (strip cs) ts := by
  obtain ⟨left, right, hcs, hleft, hright⟩ := exists_strip cs
  rw [hcs, cutInto_append hleft] at h
  obtain ⟨us, hus, rfl⟩ := cutInto_iff.mp h
  exact hus.cutInto_of_append hright

theorem CutInto.not_equals (h : CutInto ('=' :: cs) ts) : False := by
  obtain ⟨us, hus, -⟩ := cutInto_iff.mp h
  cases hus with
  | cons hread =>
    have hnone : readToken? ('=' :: cs) = none := rfl
    cases hnone.symm.trans hread

/-- **Neither the blanks at the ends nor an equals sign in front matter.** -/
theorem CutInto.body {opening : List Char} (hopening : opening ∈ [[], ['=']])
    (h : CutInto cs ts) : CutInto (body (opening ++ cs)) ts := by
  rcases List.mem_pair.mp hopening with rfl | rfl
  · rw [List.nil_append]
    unfold Formula.body
    split
    · next heq =>
      have hstrip := h.strip
      rw [heq] at hstrip
      exact hstrip.not_equals.elim
    · exact h.strip
  · obtain ⟨left, right, hcs, hleft, hright⟩ := exists_strip (['='] ++ cs)
    have hequals : isBlank '=' = false := rfl
    cases left with
    | cons c left =>
      cases (List.cons.inj hcs).1
      cases hequals.symm.trans (hleft '=' List.mem_cons_self)
    | nil =>
      cases hstrip : Text.strip (['='] ++ cs) with
      | nil =>
        rw [hstrip] at hcs
        have hmem : '=' ∈ right := by
          rw [← show ['='] ++ cs = right from hcs]
          exact List.mem_cons_self
        cases hequals.symm.trans (hright '=' hmem)
      | cons c inner =>
        rw [hstrip] at hcs
        obtain ⟨rfl, rfl⟩ := List.cons.inj hcs
        unfold Formula.body
        rw [hstrip]
        obtain ⟨us, hus, rfl⟩ := cutInto_iff.mp h
        exact hus.cutInto_of_append hright

end Body

/-! ## 5. Formulas -/

/-- The tree, with the text for the text that it stores where it is beyond the grammar. -/
def Tree.restated (text : String) : Tree → Tree
  | .unsupported _ fault => .unsupported text fault
  | tree => tree

theorem Derives.restated {table : Signatures} {ts : List Token} {tree : Tree}
    (h : Derives table ts tree) (text : String) : tree.restated text = tree := by
  cases h <;> rfl

/-- **The tree of a formula depends on its tokens alone**, aside from the text that it stores. -/
theorem ofText_eq_restated {text other : String} {ts : List Token}
    (htext : tokens (body text.toList) = .ok ts) (hother : tokens (body other.toList) = .ok ts)
    (table : Signatures) :
    Tree.ofText table other = (Tree.ofText table text).restated other := by
  cases hparsed : formula? table ts with
  | ok tree =>
    rw [Tree.ofText_of_ok htext hparsed, Tree.ofText_of_ok hother hparsed,
      (derives_of_read (tokens_read htext) hparsed).restated]
  | error fault =>
    rw [Tree.ofText_of_error htext hparsed, Tree.ofText_of_error hother hparsed]
    rfl

/-- **Blanks between the pieces of a formula and at its ends do not matter if nothing in it is torn,
    and only then.** Where they do not matter for the tokens, they do not for the tree, with an
    equals sign in front or without one. -/
theorem tokens_widened {cs : List Char} {ps : List Token} (h : lexemes cs = .ok ps) :
    (Untorn ps ↔ ∀ w, Widened ps w → tokens w = tokens cs) ∧
      (Untorn ps → ∀ w, Widened ps w → ∀ table, ∀ opening ∈ [[], ['=']],
        Tree.ofText table (String.ofList (opening ++ w)) =
          (Tree.ofText table (String.ofList (opening ++ cs))).restated
            (String.ofList (opening ++ w))) := by
  have hlexed : Lexed cs ps := lexemesFrom_eq_ok_iff.mp h
  have hcs : CutInto cs (ps.filter (·.kind ≠ .blank)) := cutInto_iff.mpr ⟨ps, hlexed, rfl⟩
  refine ⟨⟨fun huntorn w hw => ?_, fun hall => ?_⟩, fun huntorn w hw table opening hopening => ?_⟩
  · rw [(hlexed.cutInto_widened huntorn hw).tokens_eq, hcs.tokens_eq]
  · refine hlexed.untorn fun w hw => ?_
    have htokens := hall w hw
    rw [hcs.tokens_eq] at htokens
    obtain ⟨us, hus, hfilter⟩ := exists_of_map_ok htokens
    exact cutInto_iff.mpr ⟨us, lexemesFrom_eq_ok_iff.mp hus, hfilter⟩
  · have hbody : ∀ {ds}, CutInto ds (ps.filter (·.kind ≠ .blank)) →
        tokens (body (String.ofList (opening ++ ds)).toList) =
          .ok (ps.filter (·.kind ≠ .blank)) := fun hds => by
      rw [String.toList_ofList, (hds.body hopening).tokens_eq]
    exact ofText_eq_restated (hbody hcs) (hbody (hlexed.cutInto_widened huntorn hw)) table

/-- The pieces of a product. -/
def productPieces : List Token :=
  [⟨.reference, "A1".toList⟩, ⟨.blank, [' ']⟩, ⟨.operator, ['*']⟩, ⟨.numeral, ['2']⟩]

/-- A product with a blank more at its operator on either side and at its end. -/
theorem tokens_widened_product :
    lexemes "A1 *2".toList = .ok productPieces ∧ Untorn productPieces ∧
      Widened productPieces "A1 \t* 2 ".toList ∧
      tokens "A1 \t* 2 ".toList = tokens "A1 *2".toList := by
  have hread : lexemes "A1 *2".toList = .ok productPieces := by decide +kernel
  have huntorn : Untorn productPieces := by decide
  have hwide : Widened productPieces
      ([] ++ ("A1".toList ++ ([' ', '\t'] ++ ([] ++ (['*'] ++ ([' '] ++ (['2'] ++ [' ']))))))) :=
    .piece (by decide) forall_mem_nil_blank (.blank rfl (List.all_eq_true.mp rfl) (by decide)
      (.piece (by decide) forall_mem_nil_blank
        (.piece (by decide) forall_mem_space_blank (.done forall_mem_space_blank))))
  exact ⟨hread, huntorn, hwide, (tokens_widened hread).1.mp huntorn _ hwide⟩

/-- The pieces of a reference, a digit that is torn off its row, and a call. -/
def tornPieces : List Token :=
  [⟨.reference, "A1".toList⟩, ⟨.numeral, ['\u0663']⟩, ⟨.name, "SUM".toList⟩, ⟨.mark, ['(']⟩,
    ⟨.reference, "B1".toList⟩, ⟨.mark, [')']⟩]

/-- A blank that changes what the pieces before it are: the row of a reference takes back the digit
    that stood by itself. -/
theorem tokens_torn :
    lexemes "A1\u0663SUM(B1)".toList = .ok tornPieces ∧
      Widened tornPieces "A1\u0663 SUM(B1)".toList ∧
      tokens "A1\u0663 SUM(B1)".toList ≠ tokens "A1\u0663SUM(B1)".toList ∧
      Tree.ofText Function.Library.standard.signatures "=A1\u0663SUM(B1)" =
        .unsupported "=A1\u0663SUM(B1)" (.trailing ['\u0663']) ∧
      Tree.ofText Function.Library.standard.signatures "=A1\u0663 SUM(B1)" =
        .unsupported "=A1\u0663 SUM(B1)" (.trailing "SUM".toList) := by
  have hwide : Widened tornPieces
      ([] ++ ("A1".toList ++ ([] ++ (['\u0663'] ++ ([' '] ++ ("SUM".toList ++ ([] ++ (['('] ++
        ([] ++ ("B1".toList ++ ([] ++ ([')'] ++ [])))))))))))) :=
    .piece (by decide) forall_mem_nil_blank (.piece (by decide) forall_mem_nil_blank
      (.piece (by decide) forall_mem_space_blank (.piece (by decide) forall_mem_nil_blank
        (.piece (by decide) forall_mem_nil_blank (.piece (by decide) forall_mem_nil_blank
          (.done forall_mem_nil_blank))))))
  exact ⟨by decide +kernel, hwide, by decide +kernel⟩

end Appraisal.Formula
