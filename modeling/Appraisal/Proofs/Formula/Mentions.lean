import Appraisal.Proofs.Address.Named
import Appraisal.Proofs.Formula.Layout
import Appraisal.Proofs.Formula.Scan

/-!
# The phrases that a scan finds

The scan of a formula's text comes to the end of each phrase in turn. Over a reference it finds the
reference, over a span the range, and a range nowhere else.

* `Phrase.cell?`, `Phrase.range?` — what a phrase mentions;
* `Phrase.Tidy` — the phrases that a scan reads as the parser does;
* `Scans` — what the scans find over one phrase; `Shows` — what they find over a text;
* `Laid.shows` — **the scans find what the phrases mention, each reference by itself outside the
  ranges**.
-/

namespace Appraisal.Formula

open Appraisal.Text

/-! ## 1. What a phrase mentions -/

/-- The spelling of a reference. -/
def Token.spelling? (t : Token) : Option Spelling :=
  if t.kind = .reference then (readMention? isCaseLetter t.text).map (·.1) else none

namespace Phrase

/-- The cell that the phrase mentions by itself. -/
def cell? : Phrase → Option Spelling
  | one t => t.spelling?
  | span _ _ => none

/-- The range that the phrase mentions. -/
def range? : Phrase → Option (SheetPrefix × CellSpelling × CellSpelling)
  | one _ => none
  | span first last =>
    first.spelling?.bind fun s => last.spelling?.map fun t => (s.sheet, s.cell, t.cell)

/-- The tokens of the phrase other than a colon can be read. -/
def Read : Phrase → Prop
  | one t => t.Read
  | span first last => first.Read ∧ last.Read

/-- A phrase that the scans of a formula's text read as the parser does: no sheet has a double quote
    or a colon in its name, a single cell has a plain row, the end of a range does not repeat the
    sheet, and a range without a sheet lies on one whose name has no apostrophe at its ends. -/
def Tidy (current : String) : Phrase → Prop
  | one t =>
    t.kind = .reference → '"' ∉ t.text ∧ ':' ∉ t.text ∧ ∀ s ∈ t.spelling?, s.cell.PlainRow
  | span first last =>
    '"' ∉ first.text ∧ ':' ∉ first.text ∧ '!' ∉ last.text ∧
      ('!' ∈ first.text ∨ trim (· == '\x27') current.toList = current.toList)

instance (current : String) : (p : Phrase) → Decidable (p.Tidy current)
  | one _ => inferInstanceAs (Decidable (_ → _))
  | span _ _ => inferInstanceAs (Decidable (_ ∧ _))

end Phrase

section Tokens

variable {t : Token}

/-- A reference that can be read has one sound spelling. -/
theorem exists_spelling (ht : t.Read) (hkind : t.kind = .reference) :
    ∃ s : Spelling, s.Sound isCaseLetter ∧ t.text = s.text ∧ t.spelling? = some s := by
  obtain ⟨cs, rest, hread⟩ := ht
  rw [hkind] at hread
  have hmention : readReference? cs = some (t.text, rest) := hread
  obtain ⟨⟨s, after⟩, hs, heq⟩ := Option.map_eq_some_iff.mp hmention
  have htext : s.text = t.text := (Prod.mk.inj heq).1
  have hsound : s.Sound isCaseLetter := readMention?_sound hs
  have hback := readMention?_append hsound free_nil
  rw [List.append_nil] at hback
  refine ⟨s, hsound, htext.symm, ?_⟩
  rw [Token.spelling?, if_pos hkind, ← htext, hback]
  rfl

theorem kind_of_rangeEnd? {a : Address} (h : rangeEnd? t = some a) : t.kind = .reference := by
  unfold rangeEnd? at h
  split at h
  · next hkind => exact hkind
  · cases h

/-- The end of a range is a reference to its address. -/
theorem exists_spelling_of_rangeEnd? {a : Address} (ht : t.Read) (h : rangeEnd? t = some a) :
    ∃ s : Spelling, s.Sound Char.isAlpha ∧ t.text = s.text ∧ t.spelling? = some s ∧
      Address.ofSpelling? s = some a := by
  have hkind := kind_of_rangeEnd? h
  obtain ⟨s, hs, htext, hspelling⟩ := exists_spelling ht hkind
  rw [rangeEnd?, if_pos hkind, htext] at h
  obtain ⟨halpha, haddress⟩ := Address.read?_text hs h
  exact ⟨s, halpha, htext, hspelling, haddress⟩

theorem shown_of_reference (hkind : t.kind = .reference) : t.shown = t.text := by
  rw [Token.shown, hkind, if_neg (by decide)]

theorem isWord_of_mark {c : Char} (h : (isOperatorChar c || isMarkChar c) = true) :
    isWord c = false := by
  simp only [isOperatorChar, isMarkChar, Bool.or_eq_true, beq_iff_eq] at h
  rcases h with (((rfl | rfl) | rfl) | rfl) | (((rfl | rfl) | rfl) | rfl) <;> rfl

/-- A mark is no reference. -/
theorem kind_of_isMarkText (ht : t.Read) (hmark : isMarkText t.text = true) :
    t.kind ≠ .reference := by
  intro hkind
  obtain ⟨c, htext, hc⟩ := exists_of_isMarkText hmark
  obtain ⟨s, hs, hspelled, -⟩ := exists_spelling ht hkind
  rw [htext] at hspelled
  have hquote : s.text.head? ≠ some '\x27' := by
    rw [← hspelled]
    intro heq
    cases heq
    cases hc
  have hword := hs.word hquote c (by rw [← hspelled]; exact List.mem_cons_self)
  rw [isWord_of_mark hc] at hword
  cases hword

/-- A mark other than a colon shows one character, which is of no word and sets nothing off. -/
theorem exists_mark (ht : t.Read) (hmark : isMarkText t.text = true) (hcolon : t ≠ colon) :
    ∃ c, t.shown = [c] ∧ isWord c = false ∧ isBlank c = false ∧ isFence c = false ∧
      (isJoining c = true → t.text = ['(']) := by
  obtain ⟨c, htext, hc⟩ := exists_of_isMarkText hmark
  obtain ⟨cs, rest, hread⟩ := ht
  have hquote : t.kind ≠ .text := by
    intro hkind
    rw [hkind] at hread
    have hreadText : readText? cs = some (t.text, rest) := hread
    unfold readText? at hreadText
    split at hreadText
    · obtain ⟨p, -, heq⟩ := Option.map_eq_some_iff.mp hreadText
      rw [Prod.mk.injEq, htext] at heq
      rw [← (List.cons.inj heq.1).1] at hc
      cases hc
    · cases hreadText
  have hne : c ≠ ':' := by
    intro heq
    rw [heq] at htext
    by_cases hmarkKind : t.kind = .mark
    · exact hcolon (show t = ⟨.mark, [':']⟩ by rw [← hmarkKind, ← htext])
    have hreference := kind_of_isMarkText ⟨cs, rest, hread⟩ hmark
    cases read?_plain hquote hreference hmarkKind hread ':' (by rw [htext]; simp)
  refine ⟨c, by rw [Token.shown, if_neg hquote, htext], isWord_of_mark hc, ?_⟩
  rw [htext]
  simp only [isOperatorChar, isMarkChar, Bool.or_eq_true, beq_iff_eq] at hc
  rcases hc with (((rfl | rfl) | rfl) | rfl) | (((rfl | rfl) | rfl) | rfl)
  all_goals first | exact absurd rfl hne | decide

/-- A token that is neither a mark nor a reference shows nothing that sets texts, sheets or ranges
    off. -/
theorem isFence_of_mem_shown (ht : t.Read) (hmark : isMarkText t.text = false)
    (hkind : t.kind ≠ .reference) : ∀ c ∈ t.shown, isFence c = false := by
  obtain ⟨cs, rest, hread⟩ := ht
  intro c hc
  by_cases htext : t.kind = .text
  · rw [Token.shown, if_pos htext] at hc
    cases hc
  rw [Token.shown, if_neg htext] at hc
  refine read?_plain htext hkind (fun hmarkKind => ?_) hread c hc
  rw [hmarkKind] at hread
  obtain ⟨d, hd, hdmark⟩ := exists_of_readOne? (p := isMarkChar) hread
  rw [hd, isMarkText, hdmark, Bool.or_true] at hmark
  cases hmark

end Tokens

/-- Two references about a colon, the second without a sheet: their spellings and their range. -/
structure Spanned (first last : Token) (s : Spelling) (c : CellSpelling) (r : CellRange) :
    Prop where
  first_text : first.text = s.text
  first_shown : first.shown = s.text
  first_sound : s.Sound Char.isAlpha
  last_text : last.text = c.text
  last_shown : last.shown = c.text
  last_sound : c.Sound Char.isAlpha
  range : (Phrase.span first last).range? = some (s.sheet, s.cell, c)
  corners : corners? first last = some r
  first_address : Address.ofSpelling? s = some r.first
  last_address : 1 ≤ digitsValue c.digits ∧ r.last.column = Column.number c.letters ∧
    r.last.row = digitsValue c.digits

theorem exists_spanned {first last : Token} (hwell : (Phrase.span first last).WellFormed)
    (hread : (Phrase.span first last).Read) (hmark : '!' ∉ last.text) :
    ∃ s c r, Spanned first last s c r := by
  obtain ⟨r, hr⟩ := Option.isSome_iff_exists.mp hwell
  obtain ⟨a, ha, hcorners⟩ := Option.bind_eq_some_iff.mp hr
  obtain ⟨b, hb, hrange⟩ := Option.bind_eq_some_iff.mp hcorners
  obtain ⟨s, hs, hfirst, hspelling, haddress⟩ := exists_spelling_of_rangeEnd? hread.1 ha
  obtain ⟨t, ht, hlast, hspelled, hended⟩ := exists_spelling_of_rangeEnd? hread.2 hb
  have hsheet : t.sheet = .absent := by
    cases hsheet : t.sheet with
    | absent => rfl
    | bare name | quoted name =>
      refine absurd ?_ hmark
      rw [hlast, Spelling.text, hsheet]
      simp [SheetPrefix.text]
  have htext : t.text = t.cell.text := by
    rw [Spelling.text, hsheet]
    rfl
  obtain ⟨hrow, -, hcolumn, hvalue⟩ := Address.ofSpelling?_eq_some hended
  have hends : r = ⟨a, { b with sheet := a.sheet }⟩ := by
    unfold CellRange.ofCorners? at hrange
    split at hrange
    · cases hrange
    · exact (Option.some.inj hrange).symm
  refine ⟨s, t.cell, r, hfirst, ?_, hs, hlast.trans htext, ?_, ht.cell, ?_, hr, ?_, ?_⟩
  · rw [shown_of_reference (kind_of_rangeEnd? ha), hfirst]
  · rw [shown_of_reference (kind_of_rangeEnd? hb), hlast, htext]
  · rw [Phrase.range?, hspelling, hspelled]
    rfl
  · rw [haddress, hends]
  · rw [hends]
    exact ⟨hrow, hcolumn, hvalue⟩

/-- No reference of a tidy phrase has a double quote in it. -/
theorem Phrase.Tidy.quote {current : String} {p : Phrase} (htidy : p.Tidy current)
    (hwell : p.WellFormed) (hread : p.Read) :
    ∀ t ∈ p.tokens, t.kind = .reference → '"' ∉ t.text := by
  intro t ht hkind
  cases p with
  | one u =>
    rw [Phrase.tokens, List.mem_singleton] at ht
    rw [ht] at hkind ⊢
    exact (htidy hkind).1
  | span first last =>
    simp only [Phrase.tokens, List.mem_cons, List.not_mem_nil, or_false] at ht
    rcases ht with rfl | rfl | rfl
    · exact htidy.1
    · cases hkind
    · obtain ⟨s, c, r, hr⟩ := exists_spanned hwell hread htidy.2.2.1
      rw [hr.last_text]
      intro hmem
      cases (hr.last_sound.mono.word _ hmem).1

/-! ## 2. What follows a phrase -/

section Following

variable {ps : List Phrase} {cs w : List Char}

/-- The text begins with no word, and with an opening parenthesis only if that is allowed. -/
structure Stops (opening : Bool) (cs : List Char) : Prop where
  word : Free isWord cs
  joining : opening = false → Free isJoining cs
  colon : NoColon cs

/-- A text whose first phrase is a mark, or that shows no phrase, stops what is in front of it. -/
theorem Laid.stops (h : Laid ps cs) (hwell : ∀ p ∈ ps, p.WellFormed) {opening : Bool}
    (hhead : ∀ p ∈ ps.head?, p.isMark = true ∧ (p.isOpening = true → opening = true)) :
    Stops opening cs := by
  cases h with
  | nil hblanks =>
    exact ⟨fun c hc => isWord_of_isBlank (hblanks c (List.mem_of_head? hc)),
      fun _ c hc => isJoining_of_isBlank (hblanks c (List.mem_of_head? hc)),
      noColon_of_blank hblanks⟩
  | span => cases (hhead _ rfl).1
  | @one t ps blanks rest hblanks ht hrest =>
    obtain ⟨hmark, hopening⟩ := hhead _ rfl
    obtain ⟨c, hshown, hword, hblank, hfence, hjoining⟩ :=
      exists_mark ht hmark (List.forall_mem_cons.mp hwell).1
    have hcolon : c ≠ ':' := fun heq => by
      rw [heq] at hfence
      cases hfence
    have hhead : ∀ d, (blanks ++ c :: rest).head? = some d → isBlank d = true ∨ d = c := by
      intro d hd
      cases blanks with
      | nil =>
        cases hd
        exact Or.inr rfl
      | cons b bs =>
        cases hd
        exact Or.inl (hblanks d List.mem_cons_self)
    rw [hshown, List.singleton_append]
    have hfree : Free isWord (blanks ++ c :: rest) := by
      intro d hd
      rcases hhead d hd with hd | rfl
      · exact isWord_of_isBlank hd
      · exact hword
    refine ⟨hfree, fun hclosed d hd => ?_, ?_⟩
    · rcases hhead d hd with hd | rfl
      · exact isJoining_of_isBlank hd
      · rw [Bool.eq_false_iff]
        intro hjoin
        rw [hopening (decide_eq_true (hjoining hjoin))] at hclosed
        cases hclosed
    · rw [NoColon, hfree.dropWhile, dropWhile_run hblanks (free_cons hblank)]
      exact free_cons (beq_eq_false_iff_ne.mpr hcolon)

/-- A reference without a colon keeps a text clear, whatever follows it. -/
theorem quoteClear_reference {s : Spelling} (hs : s.Sound isCaseLetter) (hcolon : ':' ∉ s.text)
    (hw : QuoteClear w) : QuoteClear (s.text ++ w) := by
  by_cases hquote : s.text.head? = some '\x27'
  · cases hsheet : s.sheet with
    | quoted name =>
      have hsound := hs.sheet
      rw [hsheet] at hsound
      have htext : s.text ++ w = '\x27' :: (name ++ '\x27' :: '!' :: (s.cell.text ++ w)) := by
        rw [Spelling.text, hsheet]
        simp [SheetPrefix.text]
      intro front after heq hfront
      cases front with
      | cons d ds =>
        rw [htext] at heq
        have hd : '\x27' = d := (List.cons.inj heq).1
        exact absurd (by rw [← hd]; exact List.mem_cons_self) hfront
      | nil =>
        -- the name of the sheet begins with an exclamation mark
        rw [htext] at heq
        obtain ⟨n, ns, rfl⟩ := List.exists_cons_of_ne_nil hsound.1
        cases heq
        refine (noColon_cons_other rfl rfl (by decide)).append fun hmem => hcolon ?_
        rw [Spelling.text, hsheet]
        simp [SheetPrefix.text, hmem]
    | absent =>
      exact absurd rfl (hs.cell.word '\x27'
        (List.mem_of_head? (by rwa [Spelling.text, hsheet] at hquote))).2.2
    | bare name =>
      have hsound := hs.sheet
      rw [hsheet] at hsound
      obtain ⟨n, ns, rfl⟩ := List.exists_cons_of_ne_nil hsound.1
      have hword := hsound.word n List.mem_cons_self
      rw [Spelling.text, hsheet] at hquote
      cases hquote
      cases hword
  · refine hw.append_free fun hmem => ?_
    cases hs.word hquote '\x27' hmem

/-- A text that shows tidy phrases is clear. -/
theorem Laid.quoteClear {current : String} (h : Laid ps cs) (hwell : ∀ p ∈ ps, p.WellFormed)
    (htidy : ∀ p ∈ ps, p.Tidy current) : QuoteClear cs := by
  have hblanksFree : ∀ {blanks : List Char}, (∀ c ∈ blanks, isBlank c = true) →
      '\x27' ∉ blanks := by
    intro blanks hblanks hmem
    cases hblanks _ hmem
  induction h with
  | nil hblanks => exact quoteClear_of_not_mem (hblanksFree hblanks)
  | @one t ps blanks rest hblanks ht hrest ih =>
    obtain ⟨hne, hwell⟩ := List.forall_mem_cons.mp hwell
    obtain ⟨hsafe, htidy⟩ := List.forall_mem_cons.mp htidy
    have ih := ih hwell htidy
    refine QuoteClear.append_free (hblanksFree hblanks) ?_
    by_cases hkind : t.kind = .reference
    · obtain ⟨s, hs, htext, -⟩ := exists_spelling ht hkind
      rw [shown_of_reference hkind, htext]
      exact quoteClear_reference hs (htext ▸ (hsafe hkind).2.1) ih
    refine ih.append_free fun hmem => ?_
    by_cases hmark : isMarkText t.text = true
    · obtain ⟨c, hshown, -, -, hfence, -⟩ := exists_mark ht hmark hne
      rw [hshown, List.mem_singleton] at hmem
      rw [← hmem] at hfence
      cases hfence
    · cases isFence_of_mem_shown ht (Bool.eq_false_iff.mpr hmark) hkind _ hmem
  | @span first last ps blanks left right rest hblanks hfirst hleft hright hlast hrest ih =>
    obtain ⟨hspan, hwell⟩ := List.forall_mem_cons.mp hwell
    obtain ⟨hsafe, htidy⟩ := List.forall_mem_cons.mp htidy
    obtain ⟨s, c, r, hr⟩ := exists_spanned hspan ⟨hfirst, hlast⟩ hsafe.2.2.1
    have hcell : '\x27' ∉ c.text := fun hmem => (hr.last_sound.mono.word _ hmem).2.2 rfl
    rw [hr.first_shown, hr.last_shown]
    refine QuoteClear.append_free (hblanksFree hblanks) (quoteClear_reference
      ⟨hr.first_sound.sheet.mono, hr.first_sound.cell.mono⟩ (hr.first_text ▸ hsafe.2.1) ?_)
    have hafter := ((ih hwell htidy).append_free hcell).append_free (hblanksFree hright)
    exact QuoteClear.append_free (hblanksFree hleft)
      (QuoteClear.append_free (u := [':']) (by decide) hafter)

end Following

/-! ## 3. What a scan finds over a phrase -/

/-- Over a piece of a text, wherever it stands, the scans find what the phrase mentions and come to
    its end. -/
structure Scans (p : Phrase) (u w : List Char) : Prop where
  ranges : ∀ n, ∃ here : List (Found (SheetPrefix × CellSpelling × CellSpelling)),
    findAll readRangeMention? 0 n (u ++ w) =
      here ++ findAll readRangeMention? 0 (n + u.length) w ∧
    here.map (·.item) = p.range?.toList ∧ ∀ r ∈ here, r.stop ≤ n + u.length
  cells : ∀ n, ∃ here : List (Found Spelling),
    findAll (readMention? isCaseLetter) 0 n (u ++ w) =
      here ++ findAll (readMention? isCaseLetter) 0 (n + u.length) w ∧
    ∀ s ∈ p.cell?, ∃ m ∈ here, m.item = s ∧ m.start < n + u.length

section Phrases

variable {p : Phrase} {t : Token} {u w : List Char}

/-- Inert characters may stand in front of a piece. -/
theorem Scans.after_inert {front : List Char} (hfront : ∀ c ∈ front, Inert c)
    (h : Scans p u w) : Scans p (front ++ u) w where
  ranges n := by
    obtain ⟨here, hhere, hitems, hstop⟩ := h.ranges (n + front.length)
    have hlength : n + front.length + u.length = n + (front ++ u).length := by
      rw [List.length_append, Nat.add_assoc]
    rw [hlength] at hhere hstop
    refine ⟨here, ?_, hitems, hstop⟩
    rw [List.append_assoc, findAll_pass (pass_inert readRangeMention?_none hfront), hhere]
  cells n := by
    obtain ⟨here, hhere, hcell⟩ := h.cells (n + front.length)
    have hlength : n + front.length + u.length = n + (front ++ u).length := by
      rw [List.length_append, Nat.add_assoc]
    rw [hlength] at hhere hcell
    refine ⟨here, ?_, hcell⟩
    rw [List.append_assoc, findAll_pass (pass_inert readMention?_none hfront), hhere]

/-- Over a mark, the scans find nothing. -/
theorem scans_mark (ht : t.Read) (hmark : isMarkText t.text = true) (hcolon : t ≠ colon) :
    Scans (.one t) t.shown w := by
  obtain ⟨c, hshown, hword, -, hfence, -⟩ := exists_mark ht hmark hcolon
  have hinert : ∀ d ∈ t.shown, Inert d := by
    intro d hd
    rw [hshown, List.mem_singleton] at hd
    rw [hd]
    refine ⟨hword, fun heq => ?_⟩
    rw [heq] at hfence
    cases hfence
  have hkind : t.spelling? = none := if_neg (kind_of_isMarkText ht hmark)
  refine ⟨fun n => ⟨[], ?_, rfl, fun r hr => absurd hr List.not_mem_nil⟩, fun n => ⟨[], ?_, ?_⟩⟩
  · exact findAll_pass (pass_inert readRangeMention?_none hinert)
  · exact findAll_pass (pass_inert readMention?_none hinert)
  · intro s hs
    rw [Phrase.cell?, hkind] at hs
    cases hs

/-- Over a token that is neither a mark nor a reference the scans may find cells, but no ranges. -/
theorem scans_plain (ht : t.Read) (hmark : isMarkText t.text = false) (hkind : t.kind ≠ .reference)
    (hstops : Stops true w) (hquote : QuoteClear w) : Scans (.one t) t.shown w := by
  have hfree := isFence_of_mem_shown ht hmark hkind
  have hcolon : ':' ∉ t.shown := fun hmem => by cases hfree _ hmem
  have hapostrophe : '\x27' ∉ t.shown := fun hmem => by cases hfree _ hmem
  constructor
  · intro n
    exact ⟨[], findAll_pass (readRangeMention?_pass hcolon hstops.colon hquote), rfl,
      fun r hr => absurd hr List.not_mem_nil⟩
  · intro n
    obtain ⟨here, hhere⟩ := findAll_within (n := n) (readMention?_within hapostrophe hstops.word)
      (Nat.zero_le _)
    refine ⟨here, hhere, fun s hs => ?_⟩
    rw [Phrase.cell?, Token.spelling?, if_neg hkind] at hs
    cases hs

/-- Over a reference by itself the scans find the reference. -/
theorem scans_reference (ht : t.Read) (hkind : t.kind = .reference) (hcolon : ':' ∉ t.text)
    (hstops : Stops false w) (hquote : QuoteClear w) : Scans (.one t) t.shown w := by
  obtain ⟨s, hs, htext, hspelling⟩ := exists_spelling ht hkind
  rw [shown_of_reference hkind]
  constructor
  · intro n
    exact ⟨[], findAll_pass (readRangeMention?_pass hcolon hstops.colon hquote), rfl,
      fun r hr => absurd hr List.not_mem_nil⟩
  · intro n
    have hread := readMention?_append hs (hstops.joining rfl)
    have hne : s.text ≠ [] := readMention?_ne_nil hread
    rw [htext]
    refine ⟨[⟨n, n + s.text.length, s⟩], findAll_hit hne hread, fun u hu => ?_⟩
    rw [Phrase.cell?, hspelling] at hu
    cases hu
    refine ⟨_, List.mem_singleton_self _, rfl, ?_⟩
    have hpos := List.length_pos_iff.mpr hne
    show n < n + s.text.length
    omega

section Colon

variable {left right : List Char}

/-- A colon among blanks begins no mention. -/
theorem inert_of_mem_colon (hleft : ∀ c ∈ left, isBlank c = true)
    (hright : ∀ c ∈ right, isBlank c = true) : ∀ c ∈ left ++ ':' :: right, Inert c := by
  intro c hc
  rcases List.mem_append.mp hc with hc | hc
  · exact inert_of_blank (hleft c hc)
  · rcases List.mem_cons.mp hc with rfl | hc
    · exact ⟨rfl, by decide⟩
    · exact inert_of_blank (hright c hc)

/-- A colon, or a blank in front of it, goes on with no mention. -/
theorem free_joining_colon (hleft : ∀ c ∈ left, isBlank c = true) (rest : List Char) :
    Free isJoining (left ++ ':' :: rest) := by
  cases left with
  | nil => exact free_cons rfl
  | cons b bs => exact free_cons (isJoining_of_isBlank (hleft b List.mem_cons_self))

end Colon

/-- Over two references about a colon the scans find the range, and no cell by itself is asked
    for. -/
theorem scans_span {first last : Token} {left right : List Char} {s : Spelling} {c : CellSpelling}
    {r : CellRange} (hspan : Spanned first last s c r) (hleft : ∀ c ∈ left, isBlank c = true)
    (hright : ∀ c ∈ right, isBlank c = true) (hstops : Stops false w) :
    Scans (.span first last) (first.shown ++ (left ++ ':' :: (right ++ last.shown))) w := by
  have hs : s.Sound isCaseLetter := ⟨hspan.first_sound.sheet.mono, hspan.first_sound.cell.mono⟩
  have hc : (Spelling.mk .absent c).Sound isCaseLetter := ⟨trivial, hspan.last_sound.mono⟩
  have hjoining := hstops.joining rfl
  have hne : s.text ≠ [] := readMention?_ne_nil (readMention?_append hs free_nil)
  rw [hspan.first_shown, hspan.last_shown]
  constructor
  · intro n
    have hread := readRangeMention?_append hs.sheet hs.cell hspan.last_sound.mono hleft hright
      hjoining
    have htext : s.text ++ (left ++ ':' :: (right ++ c.text)) ++ w =
        s.sheet.text ++ (s.cell.text ++ (left ++ ':' :: (right ++ (c.text ++ w)))) := by
      simp [Spelling.text]
    rw [← htext] at hread
    refine ⟨[_], findAll_hit (by simp [hne]) hread, ?_, fun m hm => ?_⟩
    · rw [hspan.range]
      rfl
    · rw [List.mem_singleton.mp hm]
  · intro n
    have hmiddle := inert_of_mem_colon hleft hright
    have hafter : Free isJoining ((left ++ ':' :: right) ++ (c.text ++ w)) := by
      rw [List.append_assoc, List.cons_append]
      exact free_joining_colon hleft _
    have hlast : readMention? isCaseLetter (c.text ++ w) = some (⟨.absent, c⟩, w) :=
      readMention?_append hc hjoining
    have hlastNe : c.text ≠ [] := readMention?_ne_nil hlast
    have htext : s.text ++ (left ++ ':' :: (right ++ c.text)) ++ w =
        s.text ++ ((left ++ ':' :: right) ++ (c.text ++ w)) := by
      simp
    let middle := n + s.text.length + (left ++ ':' :: right).length
    have hlength : middle + c.text.length =
        n + (s.text ++ (left ++ ':' :: (right ++ c.text))).length := by
      simp only [middle, List.length_append, List.length_cons]
      omega
    refine ⟨[⟨n, n + s.text.length, s⟩, ⟨middle, middle + c.text.length, ⟨.absent, c⟩⟩], ?_,
      fun u hu => by cases hu⟩
    rw [htext, findAll_hit hne (readMention?_append hs hafter),
      findAll_pass (pass_inert readMention?_none hmiddle), findAll_hit hlastNe hlast, ← hlength]
    rfl

end Phrases

/-! ## 4. What a scan finds in a text -/

/-- In a text, wherever it stands, the scans find the ranges that the phrases mention, and each cell
    that one mentions by itself outside the ranges. -/
structure Shows (ps : List Phrase) (cs : List Char) : Prop where
  ranges : ∀ n, (findAll readRangeMention? 0 n cs).map (·.item) = ps.filterMap Phrase.range?
  cells : ∀ n, ∀ p ∈ ps, ∀ s ∈ p.cell?, ∃ m ∈ findAll (readMention? isCaseLetter) 0 n cs,
    m.item = s ∧ ∀ r ∈ findAll readRangeMention? 0 n cs, ¬ (r.start ≤ m.start ∧ m.start < r.stop)

section Shows

variable {p : Phrase} {ps : List Phrase} {u w cs : List Char}

/-- Nothing is found in blanks. -/
theorem shows_nil (h : ∀ c ∈ cs, isBlank c = true) : Shows [] cs where
  ranges n := by
    have hpass := findAll_pass (n := n) (w := []) (pass_inert readRangeMention?_none
      fun c hc => inert_of_blank (h c hc))
    rw [List.append_nil] at hpass
    rw [hpass]
    rfl
  cells n p hp := absurd hp List.not_mem_nil

/-- **The scans go through a text phrase by phrase.** -/
theorem Shows.cons (hp : Scans p u w) (h : Shows ps w) : Shows (p :: ps) (u ++ w) where
  ranges n := by
    obtain ⟨here, hhere, hitems, -⟩ := hp.ranges n
    rw [hhere, List.map_append, hitems, h.ranges, List.filterMap_cons]
    cases p.range? <;> rfl
  cells n q hq s hs := by
    obtain ⟨spans, hspans, hitems, hstop⟩ := hp.ranges n
    obtain ⟨here, hhere, hcell⟩ := hp.cells n
    rw [hspans, hhere]
    rcases List.mem_cons.mp hq with rfl | hq
    · obtain ⟨m, hm, hitem, hstart⟩ := hcell s hs
      refine ⟨m, List.mem_append_left _ hm, hitem, fun r hr hcovers => ?_⟩
      rcases List.mem_append.mp hr with hr | hr
      · -- a phrase that mentions a cell by itself mentions no range
        have hnone : q.range? = none := by
          cases q with
          | one t => rfl
          | span first last => cases hs
        rw [hnone] at hitems
        rw [List.map_eq_nil_iff.mp hitems] at hr
        cases hr
      · have hle := le_start_of_mem_findAll hr
        omega
    · obtain ⟨m, hm, hitem, hoff⟩ := h.cells (n + u.length) q hq s hs
      refine ⟨m, List.mem_append_right _ hm, hitem, fun r hr hcovers => ?_⟩
      rcases List.mem_append.mp hr with hr | hr
      · have hle := le_start_of_mem_findAll hm
        have hend := hstop r hr
        omega
      · exact hoff r hr hcovers

/-- **The scans find what tidy phrases mention** in a text that shows them, as long as a mark stands
    between any two operands. -/
theorem Laid.shows {current : String} (h : Laid ps cs) (hchain : ps.IsChain Phrase.Follows)
    (hwell : ∀ p ∈ ps, p.WellFormed) (htidy : ∀ p ∈ ps, p.Tidy current) : Shows ps cs := by
  have hnext : ∀ {p : Phrase} {ps : List Phrase}, (p :: ps).IsChain Phrase.Follows →
      p.isMark = false →
      ∀ q ∈ ps.head?, q.isMark = true ∧ (q.isOpening = true → p.isName = true) := by
    intro p ps hchain hmark q hq
    rcases (List.isChain_cons.mp hchain).1 q hq with hp | hq
    · rw [hmark] at hp
      cases hp
    · exact hq
  induction h with
  | nil hblanks => exact shows_nil hblanks
  | @one t ps blanks rest hblanks ht hrest ih =>
    obtain ⟨hne, hwell⟩ := List.forall_mem_cons.mp hwell
    obtain ⟨hsafe, htidy⟩ := List.forall_mem_cons.mp htidy
    have hrests := ih (List.isChain_cons.mp hchain).2 hwell htidy
    have hquote := hrest.quoteClear hwell htidy
    rw [← List.append_assoc]
    refine Shows.cons (Scans.after_inert (fun c hc => inert_of_blank (hblanks c hc)) ?_) hrests
    cases hmark : isMarkText t.text with
    | true => exact scans_mark ht hmark hne
    | false =>
      by_cases hkind : t.kind = .reference
      · have hstops : Stops false rest := hrest.stops hwell fun q hq => by
          obtain ⟨hq, hopening⟩ := hnext hchain hmark q hq
          refine ⟨hq, fun hopen => ?_⟩
          have hname : t.kind = .name := of_decide_eq_true (hopening hopen)
          rw [hkind] at hname
          cases hname
        exact scans_reference ht hkind (hsafe hkind).2.1 hstops hquote
      · have hstops : Stops true rest := hrest.stops hwell fun q hq =>
          ⟨(hnext hchain hmark q hq).1, fun _ => rfl⟩
        exact scans_plain ht hmark hkind hstops hquote
  | @span first last ps blanks left right rest hblanks hfirst hleft hright hlast hrest ih =>
    obtain ⟨hspan, hwell⟩ := List.forall_mem_cons.mp hwell
    obtain ⟨hsafe, htidy⟩ := List.forall_mem_cons.mp htidy
    have hrests := ih (List.isChain_cons.mp hchain).2 hwell htidy
    obtain ⟨s, c, r, hr⟩ := exists_spanned hspan ⟨hfirst, hlast⟩ hsafe.2.2.1
    have hstops : Stops false rest := hrest.stops hwell fun q hq =>
      ⟨(hnext hchain rfl q hq).1, fun hopen => (hnext hchain rfl q hq).2 hopen⟩
    have hscans := (scans_span hr hleft hright hstops).after_inert fun c hc =>
      inert_of_blank (hblanks c hc)
    have hshows := Shows.cons hscans hrests
    have htext : blanks ++ (first.shown ++ (left ++ ':' :: (right ++ last.shown))) ++ rest =
        blanks ++ (first.shown ++ (left ++ ':' :: (right ++ (last.shown ++ rest)))) := by
      simp
    rwa [htext] at hshows

/-- Inert characters may stand in front of the phrases. -/
theorem Shows.after_inert {front : List Char}
    (hfront : ∀ c ∈ front, Inert c) (h : Shows ps cs) :
    Shows ps (front ++ cs) where
  ranges n := by
    rw [findAll_pass (pass_inert readRangeMention?_none hfront), h.ranges]
  cells n := by
    rw [findAll_pass (pass_inert readRangeMention?_none hfront),
      findAll_pass (pass_inert readMention?_none hfront)]
    exact h.cells _

end Shows

end Appraisal.Formula
