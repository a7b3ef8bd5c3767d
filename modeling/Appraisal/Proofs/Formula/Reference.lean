import Appraisal.Proofs.Formula.Rendering

/-!
# References as formulas

A reference with an equals sign in front is a formula, and its tree is the address that the
reference spells. There is one exception: a bare sheet may have a point in its name, and the words
TRUE and FALSE end at a point, so that a sheet whose name begins with one of them and a point is cut
in two.

* `OpensWithTruth` — a text that begins with such a word and a point;
* `readWord?_eq_some_iff`, `readTruth?_eq_some_iff` — the words that are read as truth values;
* `readTruth?_reference` — **a reference begins with a truth value only where it opens so**, and
  `cutInto_opensWithTruth` — then it is cut behind the word;
* `Tree.ofText_reference` — **a reference is read as its address unless it opens so**, and then not
  at all.
-/

namespace Appraisal.Formula

open Appraisal.Text

/-! ## 1. Words for truth values -/

section Words

variable {cs word text rest : List Char} {b : Bool}

/-- The text begins with TRUE or FALSE, in either case, and a point. -/
def OpensWithTruth (cs : List Char) : Prop :=
  (cs.take 5).map Char.toUpper = "TRUE.".toList ∨ (cs.take 6).map Char.toUpper = "FALSE.".toList

instance (cs : List Char) : Decidable (OpensWithTruth cs) :=
  inferInstanceAs (Decidable (_ ∨ _))

theorem eq_point_of_toUpper {c : Char} (h : c.toUpper = '.') : c = '.' := by
  by_cases halpha : c.isAlpha = true
  · have hcapital := isCapital_toUpper halpha
    rw [h] at hcapital
    exact absurd hcapital.1 (by decide)
  · exact (toUpper_of_not_isAlpha halpha).symm.trans h

theorem opensWithTruth_iff : OpensWithTruth cs ↔
    ∃ b word rest, cs = word ++ '.' :: rest ∧ word.map Char.toUpper = truthWord b := by
  constructor
  · have hsplit : ∀ (n : Nat) (b : Bool), (cs.take n).map Char.toUpper = truthWord b ++ ['.'] →
        ∃ b word rest, cs = word ++ '.' :: rest ∧ word.map Char.toUpper = truthWord b := by
      intro n b h
      obtain ⟨word, point, htake, hword, hpoint⟩ := List.map_eq_append_iff.mp h
      obtain ⟨c, hc, hupper⟩ := List.map_eq_singleton_iff.mp hpoint
      refine ⟨b, word, cs.drop n, ?_, hword⟩
      rw [hc, eq_point_of_toUpper hupper] at htake
      calc cs = cs.take n ++ cs.drop n := (List.take_append_drop n cs).symm
        _ = word ++ '.' :: cs.drop n := by rw [htake, List.append_assoc, List.singleton_append]
    rintro (h | h)
    · exact hsplit 5 true h
    · exact hsplit 6 false h
  · rintro ⟨b, word, rest, rfl, hword⟩
    have htake : ∀ n, word.length + 1 = n →
        ((word ++ '.' :: rest).take n).map Char.toUpper = truthWord b ++ ['.'] := by
      rintro n rfl
      rw [List.take_length_add_append, List.map_append, hword]
      rfl
    have hlength := congrArg List.length hword
    rw [List.length_map] at hlength
    cases b with
    | true => exact Or.inl (htake 5 (by rw [hlength]; rfl))
    | false => exact Or.inr (htake 6 (by rw [hlength]; rfl))

/-- The words for truth values consist of letters. -/
theorem isCaseLetter_of_truthWord (h : word.map Char.toUpper = truthWord b) :
    ∀ c ∈ word, isCaseLetter c = true := by
  intro c hc
  have halpha : ∀ b, ∀ w ∈ truthWord b, w.isAlpha = true := by
    intro b
    exact List.all_eq_true.mp (by cases b <;> decide)
  have hupper : c.toUpper ∈ truthWord b := h ▸ List.mem_map_of_mem hc
  refine isCaseLetter_of_readsAs (halpha b _ hupper) ?_
  rw [readsAs, beq_self_eq_true, Bool.true_or]

/-- Where there is no long s, a word is read by its capitals. -/
theorem readWord?_eq_some_iff (hs : '\u017f' ∉ cs) :
    readWord? word cs = some (text, rest) ↔ cs = text ++ rest ∧ text.map Char.toUpper = word := by
  induction word generalizing cs text with
  | nil =>
    rw [readWord?, Option.some.injEq, Prod.mk.injEq, List.map_eq_nil_iff]
    constructor
    · rintro ⟨rfl, rfl⟩
      exact ⟨rfl, rfl⟩
    · rintro ⟨rfl, rfl⟩
      exact ⟨rfl, rfl⟩
  | cons w word ih =>
    cases cs with
    | nil =>
      constructor
      · intro h
        cases h
      · rintro ⟨hnil, hword⟩
        rw [(List.append_eq_nil_iff.mp hnil.symm).1] at hword
        cases hword
    | cons c cs =>
      have hc : c ≠ '\u017f' := fun heq => hs (heq ▸ List.mem_cons_self)
      have hreads : readsAs w c = true ↔ c.toUpper = w := by
        rw [readsAs, beq_eq_false_iff_ne.mpr hc, Bool.and_false, Bool.or_false, beq_iff_eq]
      have ih : ∀ more, readWord? word cs = some (more, rest) ↔
          cs = more ++ rest ∧ more.map Char.toUpper = word :=
        fun more => ih fun hmem => hs (List.mem_cons_of_mem c hmem)
      rw [readWord?]
      constructor
      · intro h
        split at h
        · next hw =>
          obtain ⟨⟨more, rest'⟩, hread, heq⟩ := Option.map_eq_some_iff.mp h
          cases heq
          obtain ⟨rfl, rfl⟩ := (ih more).mp hread
          exact ⟨rfl, congrArg (· :: _) (hreads.mp hw)⟩
        · cases h
      · rintro ⟨hcs, hword⟩
        cases text with
        | nil => cases hword
        | cons d more =>
          cases hcs
          obtain ⟨hw, hmore⟩ := List.cons.inj hword
          rw [if_pos (hreads.mpr hw), (ih more).mpr ⟨rfl, hmore⟩]
          rfl

/-- A text begins with one of the two words at most. -/
theorem head?_of_truthWord (hcs : cs = text ++ rest) (h : text.map Char.toUpper = truthWord b) :
    cs.head?.map Char.toUpper = (truthWord b).head? := by
  cases text with
  | nil => cases b <;> cases h
  | cons c text =>
    rw [hcs, ← h]
    rfl

/-- Where there is no long s, a truth value is read by its capitals and by what ends it. -/
theorem readTruth?_eq_some_iff (hs : '\u017f' ∉ cs) : readTruth? cs = some (text, rest) ↔
    cs = text ++ rest ∧ (∃ b, text.map Char.toUpper = truthWord b) ∧
      rest.head?.any continuesWord = false := by
  have hword : ∀ text rest, (readWord? "TRUE".toList cs).or (readWord? "FALSE".toList cs) =
      some (text, rest) ↔ cs = text ++ rest ∧ ∃ b, text.map Char.toUpper = truthWord b := by
    intro text rest
    rw [Option.or_eq_some_iff, readWord?_eq_some_iff hs, readWord?_eq_some_iff hs]
    constructor
    · rintro (⟨hcs, h⟩ | ⟨-, hcs, h⟩)
      · exact ⟨hcs, true, h⟩
      · exact ⟨hcs, false, h⟩
    · rintro ⟨hcs, b, h⟩
      cases b with
      | true => exact Or.inl ⟨hcs, h⟩
      | false =>
        refine Or.inr ⟨?_, hcs, h⟩
        cases hread : readWord? "TRUE".toList cs with
        | none => rfl
        | some p =>
          obtain ⟨hcs', h'⟩ := (readWord?_eq_some_iff hs).mp hread
          have htrue : p.1.map Char.toUpper = truthWord true := h'
          cases (head?_of_truthWord hcs h).symm.trans (head?_of_truthWord hcs' htrue)
  unfold readTruth?
  cases hfound : (readWord? "TRUE".toList cs).or (readWord? "FALSE".toList cs) with
  | none =>
    refine ⟨nofun, fun ⟨hcs, h, _⟩ => ?_⟩
    cases hfound.symm.trans ((hword text rest).mpr ⟨hcs, h⟩)
  | some p =>
    obtain ⟨text', rest'⟩ := p
    obtain ⟨hcs', h'⟩ := (hword text' rest').mp hfound
    constructor
    · intro h
      simp only at h
      split at h
      · cases h
      · next hends =>
        cases h
        exact ⟨hcs', h', Bool.eq_false_iff.mpr hends⟩
    · rintro ⟨hcs, h, hends⟩
      cases hfound.symm.trans ((hword text rest).mpr ⟨hcs, h⟩)
      exact if_neg (Bool.eq_false_iff.mp hends)

end Words

/-! ## 2. References that open with one -/

section Spellings

variable {s : Spelling} {name word rest : List Char} {b : Bool}

theorem text_bare (hsheet : s.sheet = .bare name) : s.text = name ++ '!' :: s.cell.text := by
  rw [Spelling.text, hsheet, SheetPrefix.text, List.append_assoc, List.singleton_append]

/-- A reference with a bare sheet has no long s: its letters are ASCII letters. -/
theorem longS_not_mem (hs : s.Sound Char.isAlpha) (hsheet : s.sheet = .bare name) :
    '\u017f' ∉ s.text := by
  have hname := hs.sheet
  rw [hsheet] at hname
  have hmark : ∀ mark, '\u017f' ∉ markText mark := by decide
  have hdigit : isDigit '\u017f' = false := isDigit_of_isCaseLetter (by decide)
  rw [text_bare hsheet, CellSpelling.text]
  simp only [List.mem_append, List.mem_cons, not_or]
  exact ⟨fun h => absurd (hname.2 _ h) (by decide), by decide,
    ⟨hmark _, fun h => absurd (hs.cell.letters _ h) (by decide)⟩,
    hmark _, fun h => absurd (hs.cell.digits _ h) (Bool.eq_false_iff.mp hdigit)⟩

/-- The letters that a reference with a bare sheet begins with, its sheet begins with. -/
theorem exists_name_of_letters {cell : List Char} (hword : ∀ c ∈ word, isCaseLetter c = true)
    (h : name ++ '!' :: cell = word ++ rest) :
    ∃ more, name = word ++ more ∧ rest = more ++ '!' :: cell := by
  rcases List.append_eq_append_iff.mp h with ⟨mark, hmark, hcell⟩ | ⟨more, hname, hrest⟩
  · cases mark with
    | nil =>
      rw [List.append_nil] at hmark
      exact ⟨[], by rw [hmark, List.append_nil], hcell.symm⟩
    | cons c mark =>
      -- the mark behind the sheet is no letter
      obtain ⟨rfl, -⟩ := List.cons.inj hcell
      exact absurd (hword '!' (hmark ▸ List.mem_append_right name List.mem_cons_self)) (by decide)
  · exact ⟨more, hname, hrest⟩

/-- **A reference begins with a truth value only where it opens with the word and a point.** -/
theorem readTruth?_reference (hs : s.Sound Char.isAlpha) (hopens : ¬ OpensWithTruth s.text) :
    readTruth? s.text = none := by
  by_cases hbare : ∃ name, s.sheet = .bare name
  · obtain ⟨name, hsheet⟩ := hbare
    have hname := hs.sheet
    rw [hsheet] at hname
    cases hread : readTruth? s.text with
    | none => rfl
    | some p =>
      obtain ⟨word, rest⟩ := p
      obtain ⟨htext, ⟨b, hword⟩, hends⟩ :=
        (readTruth?_eq_some_iff (longS_not_mem hs hsheet)).mp hread
      rw [text_bare hsheet] at htext
      obtain ⟨more, rfl, rfl⟩ := exists_name_of_letters (isCaseLetter_of_truthWord hword) htext
      cases more with
      | nil => cases hends
      | cons c more =>
        -- of the characters of a name, the point alone ends a word
        have hc : c = '.' := by
          have hchar := isNameChar_mono (fun _ => isCaseLetter_of_isAlpha)
            (hname.2 c (List.mem_append_right word List.mem_cons_self))
          have hends : continuesWord c = false := hends
          unfold continuesWord at hends
          unfold isNameChar at hchar
          simp only [Bool.or_eq_false_iff] at hends
          simpa only [hends, Bool.or_false, Bool.false_or, beq_iff_eq] using hchar
        have hsplit : s.text = word ++ '.' :: (more ++ '!' :: s.cell.text) := by
          rw [text_bare hsheet, hc, List.append_assoc, List.cons_append]
        exact absurd (opensWithTruth_iff.mpr ⟨b, word, _, hsplit, hword⟩) hopens
  · have hshort := length_takeWhile_spelling hs.mono (fun name hsheet => hbare ⟨name, hsheet⟩) []
    rw [List.append_nil] at hshort
    exact readTruth?_short hshort

/-- Where a reference opens with such a word and a point, its sheet does. -/
theorem exists_bare_of_opens (hs : s.Sound Char.isAlpha) (htext : s.text = word ++ '.' :: rest)
    (hword : word.map Char.toUpper = truthWord b) :
    ∃ name, s.sheet = .bare (word ++ '.' :: name) ∧ rest = name ++ '!' :: s.cell.text := by
  have hletters := isCaseLetter_of_truthWord hword
  by_cases hbare : ∃ name, s.sheet = .bare name
  · obtain ⟨name, hsheet⟩ := hbare
    obtain ⟨more, rfl, hrest⟩ :=
      exists_name_of_letters hletters ((text_bare hsheet).symm.trans htext)
    cases more with
    | nil => cases hrest
    | cons c more =>
      obtain ⟨rfl, hmore⟩ := List.cons.inj hrest
      exact ⟨more, hsheet, hmore⟩
  · have hshort := length_takeWhile_spelling hs.mono (fun name hsheet => hbare ⟨name, hsheet⟩) []
    have hlength := congrArg List.length hword
    have hfour : 4 ≤ (truthWord b).length := by cases b <;> decide
    rw [List.append_nil, htext, takeWhile_run hletters (free_cons rfl)] at hshort
    rw [List.length_map] at hlength
    omega

/-- Behind the point of a sheet's bare name, a reference is one again. -/
theorem cutInto_pointed (hs : s.Sound Char.isAlpha)
    (hsheet : s.sheet = .bare (word ++ '.' :: name)) :
    CutInto ('.' :: (name ++ '!' :: s.cell.text))
      [⟨.reference, '.' :: (name ++ '!' :: s.cell.text)⟩] := by
  have hname := hs.sheet
  rw [hsheet] at hname
  have hpointed : Spelling.Sound Char.isAlpha ⟨.bare ('.' :: name), s.cell⟩ :=
    ⟨⟨List.cons_ne_nil _ _, fun c hc => hname.2 c (List.mem_append_right word hc)⟩, hs.cell⟩
  have htext : Spelling.text ⟨.bare ('.' :: name), s.cell⟩ =
      '.' :: (name ++ '!' :: s.cell.text) := by
    rw [text_bare rfl, List.cons_append]
  have htruth : readTruth? (Spelling.text ⟨.bare ('.' :: name), s.cell⟩ ++ []) = none := by
    rw [htext]
    exact readTruth?_short (Nat.zero_lt_succ 3)
  have hcut := cutInto_nil.mention hpointed.mono htruth parted_nil
  rwa [List.append_nil, htext] at hcut

/-- **A reference that opens so is cut in two**, behind the word. -/
theorem cutInto_opensWithTruth (hs : s.Sound Char.isAlpha) (htext : s.text = word ++ '.' :: rest)
    (hword : word.map Char.toUpper = truthWord b) :
    CutInto s.text [⟨.truth, word⟩, ⟨.reference, '.' :: rest⟩] := by
  obtain ⟨name, hsheet, hrest⟩ := exists_bare_of_opens hs htext hword
  have hletters := isCaseLetter_of_truthWord hword
  have htruth : readTruth? s.text = some (word, '.' :: rest) :=
    (readTruth?_eq_some_iff (longS_not_mem hs hsheet)).mpr ⟨htext, ⟨b, hword⟩, rfl⟩
  have hname : readName? s.text = none := by
    have hchars : ∀ c ∈ s.text, isWord c = true := by
      refine hs.mono.word fun hhead => ?_
      cases word with
      | nil =>
        rw [htext] at hhead
        cases hhead
      | cons c word =>
        rw [htext] at hhead
        cases hhead
        exact absurd (hletters '\x27' List.mem_cons_self) (by decide)
    have hnone := readName?_word hchars parted_nil
    rwa [List.append_nil] at hnone
  rw [htext, hrest] at htruth hname ⊢
  exact (cutInto_pointed hs hsheet).word hletters hname htruth

end Spellings

/-! ## 3. References by themselves -/

section Formulas

variable {table : Signatures} {r : String} {a : Address}

/-- With an equals sign in front, a reference has the tokens that it is cut into. -/
theorem tokens_equals {s : Spelling} {ts : List Token} (hs : s.Sound Char.isAlpha)
    (htext : r.toList = s.text) (h : CutInto s.text ts) :
    tokens (body ("=" ++ r).toList) = .ok ts := by
  have hbody : body ("=" ++ r).toList = s.text := by
    rw [String.toList_append, htext]
    exact body_cons hs.mono.ends.2
  rw [hbody]
  exact h.tokens_eq

/-- A reference is a formula, unless it opens with a truth value. -/
theorem ofText_of_not_opens {s : Spelling} (hs : s.Sound Char.isAlpha) (htext : r.toList = s.text)
    (ha : Address.read? r = some a) (hopens : ¬ OpensWithTruth s.text) :
    Tree.ofText table ("=" ++ r) = .leaf (.cell a) := by
  have hcell : Derives table [⟨.reference, s.text⟩] (.leaf (.cell a)) :=
    .leaf (.cell rfl (by rw [← htext, String.ofList_toList]; exact ha))
  have htruth : readTruth? (s.text ++ []) = none := by
    rw [List.append_nil]
    exact readTruth?_reference hs hopens
  have hcut := cutInto_nil.mention hs.mono htruth parted_nil
  rw [List.append_nil] at hcut
  exact Tree.ofText_of_ok (tokens_equals hs htext hcut) hcell.read

/-- One that opens with a truth value is none: the rest of it stands where the formula should
    end. -/
theorem ofText_of_opens {s : Spelling} {word rest : List Char} {b : Bool}
    (hs : s.Sound Char.isAlpha) (htext : r.toList = s.text) (hopens : s.text = word ++ '.' :: rest)
    (hword : word.map Char.toUpper = truthWord b) :
    Tree.ofText table ("=" ++ r) = .unsupported ("=" ++ r) (.trailing ('.' :: rest)) := by
  have hformula : formula? table [⟨.truth, word⟩, ⟨.reference, '.' :: rest⟩] =
      .error (.trailing ('.' :: rest)) := rfl
  have hcut := cutInto_opensWithTruth hs hopens hword
  exact Tree.ofText_of_error (tokens_equals hs htext hcut) hformula

/-- **A reference is read as its address iff it does not open with a truth value and a point**: a
    text without blanks at its ends that spells an address is, with an equals sign in front, a
    formula whose tree is the address. One that opens so lies on a sheet with a bare name that opens
    so; it is cut behind the word, and the rest of it is a piece too many. -/
theorem Tree.ofText_reference (table : Signatures) (htight : strip r.toList = r.toList)
    (h : Address.read? r = some a) :
    (Tree.ofText table ("=" ++ r) = .leaf (.cell a) ↔ ¬ OpensWithTruth r.toList) ∧
      (OpensWithTruth r.toList → ∃ word rest name, r.toList = word ++ '.' :: rest ∧
        a.sheet = some (String.ofList (word ++ '.' :: name)) ∧
        Tree.ofText table ("=" ++ r) = .unsupported ("=" ++ r) (.trailing ('.' :: rest))) := by
  obtain ⟨s, hs, hstrip, hspelled⟩ := Address.read?_iff.mp h
  have htext : r.toList = s.text := htight.symm.trans hstrip
  have hcut : OpensWithTruth r.toList → ∃ word rest name, r.toList = word ++ '.' :: rest ∧
      a.sheet = some (String.ofList (word ++ '.' :: name)) ∧
      Tree.ofText table ("=" ++ r) = .unsupported ("=" ++ r) (.trailing ('.' :: rest)) := by
    intro hopens
    obtain ⟨b, word, rest, hsplit, hword⟩ := opensWithTruth_iff.mp hopens
    have hsplit' := htext.symm.trans hsplit
    obtain ⟨name, hsheet, -⟩ := exists_bare_of_opens hs hsplit' hword
    refine ⟨word, rest, name, hsplit, ?_, ofText_of_opens hs htext hsplit' hword⟩
    rw [(Address.ofSpelling?_eq_some hspelled).2.1, hsheet]
    rfl
  refine ⟨⟨fun hread hopens => ?_, fun hopens => ?_⟩, hcut⟩
  · obtain ⟨word, rest, name, -, -, hunsupported⟩ := hcut hopens
    cases hread.symm.trans hunsupported
  · exact ofText_of_not_opens hs htext h (htext ▸ hopens)

/-- A reference with one dollar mark, and one to a sheet that opens with a truth value. -/
theorem ofText_reference_named :
    Tree.ofText Function.Library.standard.signatures "=Truth.x!$a1" =
        .leaf (.cell ⟨some "Truth.x", 1, 1, true, false⟩) ∧
      ∃ word rest name, "false.1!A1".toList = word ++ '.' :: rest ∧
        some "false.1" = some (String.ofList (word ++ '.' :: name)) ∧
        Tree.ofText Function.Library.standard.signatures "=false.1!A1" =
          .unsupported "=false.1!A1" (.trailing ('.' :: rest)) := by
  have hspelled : strip "Truth.x!$a1".toList = "Truth.x!$a1".toList ∧
      Address.read? "Truth.x!$a1" = some ⟨some "Truth.x", 1, 1, true, false⟩ ∧
      ¬ OpensWithTruth "Truth.x!$a1".toList := by decide
  have hopens : strip "false.1!A1".toList = "false.1!A1".toList ∧
      Address.read? "false.1!A1" = some ⟨some "false.1", 1, 1, false, false⟩ ∧
      OpensWithTruth "false.1!A1".toList := by decide
  exact ⟨(Tree.ofText_reference Function.Library.standard.signatures hspelled.1
      hspelled.2.1).1.mpr hspelled.2.2,
    (Tree.ofText_reference Function.Library.standard.signatures hopens.1 hopens.2.1).2 hopens.2.2⟩

/-- An address that no formula reads: of its sheet's name the formula takes the first four letters
    for a truth value. -/
theorem ofText_torn :
    Address.read? "TRUE.x!A1" = some ⟨some "TRUE.x", 1, 1, false, false⟩ ∧
      Tree.ofText Function.Library.standard.signatures "=TRUE.x!A1" =
        .unsupported "=TRUE.x!A1" (.trailing ".x!A1".toList) := by
  decide +kernel

end Formulas

end Appraisal.Formula
