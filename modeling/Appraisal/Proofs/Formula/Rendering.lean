import Appraisal.Proofs.Formula.Acceptance
import Appraisal.Proofs.Formula.Cutting

/-!
# Formulas are read back

A formula is written in one way: whole numbers in decimal with a minus where they are below zero,
texts between double quotes with the quotes inside doubled, TRUE and FALSE, references with their
dollar marks and with their sheet between apostrophes, ranges by their corners about a colon with
the second corner bare, operations with the operator between the operands, and calls as the name and
the arguments between parentheses with commas.

* `Leaf.written`, `Argument.written`, `Tree.written` — the text of a formula;
* `Leaf.Writable`, `Argument.Writable`, `Tree.Writable` — the formulas that have a text;
* `Leaf.Writable.cut`, `Argument.Writable.cut`, `Tree.Writable.cut` — **the text of a formula is cut
  into tokens that derive the formula**;
* `Tree.ofText_written` — **a writable formula is read back from its text**.
-/

namespace Appraisal.Formula

open Appraisal.Text

/-! ## 1. Writing -/

/-- The text of an operand; a literal that is blank or a float has none. -/
def Leaf.written : Leaf → List Char
  | .literal (.number (.whole n)) => (toString n).toList
  | .literal (.text s) => betweenQuotes s.toList
  | .literal (.flag b) => truthWord b
  | .literal _ => []
  | .cell a => a.spelling.text

/-- The text of an argument. -/
def Argument.written : Argument → List Char
  | .leaf l => l.written
  | .range r => r.first.spelling.text ++ ':' :: r.last.bare.spelling.text

/-- The texts of arguments with commas between them. -/
def writtenArguments : List Argument → List Char
  | [] => []
  | [a] => a.written
  | a :: as => a.written ++ ',' :: writtenArguments as

/-- The text of a formula, with the blanks on either side of an operator. -/
def Tree.written (blanks : List Char) : Tree → List Char
  | .leaf l => l.written
  | .binary op l r => l.written ++ (blanks ++ op.symbol :: (blanks ++ r.written))
  | .call name as => name.toList ++ '(' :: (writtenArguments as ++ [')'])
  | .unsupported text _ => text.toList

/-- An operand with a text: a whole number, a text, a truth value or a writable reference. -/
inductive Leaf.Writable : Leaf → Prop where
  /-- A whole number. -/
  | whole (n : Int) : Writable (.literal (.number (.whole n)))
  /-- A text. -/
  | text (s : String) : Writable (.literal (.text s))
  /-- A truth value. -/
  | flag (b : Bool) : Writable (.literal (.flag b))
  /-- A reference. -/
  | cell {a : Address} (ha : a.Writable) : Writable (.cell a)

/-- An argument with a text: an operand, or a range where ranges are accepted, with both corners on
    one sheet. -/
inductive Argument.Writable (acceptsRanges : Bool) : Argument → Prop where
  /-- An operand. -/
  | leaf {l : Leaf} (hl : l.Writable) : Writable acceptsRanges (.leaf l)
  /-- A range. -/
  | range {r : CellRange} (haccepts : acceptsRanges = true) (hfirst : r.first.Writable)
      (hlast : r.last.Writable) (hsheet : r.last.sheet = r.first.sheet) :
      Writable acceptsRanges (.range r)

/-- A formula with a text, over a table. -/
inductive Tree.Writable (table : Signatures) : Tree → Prop where
  /-- An operand. -/
  | leaf {l : Leaf} (hl : l.Writable) : Writable table (.leaf l)
  /-- An operation. -/
  | binary (op : Operator) {l r : Leaf} (hl : l.Writable) (hr : r.Writable) :
      Writable table (.binary op l r)
  /-- A call of a function in the table with a number of arguments that it takes. -/
  | call {name : String} {signature : Signature} {as : List Argument}
      (hname : IsFunctionName name.toList) (hsignature : table.get? name = some signature)
      (has : ∀ a ∈ as, a.Writable signature.acceptsRanges)
      (hcount : signature.least ≤ as.length ∧ as.length ≤ signature.most) :
      Writable table (.call name as)

/-! ## 2. Operands and arguments -/

section Parts

variable {rest : List Char}

/-- A whole number is its digits, after a minus where it is below zero. -/
theorem written_whole (n : Int) :
    (toString n).toList = if 0 ≤ n then n.toNat.repr.toList else '-' :: (-n).toNat.repr.toList := by
  rw [Int.toString_eq_repr, Int.repr_eq_if]
  split
  · rfl
  · rw [String.toList_append]
    rfl

theorem numeralOf_repr (n : Nat) : NumeralOf n.repr.toList (.whole n) := by
  have hwhole : NumeralOf n.repr.toList (.whole (digitsValue n.repr.toList)) :=
    .whole (List.all_eq_true.mpr (all_isDigit_repr n))
  rwa [digitsValue_repr] at hwhole

theorem upper_truthWord (b : Bool) : upper (truthWord b) = truthWord b := by
  cases b <;> decide

/-- **The text of an operand is cut into tokens that derive the operand.** -/
theorem Leaf.Writable.cut {l : Leaf} (h : l.Writable) (hrest : Parted rest) :
    ∃ us, DerivesLeaf us l ∧ ∀ ts, CutInto rest ts → CutInto (l.written ++ rest) (us ++ ts) := by
  cases h with
  | whole n =>
    rw [Leaf.written, written_whole]
    split
    · next hn =>
      have hvalue := numeralOf_repr n.toNat
      rw [Int.toNat_of_nonneg hn] at hvalue
      exact ⟨[⟨.numeral, n.toNat.repr.toList⟩], .numeral rfl hvalue, fun ts hts =>
        hts.numeral n.toNat hrest⟩
    · next hn =>
      have hvalue : DerivesLeaf [⟨.operator, ['-']⟩, ⟨.numeral, (-n).toNat.repr.toList⟩]
          (.literal (.number (negated (.whole ((-n).toNat : Int))))) :=
        .minus rfl (numeralOf_repr (-n).toNat)
      have hnegated : negated (.whole ((-n).toNat : Int)) = .whole n := by
        rw [negated, Int.toNat_of_nonneg (by omega), Int.neg_neg]
      rw [hnegated] at hvalue
      refine ⟨_, hvalue, fun ts hts => ?_⟩
      have hcut := (hts.numeral (-n).toNat hrest).operator .minus
      rw [Operator.symbol] at hcut
      exact hcut
  | text s =>
    have htext : DerivesLeaf [⟨.text, betweenQuotes s.toList⟩]
        (.literal (.text (String.ofList s.toList))) := .text rfl rfl
    rw [String.ofList_toList] at htext
    exact ⟨_, htext, fun ts hts => hts.text s.toList hrest.quote⟩
  | flag b =>
    have hflag : DerivesLeaf [⟨.truth, truthWord b⟩] (.literal (.flag b)) := by
      cases b with
      | true => exact .yes rfl (upper_truthWord true)
      | false => exact .no rfl (upper_truthWord false)
    exact ⟨_, hflag, fun ts hts => hts.truth b hrest⟩
  | @cell a ha =>
    exact ⟨[⟨.reference, a.spelling.text⟩], .cell rfl (Address.read?_spelling ha), fun ts hts =>
      hts.reference ha hrest⟩

/-- A text with no blank at its ends. -/
structure Tight (cs : List Char) : Prop where
  ne_nil : cs ≠ []
  first : Free isBlank cs
  last : ∀ c, cs.getLast? = some c → isBlank c = false

theorem tight_of_all {cs : List Char} (hne : cs ≠ []) (h : ∀ c ∈ cs, isBlank c = false) :
    Tight cs :=
  ⟨hne, fun c hc => h c (List.mem_of_head? hc), fun c hc => h c (List.mem_of_getLast? hc)⟩

theorem Leaf.Writable.tight {l : Leaf} (h : l.Writable) : Tight l.written := by
  cases h with
  | whole n =>
    have hne : (toString n).toList ≠ [] := by
      rw [written_whole]
      split
      · exact repr_ne_nil _
      · exact List.cons_ne_nil _ _
    exact tight_of_all hne fun c hc => (isPlain_of_mem_row hc).not_blank
  | text s =>
    refine ⟨List.cons_ne_nil _ _, free_cons rfl, fun c hc => ?_⟩
    rw [Leaf.written, betweenQuotes, ← List.cons_append, List.getLast?_concat] at hc
    cases hc
    rfl
  | flag b =>
    have hblank : (truthWord b).all (fun c => !isBlank c) = true := by cases b <;> decide
    exact tight_of_all (by cases b <;> decide) fun c hc =>
      (Bool.not_eq_true' _).mp (List.all_eq_true.mp hblank c hc)
  | @cell a ha =>
    refine ⟨fun hnil => ha.sound.cell.letters_ne ?_, ha.sound_mono.ends.1, ha.sound_mono.ends.2⟩
    simp only [Leaf.written, Spelling.text, CellSpelling.text, List.append_eq_nil_iff] at hnil
    exact hnil.2.1.2

/-- **The text of an argument is cut into tokens that derive the argument.** -/
theorem Argument.Writable.cut {acceptsRanges : Bool} {a : Argument}
    (h : a.Writable acceptsRanges) (hrest : Parted rest) :
    ∃ us, DerivesArgument acceptsRanges us a ∧
      ∀ ts, CutInto rest ts → CutInto (a.written ++ rest) (us ++ ts) := by
  cases h with
  | leaf hl =>
    obtain ⟨us, hus, hcut⟩ := hl.cut hrest
    exact ⟨us, .leaf hus, hcut⟩
  | @range r haccepts hfirst hlast hsheet =>
    -- the corners are on one sheet, so the second is found without it
    have hderives : DerivesArgument acceptsRanges
        [⟨.reference, r.first.spelling.text⟩, colon, ⟨.reference, r.last.bare.spelling.text⟩]
        (.range ⟨r.first, { r.last.bare with sheet := r.first.sheet }⟩) :=
      .range haccepts rfl (Address.read?_spelling hfirst) rfl (Address.read?_spelling hlast.bare)
        (Or.inl rfl)
    have hrange : r = ⟨r.first, { r.last.bare with sheet := r.first.sheet }⟩ := by
      rw [← hsheet]
      rfl
    rw [← hrange] at hderives
    refine ⟨_, hderives, fun ts hts => ?_⟩
    have hcut := ((hts.reference hlast.bare hrest).mark (c := ':') rfl).reference hfirst
      (parted_cons rfl _)
    rw [Argument.written, List.append_assoc]
    exact hcut

/-- The text of arguments, up to a closing parenthesis. -/
theorem cut_writtenArguments {acceptsRanges : Bool} {as : List Argument} (hne : as ≠ [])
    (has : ∀ a ∈ as, a.Writable acceptsRanges) (rest : List Char) :
    ∃ us, DerivesArguments acceptsRanges us as ∧ ∀ ts, CutInto (')' :: rest) ts →
      CutInto (writtenArguments as ++ ')' :: rest) (us ++ ts) := by
  induction as with
  | nil => exact absurd rfl hne
  | cons a as ih =>
    obtain ⟨ha, has⟩ := List.forall_mem_cons.mp has
    cases as with
    | nil =>
      obtain ⟨us, hus, hcut⟩ := ha.cut (parted_cons (c := ')') rfl rest)
      exact ⟨us, .one hus, hcut⟩
    | cons b bs =>
      obtain ⟨vs, hvs, hmore⟩ := ih (List.cons_ne_nil b bs) has
      obtain ⟨us, hus, hcut⟩ :=
        ha.cut (parted_cons (c := ',') rfl (writtenArguments (b :: bs) ++ ')' :: rest))
      refine ⟨us ++ comma :: vs, .more hus hvs, fun ts hts => ?_⟩
      have hall := hcut _ ((hmore ts hts).mark (c := ',') rfl)
      simpa [writtenArguments, comma] using hall

end Parts

/-! ## 3. Formulas -/

section Formulas

variable {table : Signatures} {tree : Tree} {blanks : List Char}

/-- A function's name in capitals is its own upper case. -/
theorem upper_of_isFunctionName {cs : List Char} (h : IsFunctionName cs) : upper cs = cs := by
  obtain ⟨c, name, rfl, hc, hname⟩ := h
  refine upper_eq_self_of_lt (List.forall_mem_cons.mpr ⟨hc.isPlain.lt, fun x hx => ?_⟩)
  rcases hname x hx with hx | hx | rfl | rfl
  · exact hx.isPlain.lt
  · unfold isAsciiDigit at hx
    rw [Bool.and_eq_true, decide_eq_true_iff, decide_eq_true_iff] at hx
    omega
  · decide
  · decide

/-- **The text of a formula is cut into tokens that derive the formula.** -/
theorem Tree.Writable.cut (h : tree.Writable table) (hblanks : ∀ c ∈ blanks, isBlank c = true) :
    ∃ ts, Derives table ts tree ∧ CutInto (tree.written blanks) ts := by
  cases h with
  | leaf hl =>
    obtain ⟨us, hus, hcut⟩ := hl.cut parted_nil
    have hall := hcut [] cutInto_nil
    simp only [List.append_nil] at hall
    exact ⟨us, .leaf hus, hall⟩
  | @binary op l r hl hr =>
    obtain ⟨vs, hvs, hright⟩ := hr.cut parted_nil
    have hgap : Parted (blanks ++ op.symbol :: (blanks ++ r.written)) :=
      (parted_cons (by cases op <;> rfl) _).blanks hblanks
    obtain ⟨us, hus, hleft⟩ := hl.cut hgap
    refine ⟨us ++ ⟨.operator, [op.symbol]⟩ :: vs, .binary op hus hvs, hleft _ ?_⟩
    have hend := hright [] cutInto_nil
    simp only [List.append_nil] at hend
    have hsymbol : Free isBlank (op.symbol :: (blanks ++ r.written)) :=
      free_cons (by cases op <;> rfl)
    exact ((hend.blanks hblanks hr.tight.first).operator op).blanks hblanks hsymbol
  | @call name signature as hname hsignature has hcount =>
    have hend : CutInto [')'] [closing] := cutInto_nil.mark rfl
    obtain ⟨us, hus, hinside⟩ : ∃ us, DerivesInside signature.acceptsRanges us as ∧
        CutInto (writtenArguments as ++ [')']) (us ++ [closing]) := by
      by_cases hne : as = []
      · rw [hne]
        exact ⟨[], .nothing, hend⟩
      · obtain ⟨us, hus, hcut⟩ := cut_writtenArguments hne has []
        exact ⟨us, .arguments hus, hcut _ hend⟩
    have hupper : String.ofList (upper name.toList) = name := by
      rw [upper_of_isFunctionName hname, String.ofList_toList]
    have hderives : Derives table (⟨.name, name.toList⟩ :: opening :: (us ++ [closing]))
        (.call (String.ofList (upper name.toList)) as) :=
      .call rfl (by rw [hupper]; exact hsignature) hus hcount
    rw [hupper] at hderives
    exact ⟨_, hderives, (hinside.mark (c := '(') rfl).name hname⟩

theorem Tree.Writable.last (h : tree.Writable table) :
    ∀ c, (tree.written blanks).getLast? = some c → isBlank c = false := by
  cases h with
  | leaf hl => exact hl.tight.last
  | @binary op l r hl hr =>
    intro c hc
    have hend : (Tree.written blanks (.binary op l r)).getLast? = r.written.getLast? := by
      rw [Tree.written, ← List.cons_append, ← List.append_assoc, ← List.append_assoc,
        List.getLast?_append_of_ne_nil _ hr.tight.ne_nil]
    rw [hend] at hc
    exact hr.tight.last c hc
  | call =>
    intro c hc
    rw [Tree.written, ← List.cons_append, ← List.append_assoc, List.getLast?_concat] at hc
    cases hc
    rfl

/-- The equals sign in front of a formula is taken off, where the formula does not end with a
    blank. -/
theorem body_cons {cs : List Char} (hlast : ∀ c, cs.getLast? = some c → isBlank c = false) :
    body ('=' :: cs) = cs := by
  have hstrip : strip ('=' :: cs) = '=' :: cs := by
    refine trim_of_ends (fun c hc => ?_) fun c hc => ?_
    · cases hc
      rfl
    · rw [List.getLast?_cons] at hc
      cases hend : cs.getLast? with
      | none =>
        rw [hend] at hc
        cases hc
        rfl
      | some d =>
        rw [hend] at hc
        cases hc
        exact hlast d hend
  rw [body, hstrip]
  rfl

/-- **A writable formula is read back from its text**: over any table, the text of every formula
    with an equals sign in front is read as the formula, with any blanks about the operator. -/
theorem Tree.ofText_written (h : tree.Writable table)
    (hblanks : ∀ c ∈ blanks, isBlank c = true) :
    Tree.ofText table (String.ofList ('=' :: tree.written blanks)) = tree := by
  obtain ⟨ts, hderives, hcut⟩ := h.cut hblanks
  refine Tree.ofText_of_ok ?_ hderives.read
  rw [String.toList_ofList, body_cons h.last]
  exact hcut.tokens_eq

/-- A call on a range to the last column, on a sheet whose name has a blank and quotes, and on a
    text with a quote, a negative number, a truth value and a reference. -/
def fullCall : Tree :=
  .call "SUM" [.range ⟨⟨some "My \"S\"", 18278, 1, true, false⟩,
      ⟨some "My \"S\"", 1, 20, false, true⟩⟩,
    .leaf (.literal (.text "a\"b")), .leaf (.literal (.number (.whole (-7)))),
    .leaf (.literal (.flag true)), .leaf (.cell ⟨none, 2, 3, false, false⟩)]

theorem ofText_written_call :
    fullCall.Writable Function.Library.standard.signatures ∧
      Tree.ofText Function.Library.standard.signatures
        "=SUM(\x27My \"S\"\x27!$ZZZ1:A$20,\"a\"\"b\",-7,TRUE,B3)" = fullCall := by
  have hsheet : ∀ {column row : Int} {c r : Bool}, 1 ≤ column → column ≤ 18278 → 1 ≤ row →
      Address.Writable ⟨some "My \"S\"", column, row, c, r⟩ := by
    intro column row c r hpos hle hrow
    refine ⟨hpos, hle, hrow, fun name hname => ?_⟩
    cases hname
    decide
  have has : ∀ a ∈ [.range ⟨⟨some "My \"S\"", 18278, 1, true, false⟩,
      ⟨some "My \"S\"", 1, 20, false, true⟩⟩,
    .leaf (.literal (.text "a\"b")), .leaf (.literal (.number (.whole (-7)))),
    .leaf (.literal (.flag true)), .leaf (.cell ⟨none, 2, 3, false, false⟩)],
      Argument.Writable true a := by
    simp only [List.forall_mem_cons]
    exact ⟨.range rfl (hsheet (by decide) (by decide) (by decide))
        (hsheet (by decide) (by decide) (by decide)) rfl,
      .leaf (.text _), .leaf (.whole _), .leaf (.flag _),
      .leaf (.cell ⟨by decide, by decide, by decide, nofun⟩),
      fun a ha => absurd ha List.not_mem_nil⟩
  have hname : IsFunctionName "SUM".toList :=
    ⟨'S', ['U', 'M'], rfl, ⟨by decide, by decide⟩, fun x hx => Or.inl (by
      rcases List.mem_cons.mp hx with rfl | hx
      · exact ⟨by decide, by decide⟩
      · rw [List.mem_singleton.mp hx]
        exact ⟨by decide, by decide⟩)⟩
  have hsignature : Function.Library.standard.signatures.get? "SUM" = some ⟨1, 255, true⟩ := by
    decide +kernel
  have hwritable : fullCall.Writable Function.Library.standard.signatures :=
    .call hname hsignature has (by decide)
  have htext : String.ofList ('=' :: fullCall.written []) =
      "=SUM(\x27My \"S\"\x27!$ZZZ1:A$20,\"a\"\"b\",-7,TRUE,B3)" := by
    decide +kernel
  refine ⟨hwritable, ?_⟩
  rw [← htext]
  exact Tree.ofText_written hwritable nofun

end Formulas

end Appraisal.Formula
