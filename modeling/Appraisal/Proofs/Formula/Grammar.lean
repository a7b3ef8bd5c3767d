import Appraisal.Formula.Parser
import Appraisal.Proofs.Formula.Layout
import Appraisal.Proofs.Formula.Numeral

/-!
# The grammar of formulas

Which tokens write which formula, rule by rule and whatever a reader does with them:

    formula  := call | leaf | leaf operator leaf
    call     := NAME "(" [argument ("," argument)*] ")"
    argument := leaf | reference ":" reference
    leaf     := ["+" | "-"] NUMERAL | TEXT | TRUE | FALSE | reference

* `DerivesLeaf`, `DerivesArgument`, `DerivesArguments`, `DerivesInside`, `Derives` — the rules;
* `Token.Read.eq_mark`, `Token.Read.exists_operator`, `Token.Read.exists_betweenQuotes`,
  `Token.Read.truth` — what a piece of a kind looks like, as far as the rules ask for it;
* `Token.Read.numeral` — **every piece that is a numeral writes a number**.
-/

namespace Appraisal.Formula

open Appraisal.Text

/-! ## 1. The rules -/

/-- The characters of a text as they stand between double quotes: each quote twice. -/
def doubled : List Char → List Char
  | [] => []
  | c :: cs => if c = '"' then '"' :: '"' :: doubled cs else c :: doubled cs

/-- A text as a formula writes it. -/
def betweenQuotes (cs : List Char) : List Char :=
  '"' :: (doubled cs ++ ['"'])

/-- The number that the characters of a numeral write. -/
inductive NumeralOf (cs : List Char) : Number → Prop where
  /-- Digits alone write a whole number. -/
  | whole (hcs : cs.all isDigit = true) : NumeralOf cs (.whole (digitsValue cs))
  /-- All other numerals write a float. -/
  | float {x : Float} (hcs : cs.all isDigit = false) (hx : Number.readFloat? cs = some x) :
      NumeralOf cs (.float x)

/-- The tokens write the operand. -/
inductive DerivesLeaf : List Token → Leaf → Prop where
  /-- A numeral. -/
  | numeral {t : Token} {n : Number} (ht : t.kind = .numeral) (hn : NumeralOf t.text n) :
      DerivesLeaf [t] (.literal (.number n))
  /-- A numeral after a plus. -/
  | plus {t : Token} {n : Number} (ht : t.kind = .numeral) (hn : NumeralOf t.text n) :
      DerivesLeaf [⟨.operator, ['+']⟩, t] (.literal (.number n))
  /-- A numeral after a minus. -/
  | minus {t : Token} {n : Number} (ht : t.kind = .numeral) (hn : NumeralOf t.text n) :
      DerivesLeaf [⟨.operator, ['-']⟩, t] (.literal (.number (negated n)))
  /-- A text. -/
  | text {t : Token} {cs : List Char} (ht : t.kind = .text) (hcs : t.text = betweenQuotes cs) :
      DerivesLeaf [t] (.literal (.text (String.ofList cs)))
  /-- The word TRUE in any case. -/
  | yes {t : Token} (ht : t.kind = .truth) (htext : upper t.text = "TRUE".toList) :
      DerivesLeaf [t] (.literal (.flag true))
  /-- The word FALSE in any case. -/
  | no {t : Token} (ht : t.kind = .truth) (htext : upper t.text = "FALSE".toList) :
      DerivesLeaf [t] (.literal (.flag false))
  /-- A reference that names a cell. -/
  | cell {t : Token} {a : Address} (ht : t.kind = .reference)
      (ha : Address.read? (String.ofList t.text) = some a) : DerivesLeaf [t] (.cell a)

/-- The tokens write the argument of a function that accepts ranges or does not. -/
inductive DerivesArgument (acceptsRanges : Bool) : List Token → Argument → Prop where
  /-- An operand. -/
  | leaf {ts : List Token} {l : Leaf} (hl : DerivesLeaf ts l) :
      DerivesArgument acceptsRanges ts (.leaf l)
  /-- Two references about a colon, the second without a sheet or on the sheet of the first. -/
  | range {s t : Token} {a b : Address} (haccepts : acceptsRanges = true)
      (hs : s.kind = .reference) (ha : Address.read? (String.ofList s.text) = some a)
      (ht : t.kind = .reference) (hb : Address.read? (String.ofList t.text) = some b)
      (hsheet : b.sheet = none ∨ b.sheet = a.sheet) :
      DerivesArgument acceptsRanges [s, colon, t] (.range ⟨a, { b with sheet := a.sheet }⟩)

/-- The tokens write the arguments, at least one, with commas between them. -/
inductive DerivesArguments (acceptsRanges : Bool) : List Token → List Argument → Prop where
  /-- One argument. -/
  | one {ts : List Token} {a : Argument} (ha : DerivesArgument acceptsRanges ts a) :
      DerivesArguments acceptsRanges ts [a]
  /-- An argument, a comma and more arguments. -/
  | more {ts us : List Token} {a : Argument} {as : List Argument}
      (ha : DerivesArgument acceptsRanges ts a) (has : DerivesArguments acceptsRanges us as) :
      DerivesArguments acceptsRanges (ts ++ comma :: us) (a :: as)

/-- The tokens write what stands between the parentheses of a call. -/
inductive DerivesInside (acceptsRanges : Bool) : List Token → List Argument → Prop where
  /-- Nothing. -/
  | nothing : DerivesInside acceptsRanges [] []
  /-- Arguments. -/
  | arguments {ts : List Token} {as : List Argument} (h : DerivesArguments acceptsRanges ts as) :
      DerivesInside acceptsRanges ts as

/-- The parenthesis that opens a call. -/
def opening : Token := ⟨.mark, ['(']⟩

/-- The tokens write the formula over the table. -/
inductive Derives (table : Signatures) : List Token → Tree → Prop where
  /-- An operand by itself. -/
  | leaf {ts : List Token} {l : Leaf} (hl : DerivesLeaf ts l) : Derives table ts (.leaf l)
  /-- An operator between two operands. -/
  | binary {ts us : List Token} {l r : Leaf} (op : Operator) (hl : DerivesLeaf ts l)
      (hr : DerivesLeaf us r) :
      Derives table (ts ++ ⟨.operator, [op.symbol]⟩ :: us) (.binary op l r)
  /-- A call of a function in the table with a number of arguments that it takes. -/
  | call {name : Token} {signature : Signature} {ts : List Token} {as : List Argument}
      (hname : name.kind = .name)
      (hsignature : table.get? (String.ofList (upper name.text)) = some signature)
      (has : DerivesInside signature.acceptsRanges ts as)
      (hcount : signature.least ≤ as.length ∧ as.length ≤ signature.most) :
      Derives table (name :: opening :: (ts ++ [closing]))
        (.call (String.ofList (upper name.text)) as)

/-! ## 2. Marks and operators -/

section Pieces

variable {t : Token}

/-- A mark begins no piece of another kind. -/
theorem TokenKind.read?_mark {kind : TokenKind} {c : Char} (hkind : kind ≠ .mark)
    (hc : isMarkChar c = true) (cs : List Char) : kind.read? (c :: cs) = none := by
  unfold isMarkChar at hc
  simp only [Bool.or_eq_true, beq_iff_eq] at hc
  cases kind with
  | mark => exact absurd rfl hkind
  | _ => rcases hc with ((rfl | rfl) | rfl) | rfl <;> rfl

/-- A piece that has the text of a mark is the mark. -/
theorem Token.Read.eq_mark (h : t.Read) {c : Char} (htext : t.text = [c])
    (hc : isMarkChar c = true) : t = ⟨.mark, [c]⟩ := by
  obtain ⟨cs, rest, hread⟩ := h
  have hcs : c :: rest = cs := by
    rw [← (TokenKind.read?_text hread).1, htext]
    rfl
  have hkind : t.kind = .mark := by
    by_contra hkind
    rw [← hcs, TokenKind.read?_mark hkind hc] at hread
    cases hread
  cases t
  cases hkind
  cases htext
  rfl

theorem exists_operator_of_isOperatorChar {c : Char} (h : isOperatorChar c = true) :
    ∃ op : Operator, c = op.symbol := by
  unfold isOperatorChar at h
  simp only [Bool.or_eq_true, beq_iff_eq] at h
  rcases h with ((rfl | rfl) | rfl) | rfl
  · exact ⟨.plus, rfl⟩
  · exact ⟨.minus, rfl⟩
  · exact ⟨.times, rfl⟩
  · exact ⟨.over, rfl⟩

/-- A piece that is an operator is one of the four. -/
theorem Token.Read.exists_operator (h : t.Read) (hkind : t.kind = .operator) :
    ∃ op : Operator, t = ⟨.operator, [op.symbol]⟩ := by
  obtain ⟨cs, rest, hread⟩ := h
  rw [hkind] at hread
  obtain ⟨c, htext, hc⟩ := exists_of_readOne? (p := isOperatorChar) hread
  obtain ⟨op, rfl⟩ := exists_operator_of_isOperatorChar hc
  cases t
  cases hkind
  cases htext
  exact ⟨op, rfl⟩

/-! ## 3. Texts and words -/

theorem single_doubled (cs : List Char) : unquoted.single (doubled cs) = cs := by
  induction cs with
  | nil => rfl
  | cons c cs ih =>
    rw [doubled]
    split
    · next hc => rw [unquoted.single, ih, hc]
    · next hc =>
      rw [unquoted.single, ih]
      intro tail hquote
      exact absurd hquote hc

/-- **What a text says is what was put between the quotes.** -/
theorem unquoted_betweenQuotes (cs : List Char) : unquoted (betweenQuotes cs) = cs := by
  have hinside : ((betweenQuotes cs).drop 1).dropLast = doubled cs := by
    rw [betweenQuotes, List.drop_succ_cons, List.drop_zero, List.dropLast_concat]
  rw [unquoted, hinside, single_doubled]

theorem exists_doubled_of_readTextTail? {cs tail rest : List Char}
    (h : readTextTail? cs = some (tail, rest)) : ∃ inside, tail = doubled inside ++ ['"'] := by
  fun_induction readTextTail? cs generalizing tail rest with
  | case1 => cases h
  | case2 cs tail' rest' hread ih =>
    cases h
    obtain ⟨inside, rfl⟩ := ih hread
    exact ⟨'"' :: inside, rfl⟩
  | case3 cs hread ih =>
    cases h
    exact ⟨[], rfl⟩
  | case4 cs hnext =>
    cases h
    exact ⟨[], rfl⟩
  | case5 c cs hnext hc ih =>
    obtain ⟨⟨tail', rest'⟩, hread, heq⟩ := Option.map_eq_some_iff.mp h
    cases heq
    obtain ⟨inside, rfl⟩ := ih hread
    exact ⟨c :: inside, by rw [doubled, if_neg hc]; rfl⟩

/-- A piece that is a text has some characters between its quotes. -/
theorem Token.Read.exists_betweenQuotes (h : t.Read) (hkind : t.kind = .text) :
    ∃ cs, t.text = betweenQuotes cs := by
  obtain ⟨cs, rest, hread⟩ := h
  rw [hkind] at hread
  change readText? cs = _ at hread
  unfold readText? at hread
  split at hread
  · obtain ⟨⟨tail, rest'⟩, htail, heq⟩ := Option.map_eq_some_iff.mp hread
    obtain ⟨inside, rfl⟩ := exists_doubled_of_readTextTail? htail
    exact ⟨inside, (Prod.mk.inj heq).1.symm⟩
  · cases hread

/-- What is read as a capital has the capital for its upper case. -/
theorem upperChar_of_readsAs {w c : Char} (hw : w.isUpper = true) (h : readsAs w c = true) :
    upperChar c = [w] := by
  unfold readsAs at h
  rcases (Bool.or_eq_true _ _).mp h with h | h
  · have hupper : c.toUpper = w := eq_of_beq h
    have halpha : w.isAlpha = true := (Bool.or_eq_true _ _).mpr (Or.inl hw)
    rw [upperChar, if_pos (toNat_lt_of_isAlpha (isAlpha_of_toUpper (hupper ▸ halpha))), hupper]
  · obtain ⟨hs, hlong⟩ := (Bool.and_eq_true _ _).mp h
    rw [eq_of_beq hs, eq_of_beq hlong]
    decide

/-- A word read in any case is, in upper case, the word. -/
theorem upper_of_readWord? {word cs text rest : List Char}
    (hword : word.all Char.isUpper = true) (h : readWord? word cs = some (text, rest)) :
    upper text = word := by
  induction word generalizing cs text with
  | nil =>
    cases h
    rfl
  | cons w word ih =>
    obtain ⟨hw, hword⟩ := (Bool.and_eq_true _ _).mp hword
    cases cs with
    | nil => cases h
    | cons c cs =>
      rw [readWord?] at h
      split at h
      · next hreads =>
        obtain ⟨⟨text', rest'⟩, hread, heq⟩ := Option.map_eq_some_iff.mp h
        cases heq
        rw [upper_cons, upperChar_of_readsAs hw hreads, ih hword hread]
        rfl
      · cases h

/-- A piece that is a truth value is one of the two words in some case. -/
theorem Token.Read.truth (h : t.Read) (hkind : t.kind = .truth) :
    upper t.text = "TRUE".toList ∨ upper t.text = "FALSE".toList := by
  obtain ⟨cs, rest, hread⟩ := h
  rw [hkind] at hread
  change readTruth? cs = _ at hread
  unfold readTruth? at hread
  split at hread
  · next word after hword =>
    split at hread
    · cases hread
    · obtain ⟨rfl, -⟩ := Prod.mk.inj (Option.some.inj hread)
      rcases Option.or_eq_some_iff.mp hword with htrue | ⟨-, hfalse⟩
      · exact Or.inl (upper_of_readWord? rfl htrue)
      · exact Or.inr (upper_of_readWord? rfl hfalse)
  · cases hread

/-! ## 4. Numerals -/

/-- A numeral writes no other number than the one that is read from it. -/
theorem NumeralOf.eq {cs : List Char} {n : Number} (h : NumeralOf cs n) : numeralValue cs = n := by
  cases h with
  | whole hcs => rw [numeralValue, if_pos hcs]
  | float hcs hx => rw [numeralValue, if_neg (Bool.eq_false_iff.mp hcs), hx, Option.getD_some]

/-- **Every piece that is a numeral writes the number that is read from it.** -/
theorem Token.Read.numeral (h : t.Read) (hkind : t.kind = .numeral) :
    NumeralOf t.text (numeralValue t.text) := by
  obtain ⟨cs, rest, hread⟩ := h
  rw [hkind] at hread
  obtain ⟨m, e, htext, hm, he⟩ := exists_parts hread
  obtain ⟨x, hx⟩ := readFloat?_parts hm he
  rw [← htext] at hx
  rw [numeralValue]
  split
  · next hcs => exact .whole hcs
  · next hcs =>
    rw [hx, Option.getD_some]
    exact .float (Bool.eq_false_iff.mpr hcs) hx

end Pieces

end Appraisal.Formula
