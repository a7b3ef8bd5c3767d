import Appraisal.Formula.Signature
import Appraisal.Formula.Tree

/-!
# From tokens to a tree

The grammar, over a table of the functions that may be called:

    formula  := call | leaf [operator leaf]
    call     := NAME "(" [argument ("," argument)*] ")"
    argument := leaf | reference ":" reference
    leaf     := ["+" | "-"] NUMERAL | TEXT | TRUE | FALSE | reference

* `leaf?`, `argument?`, `arguments?`, `call?` — each reads its part at the start of the tokens and
  returns it with the tokens after it; `leaf?_cases`, `argument?_cases` — what the part consists of;
* `formula?` — the tree of the tokens;
* `Tree.ofText` — the tree of a text; a text beyond the grammar has a tree that says why.
-/

namespace Appraisal.Formula

open Appraisal.Text

/-! ## 1. Operands -/

/-- The number that a numeral writes: a whole number if it has digits only, any number of them (see
    `digitsValue`). -/
def numeralValue (cs : List Char) : Number :=
  if cs.all isDigit then .whole (digitsValue cs)
  else .float ((Number.readFloat? cs).getD Number.undefined)

/-- The number with its sign turned. -/
def negated : Number → Number
  | .whole n => .whole (-n)
  | .float x => .float (-x)

/-- What a text between quotes says: the quotes gone, two in a row one. -/
def unquoted (cs : List Char) : List Char :=
  single (cs.drop 1).dropLast
where
  /-- Two quotes in a row become one. -/
  single : List Char → List Char
    | '"' :: '"' :: cs => '"' :: single cs
    | c :: cs => c :: single cs
    | [] => []

/-- An operand at the start of the tokens, and the tokens after it. -/
def leaf? : List Token → Except SyntaxFault (Leaf × List Token)
  | [] => .error .endOfFormula
  | t :: ts =>
    match t.kind with
    | .operator =>
      if t.text = ['+'] ∨ t.text = ['-'] then
        match ts with
        | [] => .error .endOfFormula
        | n :: ts =>
          if n.kind = .numeral then
            let value := numeralValue n.text
            .ok (.literal (.number (if t.text = ['-'] then negated value else value)), ts)
          else .error .signWithoutNumber
      else .error (.unexpected t.text)
    | .numeral => .ok (.literal (.number (numeralValue t.text)), ts)
    | .text => .ok (.literal (.text (String.ofList (unquoted t.text))), ts)
    | .truth => .ok (.literal (.flag (upper t.text = "TRUE".toList)), ts)
    | .reference =>
      match Address.read? (String.ofList t.text) with
      | some a => .ok (.cell a, ts)
      | none => .error (.invalidReference t.text)
    | _ => .error (.unexpected t.text)

/-! ## 2. Arguments -/

/-- The colon of a range. -/
def colon : Token := ⟨.mark, [':']⟩

/-- The comma between arguments. -/
def comma : Token := ⟨.mark, [',']⟩

/-- The parenthesis that closes a call. -/
def closing : Token := ⟨.mark, [')']⟩

/-- The address at the end of a range. -/
def rangeEnd? (t : Token) : Option Address :=
  if t.kind = .reference then Address.read? (String.ofList t.text) else none

/-- The rest of a range after its colon. -/
def rangeTail? (first : Address) : List Token → Except SyntaxFault (Argument × List Token)
  | [] => .error .endOfFormula
  | t :: ts =>
    match (rangeEnd? t).bind (CellRange.ofCorners? first) with
    | some r => .ok (.range r, ts)
    | none => .error (.invalidRangeEnd t.text)

/-- An argument at the start of the tokens, and the tokens after it. -/
def argument? (acceptsRanges : Bool) (ts : List Token) :
    Except SyntaxFault (Argument × List Token) :=
  match leaf? ts with
  | .error e => .error e
  | .ok (l, rest) =>
    match rest with
    | [] => .ok (.leaf l, [])
    | t :: rest' =>
      if t = colon then
        match acceptsRanges, l with
        | true, .cell a => rangeTail? a rest'
        | _, _ => .error .rangeNotAllowed
      else .ok (.leaf l, t :: rest')

/-- An operand is a sign and a numeral, one token that is a literal, or a reference. -/
theorem leaf?_cases {ts rest : List Token} {l : Leaf} (h : leaf? ts = .ok (l, rest)) :
    (∃ sign n, ts = sign :: n :: rest ∧ sign.kind = .operator ∧
      (sign.text = ['+'] ∨ sign.text = ['-']) ∧ n.kind = .numeral ∧
      l = .literal (.number
        (if sign.text = ['-'] then negated (numeralValue n.text) else numeralValue n.text))) ∨
    (∃ t, ts = t :: rest ∧ t.kind = .numeral ∧ l = .literal (.number (numeralValue t.text))) ∨
    (∃ t, ts = t :: rest ∧ t.kind = .text ∧
      l = .literal (.text (String.ofList (unquoted t.text)))) ∨
    (∃ t, ts = t :: rest ∧ t.kind = .truth ∧
      l = .literal (.flag (upper t.text = "TRUE".toList))) ∨
    ∃ t a, ts = t :: rest ∧ rangeEnd? t = some a ∧ l = .cell a := by
  unfold leaf? at h
  split at h
  · cases h
  · next t ts =>
    split at h
    · next hkind =>
      split at h
      · next hsign =>
        split at h
        · cases h
        · next n more =>
          split at h
          · next hnumeral =>
            cases h
            exact Or.inl ⟨t, n, rfl, hkind, hsign, hnumeral, rfl⟩
          · cases h
      · cases h
    · next hkind =>
      cases h
      exact Or.inr (Or.inl ⟨t, rfl, hkind, rfl⟩)
    · next hkind =>
      cases h
      exact Or.inr (Or.inr (Or.inl ⟨t, rfl, hkind, rfl⟩))
    · next hkind =>
      cases h
      exact Or.inr (Or.inr (Or.inr (Or.inl ⟨t, rfl, hkind, rfl⟩)))
    · next hkind =>
      split at h
      · next a hread =>
        cases h
        exact Or.inr (Or.inr (Or.inr (Or.inr ⟨t, a, rfl, by rw [rangeEnd?, if_pos hkind, hread],
          rfl⟩)))
      · cases h
    · cases h

theorem leaf?_length {ts rest : List Token} {l : Leaf} (h : leaf? ts = .ok (l, rest)) :
    rest.length < ts.length := by
  rcases leaf?_cases h with ⟨_, _, rfl, -⟩ | ⟨_, rfl, -⟩ | ⟨_, rfl, -⟩ | ⟨_, rfl, -⟩ |
    ⟨_, _, rfl, -⟩ <;> simp only [List.length_cons] <;> omega

/-- An argument is an operand, or a cell, a colon and the end of a range where one may stand. -/
theorem argument?_cases {acceptsRanges : Bool} {ts rest : List Token} {a : Argument}
    (h : argument? acceptsRanges ts = .ok (a, rest)) :
    (∃ l, leaf? ts = .ok (l, rest) ∧ a = .leaf l) ∨
    ∃ first last r, acceptsRanges = true ∧ leaf? ts = .ok (.cell first, colon :: last :: rest) ∧
      (rangeEnd? last).bind (CellRange.ofCorners? first) = some r ∧ a = .range r := by
  unfold argument? at h
  split at h
  · cases h
  · next l after hleaf =>
    split at h
    · cases h
      exact Or.inl ⟨l, hleaf, rfl⟩
    · next t more =>
      split at h
      · next hcolon =>
        split at h
        · next first =>
          unfold rangeTail? at h
          split at h
          · cases h
          · next last more =>
            split at h
            · next r hr =>
              cases h
              rw [hcolon] at hleaf
              exact Or.inr ⟨first, last, r, rfl, hleaf, hr, rfl⟩
            · cases h
        · cases h
      · cases h
        exact Or.inl ⟨l, hleaf, rfl⟩

theorem argument?_length {acceptsRanges : Bool} {ts rest : List Token} {a : Argument}
    (h : argument? acceptsRanges ts = .ok (a, rest)) : rest.length < ts.length := by
  rcases argument?_cases h with ⟨l, hleaf, -⟩ | ⟨first, last, r, -, hleaf, -⟩
  · exact leaf?_length hleaf
  · have hlength := leaf?_length hleaf
    simp only [List.length_cons] at hlength
    omega

/-- One or more arguments with commas between them, and the tokens after them. -/
def arguments? (acceptsRanges : Bool) (ts : List Token) :
    Except SyntaxFault (List Argument × List Token) :=
  match _h : argument? acceptsRanges ts with
  | .error e => .error e
  | .ok (a, rest) =>
    match _hr : rest with
    | [] => .ok ([a], [])
    | t :: more =>
      if t = comma then (arguments? acceptsRanges more).map fun p => (a :: p.1, p.2)
      else .ok ([a], t :: more)
termination_by ts.length
decreasing_by
  have := argument?_length _h
  simp only [List.length_cons] at this
  omega

/-! ## 3. Calls and formulas -/

/-- The tokens after the wanted text, which has to come next. -/
def expect (wanted : List Char) : List Token → Except SyntaxFault (List Token)
  | [] => .error .endOfFormula
  | t :: ts => if t.text = wanted then .ok ts else .error (.expected wanted t.text)

/-- The arguments of a call up to the parenthesis that closes it, which is left. -/
def callArguments? (acceptsRanges : Bool) (ts : List Token) :
    Except SyntaxFault (List Argument × List Token) :=
  if ts.head? = some closing then .ok ([], ts) else arguments? acceptsRanges ts

/-- The call of a named function whose parenthesis comes next, and the tokens after it. -/
def call? (table : Signatures) (name : String) (ts : List Token) :
    Except SyntaxFault (Tree × List Token) :=
  match table.get? name with
  | none => .error (.unsupportedFunction name)
  | some signature => do
    let afterOpening ← expect ['('] ts
    let (args, beforeClosing) ← callArguments? signature.acceptsRanges afterOpening
    let rest ← expect [')'] beforeClosing
    if signature.least ≤ args.length ∧ args.length ≤ signature.most then
      .ok (.call name args, rest)
    else .error (.argumentCount name signature.least signature.most args.length)

/-- An operand, or an operation on two, at the start of the tokens; and the tokens after it. -/
def operation? (ts : List Token) : Except SyntaxFault (Tree × List Token) := do
  let (left, rest) ← leaf? ts
  match rest with
  | [] => .ok (.leaf left, [])
  | t :: more =>
    match t.kind, Operator.ofText? t.text with
    | .operator, some op => do
      let (right, rest) ← leaf? more
      .ok (.binary op left right, rest)
    | _, _ => .ok (.leaf left, t :: more)

/-- The tree of the tokens, all of which it has to use. -/
def formula? (table : Signatures) (ts : List Token) : Except SyntaxFault Tree := do
  let (tree, rest) ←
    match ts with
    | [] => .error .emptyFormula
    | t :: more =>
      if t.kind = .name then call? table (String.ofList (upper t.text)) more else operation? ts
  match rest with
  | [] => .ok tree
  | t :: _ => .error (.trailing t.text)

/-- The text of a formula without blanks at its ends and without one equals sign in front. -/
def body (cs : List Char) : List Char :=
  match strip cs with
  | '=' :: cs => cs
  | cs => cs

/-- The tree of a formula's text. -/
def Tree.ofText (table : Signatures) (text : String) : Tree :=
  match (tokens (body text.toList)).bind (formula? table) with
  | .ok tree => tree
  | .error fault => .unsupported text fault

end Appraisal.Formula
