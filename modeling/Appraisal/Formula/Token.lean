import Appraisal.Formula.Lexeme
import Appraisal.Text.Quoted

/-!
# Tokens of a formula

* `Token` — a piece of formula text and its kind; blanks are pieces too;
* `readToken?` — the first piece of a text: of the readers, in their order, the first that takes
  something;
* `lexemes` — the pieces of a text; `lexemes_text` — **together they are the text**;
* `tokens` — the pieces other than blanks;
* `SyntaxFault` — why a text is no formula of the grammar, and its wording.
-/

namespace Appraisal.Formula

open Appraisal.Text

/-! ## 1. Kinds and faults -/

/-- What a piece of formula text is. -/
inductive TokenKind where
  /-- A run of blanks. -/
  | blank
  /-- A text between double quotes. -/
  | text
  /-- A function's name. -/
  | name
  /-- TRUE or FALSE. -/
  | truth
  /-- A reference to a cell. -/
  | reference
  /-- A number without a sign. -/
  | numeral
  /-- One of the four operators. -/
  | operator
  /-- A parenthesis, a comma or a colon. -/
  | mark
deriving DecidableEq

/-- A piece of formula text. -/
structure Token where
  /-- What it is. -/
  kind : TokenKind
  /-- Its characters. -/
  text : List Char
deriving DecidableEq

/-- Why a text is no formula of the grammar. -/
inductive SyntaxFault where
  /-- No piece begins with the code point at the position. -/
  | unexpectedPoint (point position : Nat)
  /-- The text ends where a piece is needed. -/
  | endOfFormula
  /-- There is nothing in the text. -/
  | emptyFormula
  /-- One piece is needed and another stands there. -/
  | expected (wanted got : List Char)
  /-- A piece stands where no operand can begin. -/
  | unexpected (text : List Char)
  /-- A piece stands where the formula should end. -/
  | trailing (text : List Char)
  /-- The function is not in the library. -/
  | unsupportedFunction (name : String)
  /-- The function does not take as many arguments. -/
  | argumentCount (name : String) (least most : Int) (got : Nat)
  /-- A range stands where its function takes none, or does not begin with a reference. -/
  | rangeNotAllowed
  /-- A range does not end with a reference to its sheet. -/
  | invalidRangeEnd (text : List Char)
  /-- A sign stands before something other than a number. -/
  | signWithoutNumber
  /-- A reference that names no cell. -/
  | invalidReference (text : List Char)
deriving DecidableEq

/-- The characters between quotes, as a message shows them. -/
def quotedText (cs : List Char) : String :=
  String.ofList (quotedChars cs)

/-- The wording of a syntax fault. -/
def SyntaxFault.message : SyntaxFault → String
  | .unexpectedPoint point n =>
    "unexpected character " ++ quotedText (spell point) ++ " at " ++ toString n
  | .endOfFormula => "unexpected end of formula"
  | .emptyFormula => "empty formula"
  | .expected wanted got => "expected " ++ quotedText wanted ++ ", got " ++ quotedText got
  | .unexpected cs => "unexpected " ++ quotedText cs
  | .trailing cs => "unexpected " ++ quotedText cs ++ " (nested expressions are not supported)"
  | .unsupportedFunction name => "unsupported function " ++ name
  | .argumentCount name least most got =>
    name ++ " takes " ++ toString least ++ "-" ++ toString most ++ " arguments, got " ++
      toString got
  | .rangeNotAllowed => "range argument not allowed here"
  | .invalidRangeEnd cs => "invalid range end " ++ quotedText cs
  | .signWithoutNumber => "unary operators only apply to numbers"
  | .invalidReference cs => "invalid reference " ++ quotedText cs

/-! ## 2. The first piece -/

/-- One of the four operators. -/
def isOperatorChar (c : Char) : Bool :=
  c == '+' || c == '-' || c == '*' || c == '/'

/-- A parenthesis, a comma or a colon. -/
def isMarkChar (c : Char) : Bool :=
  c == '(' || c == ')' || c == ',' || c == ':'

/-- A reference, by its characters. -/
def readReference? (cs : List Char) : Option (List Char × List Char) :=
  (readMention? isCaseLetter cs).map fun p => (p.1.text, p.2)

/-- What a piece of each kind is read by. -/
def TokenKind.read? : TokenKind → List Char → Option (List Char × List Char)
  | .blank => readBlanks?
  | .text => readText?
  | .name => readName?
  | .truth => readTruth?
  | .reference => readReference?
  | .numeral => readNumeral?
  | .operator => readOne? isOperatorChar
  | .mark => readOne? isMarkChar

/-- The kinds in the order in which they are tried. -/
def TokenKind.order : List TokenKind :=
  [.blank, .text, .name, .truth, .reference, .numeral, .operator, .mark]

/-- The first piece of a text, and the rest. -/
def readToken? (cs : List Char) : Option (Token × List Char) :=
  TokenKind.order.findSome? fun kind => (kind.read? cs).map fun p => (⟨kind, p.1⟩, p.2)

theorem TokenKind.read?_text {kind : TokenKind} {cs text rest : List Char}
    (h : kind.read? cs = some (text, rest)) : text ++ rest = cs ∧ text ≠ [] := by
  cases kind with
  | blank => exact readBlanks?_text h
  | text => exact readText?_text h
  | name => exact readName?_text h
  | truth => exact readTruth?_text h
  | reference =>
    simp only [TokenKind.read?, readReference?, Option.map_eq_some_iff, Prod.mk.injEq,
      Prod.exists] at h
    obtain ⟨s, r, hm, rfl, rfl⟩ := h
    exact ⟨readMention?_text hm, readMention?_ne_nil hm⟩
  | numeral => exact readNumeral?_text h
  | operator => exact readOne?_text h
  | mark => exact readOne?_text h

/-- The first piece is not empty, and it and the rest make up the text. -/
theorem readToken?_text {cs rest : List Char} {t : Token} (h : readToken? cs = some (t, rest)) :
    t.text ++ rest = cs ∧ t.text ≠ [] := by
  unfold readToken? at h
  obtain ⟨kind, -, hk⟩ := List.exists_of_findSome?_eq_some h
  simp only [Option.map_eq_some_iff, Prod.mk.injEq, Prod.exists] at hk
  obtain ⟨text, r, hr, rfl, rfl⟩ := hk
  exact TokenKind.read?_text hr

theorem readToken?_length {cs rest : List Char} {t : Token} (h : readToken? cs = some (t, rest)) :
    rest.length < cs.length := by
  obtain ⟨rfl, hne⟩ := readToken?_text h
  have := List.length_pos_iff.2 hne
  simp only [List.length_append]
  omega

/-! ## 3. All pieces -/

/-- The pieces of a text whose first code point stands at the position. -/
def lexemesFrom (position : Nat) (cs : List Char) : Except SyntaxFault (List Token) :=
  match cs with
  | [] => .ok []
  | c :: cs' =>
    match _h : readToken? (c :: cs') with
    | none => .error (.unexpectedPoint ((codePoints (c :: cs')).headD 0) position)
    | some (t, rest) => (lexemesFrom (position + (codePoints t.text).length) rest).map (t :: ·)
termination_by cs.length
decreasing_by exact readToken?_length _h

/-- The pieces of a text, blanks included. -/
def lexemes (cs : List Char) : Except SyntaxFault (List Token) :=
  lexemesFrom 0 cs

/-- The pieces of a text other than blanks. -/
def tokens (cs : List Char) : Except SyntaxFault (List Token) :=
  (lexemes cs).map fun ts => ts.filter (·.kind ≠ .blank)

theorem lexemesFrom_text {position : Nat} {cs : List Char} {ts : List Token}
    (h : lexemesFrom position cs = .ok ts) : ts.flatMap (·.text) = cs := by
  fun_induction lexemesFrom position cs generalizing ts with
  | case1 =>
    simp only [Except.ok.injEq] at h
    subst h
    rfl
  | case2 => simp at h
  | case3 position c cs' t rest hr ih =>
    cases hrest : lexemesFrom (position + (codePoints t.text).length) rest with
    | error e => simp [hrest, Except.map] at h
    | ok more =>
      simp only [hrest, Except.map, Except.ok.injEq] at h
      subst h
      rw [List.flatMap_cons, ih hrest]
      exact (readToken?_text hr).1

/-- **The pieces of a text together are the text.** -/
theorem lexemes_text {cs : List Char} {ts : List Token} (h : lexemes cs = .ok ts) :
    ts.flatMap (·.text) = cs :=
  lexemesFrom_text h

end Appraisal.Formula
