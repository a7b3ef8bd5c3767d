import Appraisal.Address.Range
import Appraisal.Formula.Token
import Appraisal.Value

/-!
# Formula trees

What a formula says. The grammar is small on purpose: an operand, an operation on two operands, or
a call on operands and ranges; nothing nests.

* `Leaf`, `Argument`, `Tree` — operands, arguments of a call, formulas;
* `Tree.references` — the keys of the cells that a formula reads, each once, ranges spread out.
-/

namespace Appraisal.Formula

/-! ## 1. Trees -/

/-- An operation on two operands. -/
inductive Operator where
  /-- Addition. -/
  | plus
  /-- Subtraction. -/
  | minus
  /-- Multiplication. -/
  | times
  /-- Division. -/
  | over
deriving DecidableEq

/-- The character that an operator is written with. -/
def Operator.symbol : Operator → Char
  | .plus => '+'
  | .minus => '-'
  | .times => '*'
  | .over => '/'

/-- The operator that a text is. -/
def Operator.ofText? : List Char → Option Operator
  | ['+'] => some .plus
  | ['-'] => some .minus
  | ['*'] => some .times
  | ['/'] => some .over
  | _ => none

theorem Operator.ofText?_symbol (op : Operator) : Operator.ofText? [op.symbol] = some op := by
  cases op <;> rfl

/-- An operand. -/
inductive Leaf where
  /-- A number, a text or a flag. -/
  | literal (s : Scalar)
  /-- A reference to a cell. -/
  | cell (a : Address)
deriving DecidableEq

/-- An argument of a call. -/
inductive Argument where
  /-- An operand. -/
  | leaf (l : Leaf)
  /-- A range of cells. -/
  | range (r : CellRange)
deriving DecidableEq

/-- A formula. -/
inductive Tree where
  /-- An operand by itself. -/
  | leaf (l : Leaf)
  /-- An operation on two operands. -/
  | binary (op : Operator) (left right : Leaf)
  /-- A call of a function. -/
  | call (name : String) (args : List Argument)
  /-- A text beyond the grammar, and why. -/
  | unsupported (text : String) (fault : SyntaxFault)
deriving DecidableEq

/-- Whether the text of the tree lies within the grammar. -/
def Tree.isSupported : Tree → Bool
  | .unsupported _ _ => false
  | _ => true

/-! ## 2. What a formula reads -/

/-- The keys that an operand reads, seen from a sheet. -/
def Leaf.keys (sheet : String) : Leaf → List String
  | .literal _ => []
  | .cell a => [a.key sheet]

/-- The keys that an argument reads, seen from a sheet. -/
def Argument.keys (sheet : String) : Argument → List String
  | .leaf l => l.keys sheet
  | .range r => r.addresses.map (·.key sheet)

/-- The keys that a formula reads, seen from a sheet, in the order of reading. -/
def Tree.keys (sheet : String) : Tree → List String
  | .leaf l => l.keys sheet
  | .binary _ l r => l.keys sheet ++ r.keys sheet
  | .call _ args => args.flatMap (·.keys sheet)
  | .unsupported _ _ => []

/-- The keys that a formula reads, each at its first place. -/
def Tree.references (sheet : String) (t : Tree) : List String :=
  (t.keys sheet).eraseDups

theorem Tree.mem_references_iff {sheet : String} {t : Tree} {key : String} :
    key ∈ t.references sheet ↔ key ∈ t.keys sheet :=
  List.mem_eraseDups

end Appraisal.Formula
