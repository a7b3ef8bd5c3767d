import Appraisal.Formula.Signature
import Appraisal.Function.Primitive
import Appraisal.Text.Upper

/-!
# The function library

A library holds, under names in upper case, what a formula may call: the function and how it may be
called. It starts with the built-in functions and can be extended.

* `Builtin` — the built-in functions; `Builtin.signature`, `Builtin.apply`;
* `Library.standard`, `Library.register`, `Library.find?` — start, extend, look up in any case;
* `Library.signatures` — the table that formulas are read with.
-/

namespace Appraisal.Function

open Appraisal.Formula

/-! ## 1. Built-in functions -/

/-- A built-in function. -/
inductive Builtin where
  /-- The sum of numbers. -/
  | sum
  /-- The largest number. -/
  | max
  /-- The smallest number. -/
  | min
  /-- A choice by a condition. -/
  | ifThen
  /-- A default in place of an error. -/
  | ifError
  /-- A logarithm to a base. -/
  | log
  /-- The natural logarithm. -/
  | ln
  /-- The exponential. -/
  | exp
  /-- A growth rate. -/
  | rri
deriving DecidableEq

/-- All built-in functions in the order of the library. -/
def Builtin.all : List Builtin :=
  [.sum, .max, .min, .ifThen, .ifError, .log, .ln, .exp, .rri]

/-- The name that a formula calls the function by. -/
def Builtin.name : Builtin → String
  | .sum => "SUM"
  | .max => "MAX"
  | .min => "MIN"
  | .ifThen => "IF"
  | .ifError => "IFERROR"
  | .log => "LOG"
  | .ln => "LN"
  | .exp => "EXP"
  | .rri => "RRI"

/-- How the function may be called. -/
def Builtin.signature : Builtin → Signature
  | .sum => ⟨1, unbounded, true⟩
  | .max => ⟨1, unbounded, true⟩
  | .min => ⟨1, unbounded, true⟩
  | .ifThen => ⟨2, 3, false⟩
  | .ifError => ⟨2, 2, false⟩
  | .log => ⟨1, 2, false⟩
  | .ln => ⟨1, 1, false⟩
  | .exp => ⟨1, 1, false⟩
  | .rri => ⟨3, 3, false⟩

/-- The function's value. An argument that its signature asks for and that is missing counts as
    absent. -/
def Builtin.apply (b : Builtin) (args : List Value) : Except Fault Value :=
  let arg (i : Nat) : Value := args[i]?.getD .blank
  match b with
  | .sum => (sumValues args).map .number
  | .max => (maxValues args).map .float
  | .min => (minValues args).map .float
  | .ifThen => .ok (ifStatement (arg 0) (arg 1) (args[2]?.getD (.flag false)))
  | .ifError => .ok (Function.ifError (arg 0) (arg 1))
  | .log => .ok (.float (logarithm (arg 0) (arg 1)))
  | .ln => .ok (.float (logarithm (arg 0) .blank))
  | .exp => exponential (arg 0)
  | .rri => (growthRate (arg 0) (arg 1) (arg 2)).map .float

/-! ## 2. Libraries -/

/-- A function and how it may be called. -/
structure Definition where
  /-- How it may be called. -/
  signature : Signature
  /-- Its value for given arguments. -/
  apply : List Value → Except Fault Value

/-- The functions that a formula may call, by their names in upper case. -/
structure Library where
  /-- The definitions by name. -/
  definitions : Listing Definition

/-- A text in upper case. -/
def upperName (name : String) : String :=
  String.ofList (Text.upper name.toList)

namespace Library

/-- The library of the built-in functions. -/
def standard : Library :=
  ⟨Builtin.all.map fun b => (b.name, ⟨b.signature, b.apply⟩)⟩

/-- How a function may be called that is registered without a signature: with any number of
    operands. -/
def defaultSignature : Signature :=
  ⟨0, unbounded, false⟩

/-- The library with a function registered under a name in any case; one that has the name
    already is replaced. -/
def register (l : Library) (name : String) (apply : List Value → Except Fault Value)
    (signature : Option Signature) : Library :=
  ⟨l.definitions.put (upperName name) ⟨signature.getD defaultSignature, apply⟩⟩

/-- The definition of a name in any case. -/
def find? (l : Library) (name : String) : Option Definition :=
  l.definitions.get? (upperName name)

/-- Whether the library has the name, in any case. -/
def has (l : Library) (name : String) : Bool :=
  (l.find? name).isSome

/-- The table that formulas are read with. -/
def signatures (l : Library) : Signatures :=
  l.definitions.map fun d => (d.1, d.2.signature)

end Library

end Appraisal.Function
