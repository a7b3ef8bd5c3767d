import Appraisal.Function.Library
import Appraisal.Proofs.Listing

/-!
# Libraries that are extended

A library is read in two ways: a formula is read with the signatures, a call is computed with the
functions. Each extension writes both under one name in upper case, so the two tables have the same
names after any number of extensions.

* `Extension`, `Library.extended` — a function to register, and a library after some of them;
* `Library.find?_extended_of_ne` — what no extension names stays as it was;
* `Tables` — functions and signatures in tables of their own; `Library.tables_extended` — **a
  library is its two tables, however it was extended**;
* `Builtin.call?` — a built-in function on as many arguments as its body takes;
  `Builtin.call?_of_fits` — **its body takes as many as its signature allows**.
-/

namespace Appraisal

/-- The number of arguments is one that the signature allows. -/
def Formula.Signature.Fits (s : Formula.Signature) (count : Nat) : Prop :=
  s.least ≤ count ∧ count ≤ s.most

namespace Function

open Appraisal.Formula

/-! ## 1. Extensions -/

/-- A function to register under a name in any case, with a signature or without one. -/
structure Extension where
  /-- The name. -/
  name : String
  /-- The function. -/
  apply : List Value → Except Fault Value
  /-- How it may be called. -/
  signature : Option Signature

/-- The function as a library has it. -/
def Extension.definition (e : Extension) : Definition :=
  ⟨e.signature.getD Library.defaultSignature, e.apply⟩

/-- The library after the extensions, one after the other. -/
def Library.extended (l : Library) (es : List Extension) : Library :=
  es.foldl (fun l e => l.register e.name e.apply e.signature) l

namespace Library

variable {l : Library} {name : String} {e : Extension}

theorem extended_append (l : Library) (es es' : List Extension) :
    l.extended (es ++ es') = (l.extended es).extended es' :=
  List.foldl_append

theorem find?_register_self (h : upperName e.name = upperName name) :
    (l.register e.name e.apply e.signature).find? name = some e.definition := by
  unfold find? register
  rw [h]
  exact Listing.get?_put_self _ _ _

theorem find?_register_of_ne (h : upperName e.name ≠ upperName name) :
    (l.register e.name e.apply e.signature).find? name = l.find? name := by
  unfold find? register
  exact Listing.get?_put_of_ne _ (Ne.symm h)

/-- What a library has, it has after any extensions. -/
theorem exists_find?_extended {d : Definition} (h : l.find? name = some d)
    (es : List Extension) : ∃ d', (l.extended es).find? name = some d' := by
  induction es generalizing l d with
  | nil => exact ⟨d, h⟩
  | cons e es ih =>
    by_cases hname : upperName e.name = upperName name
    · exact ih (find?_register_self hname)
    · exact ih ((find?_register_of_ne hname).trans h)

/-- What no extension names stays as it was. -/
theorem find?_extended_of_ne {es : List Extension}
    (h : ∀ e ∈ es, upperName e.name ≠ upperName name) :
    (l.extended es).find? name = l.find? name := by
  induction es generalizing l with
  | nil => rfl
  | cons e es ih =>
    obtain ⟨he, hes⟩ := List.forall_mem_cons.mp h
    exact (ih hes).trans (find?_register_of_ne he)

end Library

theorem upperName_builtin (b : Builtin) : upperName b.name = b.name := by
  cases b <;> decide +kernel

/-- A built-in function is found under its name. -/
theorem Library.find?_standard (b : Builtin) :
    standard.find? b.name = some ⟨b.signature, b.apply⟩ := by
  unfold find?
  rw [upperName_builtin]
  cases b <;> rfl

/-! ## 2. Two tables -/

/-- The functions and how they may be called, each in a table of its own. -/
structure Tables where
  /-- The functions by name. -/
  functions : Listing (List Value → Except Fault Value)
  /-- Their signatures by name. -/
  signatures : Signatures

/-- The two tables of the built-in functions. -/
def Tables.standard : Tables where
  functions := Builtin.all.map fun b => (b.name, b.apply)
  signatures := Builtin.all.map fun b => (b.name, b.signature)

/-- The two tables after an extension, which writes to both. -/
def Tables.register (t : Tables) (e : Extension) : Tables where
  functions := t.functions.put (upperName e.name) e.apply
  signatures := t.signatures.put (upperName e.name) (e.signature.getD Library.defaultSignature)

/-- The two tables after the extensions, one after the other. -/
def Tables.extended (t : Tables) (es : List Extension) : Tables :=
  es.foldl Tables.register t

namespace Library

/-- The two tables that a library is read as. -/
def tables (l : Library) : Tables :=
  ⟨l.definitions.map fun d => (d.1, d.2.apply), l.signatures⟩

theorem tables_register (l : Library) (e : Extension) :
    (l.register e.name e.apply e.signature).tables = l.tables.register e := by
  unfold tables Tables.register register signatures
  rw [Listing.put_mapEntries Definition.apply, Listing.put_mapEntries Definition.signature]

/-- **However it was extended, a library is the two tables that the same extensions leave.** -/
theorem tables_extended (es : List Extension) :
    (standard.extended es).tables = Tables.standard.extended es := by
  have hseries : ∀ l : Library, (l.extended es).tables = l.tables.extended es := by
    induction es with
    | nil => exact fun l => rfl
    | cons e es ih =>
      intro l
      show ((l.register e.name e.apply e.signature).extended es).tables = _
      rw [ih, tables_register]
      rfl
  exact hseries standard

/-- A name with a signature has a definition with that signature, and its function is in the other
    table. -/
theorem exists_find?_of_signature {l : Library} {name : String} {signature : Signature}
    (h : l.tables.signatures.get? (upperName name) = some signature) :
    ∃ d, l.find? name = some d ∧ d.signature = signature ∧
      l.tables.functions.get? (upperName name) = some d.apply := by
  unfold tables signatures at h
  rw [Listing.get?_mapEntries] at h
  obtain ⟨d, hd, hsignature⟩ := Option.map_eq_some_iff.mp h
  refine ⟨d, hd, hsignature, ?_⟩
  unfold tables
  rw [Listing.get?_mapEntries, hd]
  rfl

end Library

/-! ## 3. How many arguments a body takes -/

/-- The built-in function on its arguments, as its body takes them one by one; nothing where it
    cannot be called with so many. -/
def Builtin.call? : Builtin → List Value → Option (Except Fault Value)
  | .sum, args => some ((sumValues args).map .number)
  | .max, args => some ((maxValues args).map .float)
  | .min, args => some ((minValues args).map .float)
  | .ifThen, [condition, onTrue] => some (.ok (ifStatement condition onTrue (.flag false)))
  | .ifThen, [condition, onTrue, onFalse] => some (.ok (ifStatement condition onTrue onFalse))
  | .ifError, value :: default :: _ => some (.ok (Function.ifError value default))
  | .log, [value] => some (.ok (.float (logarithm value .blank)))
  | .log, [value, base] => some (.ok (.float (logarithm value base)))
  | .ln, value :: _ => some (.ok (.float (logarithm value .blank)))
  | .exp, value :: _ => some (exponential value)
  | .rri, [periods, present, future] => some ((growthRate periods present future).map .float)
  | _, _ => none

/-- **The body of a built-in function takes as many arguments as its signature allows.** -/
theorem Builtin.call?_of_fits {b : Builtin} {args : List Value} (h : b.signature.Fits args.length) :
    b.call? args = some (b.apply args) := by
  obtain ⟨hleast, hmost⟩ := h
  cases b with
  | sum | max | min => rfl
  | ifThen =>
    change (2 : Int) ≤ args.length at hleast
    change (args.length : Int) ≤ 3 at hmost
    match args with
    | [] | [_] => simp at hleast
    | [_, _] | [_, _, _] => rfl
    | _ :: _ :: _ :: _ :: _ => simp only [List.length_cons] at hmost; omega
  | ifError =>
    change (2 : Int) ≤ args.length at hleast
    match args with
    | [] | [_] => simp at hleast
    | _ :: _ :: _ => rfl
  | log =>
    change (1 : Int) ≤ args.length at hleast
    change (args.length : Int) ≤ 2 at hmost
    match args with
    | [] => simp at hleast
    | [_] | [_, _] => rfl
    | _ :: _ :: _ :: _ => simp only [List.length_cons] at hmost; omega
  | ln | exp =>
    change (1 : Int) ≤ args.length at hleast
    match args with
    | [] => simp at hleast
    | _ :: _ => rfl
  | rri =>
    change (3 : Int) ≤ args.length at hleast
    change (args.length : Int) ≤ 3 at hmost
    match args with
    | [] | [_] | [_, _] => simp at hleast
    | [_, _, _] => rfl
    | _ :: _ :: _ :: _ :: _ => simp only [List.length_cons] at hmost; omega

end Function

end Appraisal
