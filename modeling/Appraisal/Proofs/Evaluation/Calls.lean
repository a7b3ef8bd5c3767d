import Appraisal.Evaluation.Workbook
import Appraisal.Proofs.Formula.Acceptance
import Appraisal.Proofs.Formula.Rendering
import Appraisal.Proofs.Function.Extension
import Appraisal.Proofs.Text.Upper

/-!
# Parsed calls are computed

A formula is read with the signatures of a library. A call that is read from it has a name in upper
case that the library's table of signatures has, so the table of functions has it as well, then and
after any more extensions; and its arguments are as the signature asks.

* `Signature.Admits` — arguments in a number and of a kind that the signature allows;
* `admits_of_ofText` — **a call that is read has a signature, which admits its arguments**;
* `parsed_call_computes` — **whatever the library was extended with before and after, a call that is
  read is computed by a function**, and a built-in function that was not replaced gets as many
  arguments as its body takes.
-/

namespace Appraisal

open Appraisal.Formula Appraisal.Function

/-! ## 1. Calls that are read -/

namespace Formula

/-- The arguments are as many as the signature allows, and ranges only where it allows them. -/
structure Signature.Admits (s : Signature) (args : List Argument) : Prop where
  count : s.Fits args.length
  ranges : ∀ r, .range r ∈ args → s.acceptsRanges = true

section Read

variable {table : Signatures} {text name : String} {args : List Argument}

theorem DerivesArguments.accepts {acceptsRanges : Bool} {ts : List Token}
    (h : DerivesArguments acceptsRanges ts args) {r : CellRange} (hr : .range r ∈ args) :
    acceptsRanges = true := by
  have hargument : ∀ {ts : List Token} {a : Argument}, DerivesArgument acceptsRanges ts a →
      .range r = a → acceptsRanges = true := by
    intro ts a ha heq
    cases ha with
    | leaf => cases heq
    | range haccepts => exact haccepts
  induction h with
  | one ha => exact hargument ha (List.mem_singleton.mp hr)
  | more ha _ ih =>
    rcases List.mem_cons.mp hr with heq | hr
    · exact hargument ha heq
    · exact ih hr

theorem DerivesInside.accepts {acceptsRanges : Bool} {ts : List Token}
    (h : DerivesInside acceptsRanges ts args) {r : CellRange} (hr : .range r ∈ args) :
    acceptsRanges = true := by
  cases h with
  | nothing => cases hr
  | arguments h => exact h.accepts hr

/-- A tree that is a call was read from tokens that write the call. -/
theorem exists_derives_of_ofText (h : Tree.ofText table text = .call name args) :
    ∃ ts, Derives table ts (.call name args) := by
  unfold Tree.ofText at h
  split at h
  · next tree hparsed =>
    obtain ⟨ts, hts, hread⟩ := exists_of_bind_ok hparsed
    rw [h] at hread
    exact ⟨ts, derives_of_read (tokens_read hts) hread⟩
  · cases h

/-- **A call that is read has a name in upper case and a signature, which admits its arguments.** -/
theorem admits_of_ofText (h : Tree.ofText table text = .call name args) :
    upperName name = name ∧ ∃ signature, table.get? name = some signature ∧
      signature.Admits args := by
  obtain ⟨ts, hderives⟩ := exists_derives_of_ofText h
  cases hderives with
  | @call token signature ts _ hname hsignature hinside hcount =>
    refine ⟨?_, signature, hsignature, hcount, fun r hr => hinside.accepts hr⟩
    rw [upperName, String.toList_ofList, Text.upper_upper]

end Read

end Formula

/-! ## 2. Calls that are computed -/

/-- **A call that is read is computed.** Take the two tables that any extensions of the built-in
    ones leave, and a call that is read from a text with the table of signatures. Then the table of
    functions has its name, and the signature admits its arguments. A workbook with the library that
    these extensions and any later ones leave has a function for the name, computes the call with
    it and never falls back on nothing for want of one. Where no extension has the name of a
    built-in function, a call of that name runs its body, with as many arguments as it takes. -/
theorem parsed_call_computes (before later : List Extension) {text name : String}
    {args : List Argument}
    (h : Tree.ofText (Tables.standard.extended before).signatures text = .call name args) :
    ∃ signature function,
      (Tables.standard.extended before).signatures.get? (upperName name) = some signature ∧
      (Tables.standard.extended before).functions.get? (upperName name) = some function ∧
      signature.Admits args ∧
      ∀ w : Workbook, w.library = Library.standard.extended (before ++ later) →
        ∃ d, w.library.find? name = some d ∧ (later = [] → d = ⟨signature, function⟩) ∧
          ∀ (value : String → Value) (sheet : String),
            w.treeValue value sheet (.call name args) =
              .ok ((d.apply (args.map (w.argumentValue value sheet))).toOption.getD .blank) ∧
            ∀ b : Builtin, b.name = name →
              (∀ e ∈ before ++ later, upperName e.name ≠ b.name) →
              b.call? (args.map (w.argumentValue value sheet)) =
                some (d.apply (args.map (w.argumentValue value sheet))) := by
  obtain ⟨hupper, signature, hsignature, hadmits⟩ := admits_of_ofText h
  rw [← Library.tables_extended] at hsignature ⊢
  rw [← hupper] at hsignature
  rw [hupper]
  obtain ⟨d, hfind, rfl, hfunction⟩ := Library.exists_find?_of_signature hsignature
  rw [hupper] at hsignature hfunction
  refine ⟨d.signature, d.apply, hsignature, hfunction, hadmits, fun w hw => ?_⟩
  have hextended : w.library = (Library.standard.extended before).extended later := by
    rw [hw, Library.extended_append]
  obtain ⟨d', hfind'⟩ := Library.exists_find?_extended hfind later
  rw [← hextended] at hfind'
  refine ⟨d', hfind', ?_, fun value sheet => ⟨?_, ?_⟩⟩
  · rintro rfl
    rw [hextended] at hfind'
    exact Option.some.inj (hfind'.symm.trans hfind)
  · rw [Workbook.treeValue, Workbook.callValue, hfind']
  · rintro b rfl hkept
    have hbuiltin : ∀ es ⊆ before ++ later,
        (Library.standard.extended es).find? b.name = some ⟨b.signature, b.apply⟩ := by
      intro es hes
      rw [Library.find?_extended_of_ne fun e he => by
        rw [upperName_builtin]
        exact hkept e (hes he)]
      exact Library.find?_standard b
    rw [hw, hbuiltin _ (List.Subset.refl _)] at hfind'
    rw [hbuiltin _ (List.subset_append_left before later)] at hfind
    cases hfind'
    cases hfind
    refine Builtin.call?_of_fits ?_
    rw [List.length_map]
    exact hadmits.count

/-- A function of one or two arguments, registered in small letters. -/
def meanExtension : Extension :=
  ⟨"mean", fun _ => .ok .blank, some ⟨1, 2, true⟩⟩

theorem parsed_call_computes_choice :
    Tree.ofText (Tables.standard.extended [meanExtension]).signatures "=IF(TRUE,2)" =
        .call "IF" [.leaf (.literal (.flag true)), .leaf (.literal (.number (.whole 2)))] ∧
      ∃ d, (Library.standard.extended [meanExtension, meanExtension]).find? "IF" = some d ∧
        Builtin.ifThen.call? [.flag true, .number (.whole 2)] =
          some (d.apply [.flag true, .number (.whole 2)]) := by
  have hname : IsFunctionName "IF".toList :=
    ⟨'I', ['F'], rfl, ⟨by decide, by decide⟩, fun x hx => Or.inl (by
      rw [List.mem_singleton.mp hx]
      exact ⟨by decide, by decide⟩)⟩
  have hsignature :
      (Tables.standard.extended [meanExtension]).signatures.get? "IF" = some ⟨2, 3, false⟩ := by
    decide +kernel
  have hwritable : Tree.Writable (Tables.standard.extended [meanExtension]).signatures
      (.call "IF" [.leaf (.literal (.flag true)), .leaf (.literal (.number (.whole 2)))]) :=
    .call hname hsignature (List.forall_mem_cons.mpr ⟨.leaf (.flag true),
      List.forall_mem_singleton.mpr (.leaf (.whole 2))⟩) (by decide)
  have hread : Tree.ofText (Tables.standard.extended [meanExtension]).signatures "=IF(TRUE,2)" =
      .call "IF" [.leaf (.literal (.flag true)), .leaf (.literal (.number (.whole 2)))] := by
    have htext : String.ofList ('=' :: Tree.written [] (.call "IF"
        [.leaf (.literal (.flag true)), .leaf (.literal (.number (.whole 2)))])) =
          "=IF(TRUE,2)" := by
      decide +kernel
    rw [← htext]
    exact Tree.ofText_written hwritable nofun
  obtain ⟨_, _, -, -, -, hcomputes⟩ := parsed_call_computes [meanExtension] [meanExtension] hread
  obtain ⟨d, hfind, -, hvalue⟩ :=
    hcomputes ⟨⟨[]⟩, Library.standard.extended [meanExtension, meanExtension], false⟩ rfl
  have hkept : ∀ e ∈ [meanExtension] ++ [meanExtension], upperName e.name ≠ Builtin.ifThen.name := by
    decide +kernel
  exact ⟨hread, d, hfind, (hvalue (fun _ => .blank) "S").2 .ifThen rfl hkept⟩

end Appraisal
