import Appraisal.Proofs.Formula.Cutting

/-!
# What stands between quotes is not looked into

A formula may say anything between its quotes: references, parentheses, quotes that are written
twice. None of it is taken for a mention.

* `spliced` — segments with texts between them, each text written between quotes;
* `withoutTexts_spliced` — **taking out the texts leaves the segments and nothing else**;
* `mentions_spliced` — so **two formulas that differ in their texts alone mention the same cells,
  ranges and functions**, or cannot be spread out for the same reason.
-/

namespace Appraisal.Formula

open Appraisal.Text

/-- A segment, and after it texts between quotes, each with the segment that follows it. -/
def spliced (first : List Char) : List (List Char × List Char) → List Char
  | [] => first
  | (text, segment) :: more => first ++ (betweenQuotes text ++ spliced segment more)

section Splices

variable {first : List Char} {parts : List (List Char × List Char)}

/-- A segment with a character in it keeps the quotes of two texts apart. -/
theorem free_spliced (hfirst : '"' ∉ first) (hne : parts ≠ [] → first ≠ []) :
    Free (· == '"') (spliced first parts) := by
  have hfree : Free (· == '"') first := fun c hc =>
    beq_eq_false_iff_ne.mpr fun heq => hfirst (heq ▸ List.mem_of_head? hc)
  cases parts with
  | nil => exact hfree
  | cons part more => exact hfree.append (hne (List.cons_ne_nil part more))

/-- **Taking out the texts leaves the segments**, one after the other. -/
theorem withoutTexts_spliced (hfree : ∀ p ∈ first :: parts.map Prod.snd, '"' ∉ p)
    (hinner : ∀ p ∈ (parts.map Prod.snd).dropLast, p ≠ []) :
    withoutTexts (spliced first parts) = first ++ (parts.map Prod.snd).flatten := by
  induction parts generalizing first with
  | nil =>
    have hall := withoutTexts_append (hfree first List.mem_cons_self) []
    rw [List.append_nil, withoutTexts] at hall
    exact hall
  | cons part more ih =>
    obtain ⟨text, segment⟩ := part
    obtain ⟨hfirst, hmore⟩ := List.forall_mem_cons.mp hfree
    have hsegment : more ≠ [] → segment ≠ [] := by
      intro hne
      obtain ⟨next, after, rfl⟩ := List.exists_cons_of_ne_nil hne
      exact hinner segment List.mem_cons_self
    have hinner' : ∀ p ∈ (more.map Prod.snd).dropLast, p ≠ [] := by
      cases more with
      | nil => exact fun p hp => absurd hp List.not_mem_nil
      | cons next after => exact fun p hp => hinner p (List.mem_cons_of_mem segment hp)
    have hstop : Free (· == '"') (spliced segment more) :=
      free_spliced (hmore segment List.mem_cons_self) hsegment
    rw [spliced, withoutTexts_append hfirst, withoutTexts_text (readText?_betweenQuotes hstop text),
      ih hmore hinner', List.map_cons, List.flatten_cons]

end Splices

/-- **What a formula mentions does not depend on its texts.** Of the segments, only the first and
    the last may be empty. -/
theorem mentions_spliced {first : List Char} {segments texts others : List (List Char)}
    (htexts : texts.length = segments.length) (hothers : others.length = segments.length)
    (hfree : ∀ p ∈ first :: segments, '"' ∉ p) (hinner : ∀ p ∈ segments.dropLast, p ≠ [])
    (current : String) :
    let formula := String.ofList (spliced first (texts.zip segments))
    let other := String.ofList (spliced first (others.zip segments))
    withoutTexts formula.toList = first ++ segments.flatten ∧
      mentionedCells formula current = mentionedCells other current ∧
      mentionedRanges formula current = mentionedRanges other current ∧
      mentionedFunctions formula = mentionedFunctions other ∧
      allReferences formula current = allReferences other current := by
  have hleft : ∀ ts : List (List Char), ts.length = segments.length →
      withoutTexts (String.ofList (spliced first (ts.zip segments))).toList =
        first ++ segments.flatten := by
    intro ts hts
    have hsegments : (ts.zip segments).map Prod.snd = segments :=
      List.map_snd_zip (Nat.le_of_eq hts.symm)
    rw [String.toList_ofList, withoutTexts_spliced (hsegments.symm ▸ hfree)
      (hsegments.symm ▸ hinner), hsegments]
  have hsame := (hleft texts htexts).trans (hleft others hothers).symm
  refine ⟨hleft texts htexts, ?_, ?_, ?_, ?_⟩
  all_goals simp only [allReferences, mentionedCells, mentionedRanges, mentionedFunctions, hsame]

/-- The segments of `=IF(A1,"…","…")` after its first. -/
def choiceSegments : List (List Char) :=
  [",".toList, ")".toList]

/-- A choice between a text that looks like a call and one that is a quote, and the same choice
    between no text and one that looks like a reference. -/
theorem mentions_spliced_choice :
    let texts := ["SUM(B2:B3)".toList, "\"".toList]
    let others := [[], "C4".toList]
    (texts.length = choiceSegments.length ∧ others.length = choiceSegments.length) ∧
      (∀ p ∈ "=IF(A1,".toList :: choiceSegments, '"' ∉ p) ∧
      (∀ p ∈ choiceSegments.dropLast, p ≠ []) ∧
      allReferences (String.ofList (spliced "=IF(A1,".toList (texts.zip choiceSegments))) "S" =
        allReferences
          (String.ofList (spliced "=IF(A1,".toList (others.zip choiceSegments))) "S" := by
  intro texts others
  have hfree : ∀ p ∈ "=IF(A1,".toList :: choiceSegments, '"' ∉ p := by decide
  have hinner : ∀ p ∈ choiceSegments.dropLast, p ≠ [] := by decide
  obtain ⟨-, -, -, -, hall⟩ :=
    @mentions_spliced "=IF(A1,".toList choiceSegments texts others rfl rfl hfree hinner "S"
  exact ⟨⟨rfl, rfl⟩, hfree, hinner, hall⟩

end Appraisal.Formula
