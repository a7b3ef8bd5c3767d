import Appraisal.Proofs.Address.Named
import Appraisal.Proofs.Checked
import Appraisal.Proofs.Formula.Scan
import Appraisal.Proofs.Graph.Edges

/-!
# When mentions can be spread out

The scan for ranges takes any digits for a row and any letter that matches one of A to Z without
regard to case; a cell has a row of at least one and a column in A to Z. The mentions of a formula
can be spread out exactly where the scan finds no corner that is no cell.

* `corners` — the corners of the ranges that a formula mentions; `corners_sound` — each has the
  parts of a reference;
* `Spreadable` — all of them are cells that exist; `spreadable_of_not_mem` — in a formula without
  a colon there are none;
* `allReferences_ok_iff`, `exists_allReferences_error` — the mentions of one formula;
* `spread_iff` — **of one formula and of all formulas of a snapshot**; `allReferences_unspread` —
  two formulas and a captured snapshot that have no mentions and no graph.
-/

namespace Appraisal.Formula

open Appraisal.Text

/-! ## 1. What the scan finds -/

theorem exists_read_of_mem_findAll {α : Type} {read : List Char → Option (α × List Char)}
    {skip position : Nat} {cs : List Char} {m : Found α} (h : m ∈ findAll read skip position cs) :
    ∃ text rest, read text = some (m.item, rest) := by
  induction cs generalizing skip position with
  | nil =>
    cases skip with
    | zero => cases h
    | succ skip => cases h
  | cons c cs ih =>
    cases skip with
    | succ skip => exact ih (show m ∈ findAll read skip (position + 1) cs from h)
    | zero =>
      rw [findAll] at h
      split at h
      · next item rest hread =>
        rcases List.mem_cons.mp h with rfl | h
        · exact ⟨c :: cs, rest, hread⟩
        · exact ih h
      · exact ih h

/-- Both corners of what is read for a range have the parts of a reference. -/
theorem readCorners?_sound {cs rest : List Char} {corners : CellSpelling × CellSpelling}
    (h : readCorners? cs = some (corners, rest)) :
    corners.1.Sound isCaseLetter ∧ corners.2.Sound isCaseLetter := by
  unfold readCorners? at h
  simp only [Option.bind_eq_bind, Option.bind_eq_some_iff, Prod.exists] at h
  obtain ⟨first, mid, hfirst, h⟩ := h
  split at h
  · simp only [Option.bind_eq_some_iff, Prod.exists] at h
    obtain ⟨last, after, hlast, heq⟩ := h
    cases heq
    exact ⟨readCell?_sound hfirst, readFreeCell?_sound hlast⟩
  · cases h

theorem mem_of_mem_withoutTexts {cs : List Char} {x : Char} (h : x ∈ withoutTexts cs) :
    x ∈ cs := by
  induction cs using withoutTexts.induct with
  | case1 =>
    rw [withoutTexts] at h
    exact h
  | case2 c cs text rest hread ih =>
    rw [withoutTexts] at h
    split at h
    · next text' rest' hread' =>
      rw [hread] at hread'
      cases hread'
      rw [← (readText?_text hread).1]
      exact List.mem_append_right _ (ih h)
    · next hnone =>
      rw [hread] at hnone
      cases hnone
  | case3 c cs hread ih =>
    rw [withoutTexts] at h
    split at h
    · next text rest hread' =>
      rw [hread] at hread'
      cases hread'
    · rcases List.mem_cons.mp h with rfl | h
      · exact List.mem_cons_self
      · exact List.mem_cons_of_mem c (ih h)

/-! ## 2. Corners -/

/-- The corners of the ranges that a formula mentions. -/
def corners (formula : String) : List CellSpelling :=
  (rangesIn (withoutTexts formula.toList)).flatMap fun m => [m.item.2.1, m.item.2.2]

/-- The corners of all ranges that the formula mentions are cells that exist. -/
def Spreadable (formula : String) : Prop :=
  ∀ c ∈ corners formula, c.NamesCell

instance (formula : String) : Decidable (Spreadable formula) :=
  inferInstanceAs (Decidable (∀ c ∈ corners formula, c.NamesCell))

section Corners

variable {formula current : String}

theorem mem_mentionedRanges {span : String} : span ∈ mentionedRanges formula current ↔
    ∃ m ∈ rangesIn (withoutTexts formula.toList), spanKey current m.item = span := by
  rw [mentionedRanges, List.mem_eraseDups, List.mem_map]

theorem mem_corners {m : Found (SheetPrefix × CellSpelling × CellSpelling)}
    (h : m ∈ rangesIn (withoutTexts formula.toList)) :
    m.item.2.1 ∈ corners formula ∧ m.item.2.2 ∈ corners formula :=
  ⟨List.mem_flatMap.mpr ⟨m, h, List.mem_cons_self⟩,
    List.mem_flatMap.mpr ⟨m, h, List.mem_cons_of_mem _ (List.mem_singleton_self _)⟩⟩

/-- **Each corner that the scan finds has the parts of a reference.** -/
theorem corners_sound {m : Found (SheetPrefix × CellSpelling × CellSpelling)}
    (h : m ∈ rangesIn (withoutTexts formula.toList)) :
    m.item.2.1.Sound isCaseLetter ∧ m.item.2.2.Sound isCaseLetter := by
  obtain ⟨text, rest, hread⟩ := exists_read_of_mem_findAll h
  exact (withSheet?_sound readCorners?_sound hread).2

/-- A formula without a colon mentions no range. -/
theorem spreadable_of_not_mem (h : ':' ∉ formula.toList) : Spreadable formula := by
  have hcolon : ':' ∉ withoutTexts formula.toList := fun hmem => h (mem_of_mem_withoutTexts hmem)
  have hpass := findAll_pass (n := 0)
    (readRangeMention?_pass (w := []) hcolon free_nil (quoteClear_of_not_mem List.not_mem_nil))
  intro c hc
  obtain ⟨m, hm, -⟩ := List.mem_flatMap.mp hc
  rw [rangesIn, ← List.append_nil (withoutTexts _), hpass] at hm
  cases hm

/-! ## 3. Spreading out -/

theorem expandRange_ok_iff (current : String)
    {m : Found (SheetPrefix × CellSpelling × CellSpelling)}
    (h : m ∈ rangesIn (withoutTexts formula.toList)) :
    (∃ keys, expandRange (spanKey current m.item) = .ok keys) ↔
      m.item.2.1.NamesCell ∧ m.item.2.2.NamesCell := by
  obtain ⟨hfirst, hlast⟩ := corners_sound h
  refine ⟨fun hkeys => ?_, fun hcells => exists_expandRange hfirst hlast hcells⟩
  obtain ⟨keys, hkeys⟩ := hkeys
  refine Decidable.byContradiction fun hcells => ?_
  obtain ⟨c, -, -, herror⟩ := expandRange_error (p := m.item.1) current hfirst hlast hcells
  rw [herror] at hkeys
  cases hkeys

/-- The mentions of a formula can be spread out iff each of its ranges can. -/
theorem spreadable_iff_ranges (current : String) : Spreadable formula ↔
    ∀ span ∈ mentionedRanges formula current, ∃ keys, expandRange span = .ok keys := by
  refine ⟨fun h span hspan => ?_, fun h c hc => ?_⟩
  · obtain ⟨m, hm, rfl⟩ := mem_mentionedRanges.mp hspan
    exact (expandRange_ok_iff current hm).mpr ⟨h _ (mem_corners hm).1, h _ (mem_corners hm).2⟩
  · obtain ⟨m, hm, hc⟩ := List.mem_flatMap.mp hc
    have hcells := (expandRange_ok_iff current hm).mp (h _ (mem_mentionedRanges.mpr ⟨m, hm, rfl⟩))
    rcases List.mem_cons.mp hc with rfl | hc
    · exact hcells.1
    · rw [List.mem_singleton.mp hc]
      exact hcells.2

/-- Where the mentions cannot be spread out, the error names a corner that is no cell. -/
theorem exists_allReferences_error (h : ¬ Spreadable formula) (current : String) :
    ∃ c ∈ corners formula, ¬ c.NamesCell ∧
      allReferences formula current = .error (.notAReference (String.ofList (bareCell c))) := by
  rw [spreadable_iff_ranges current] at h
  obtain ⟨span, hspan, fault, hfault, hspread⟩ := exists_mapM_error h
  obtain ⟨m, hm, rfl⟩ := mem_mentionedRanges.mp hspan
  obtain ⟨hfirst, hlast⟩ := corners_sound hm
  have hcells : ¬ (m.item.2.1.NamesCell ∧ m.item.2.2.NamesCell) := by
    rw [← expandRange_ok_iff current hm, hfault]
    exact nofun
  obtain ⟨c, hc, hnames, herror⟩ := expandRange_error (p := m.item.1) current hfirst hlast hcells
  refine ⟨c, ?_, hnames, ?_⟩
  · rcases hc with rfl | rfl
    · exact (mem_corners hm).1
    · exact (mem_corners hm).2
  · rw [allReferences, hspread, ← herror, hfault]
    rfl

theorem allReferences_ok_iff (current : String) :
    (∃ refs, allReferences formula current = .ok refs) ↔ Spreadable formula := by
  refine ⟨fun h => Decidable.byContradiction fun hno => ?_, fun h => ?_⟩
  · obtain ⟨refs, hrefs⟩ := h
    obtain ⟨c, -, -, herror⟩ := exists_allReferences_error hno current
    rw [herror] at hrefs
    cases hrefs
  · obtain ⟨spread, hspread, -⟩ := exists_mapM_ok ((spreadable_iff_ranges current).mp h)
    exact ⟨_, by rw [allReferences, hspread]; rfl⟩

end Corners

/-! ## 4. Snapshots -/

section Snapshots

variable {s : Snapshot}

theorem registrations_ok_iff :
    (∀ r ∈ (Graph.formulaCells s).map Graph.registrationOf, ∃ refs, r.mentions = .ok refs) ↔
      ∀ p ∈ Graph.formulaCells s, Spreadable p.2.formulaText := by
  rw [List.forall_mem_map]
  exact forall₂_congr fun p _ => allReferences_ok_iff p.1

theorem ofSnapshot_ok_iff : (∃ g, Graph.ofSnapshot s = .ok g) ↔
    ∀ p ∈ Graph.formulaCells s, Spreadable p.2.formulaText := by
  rw [Graph.ofSnapshot_eq, Graph.registerAll_ok_iff, registrations_ok_iff]

/-- Where a snapshot has no graph, the error names a corner that is no cell. -/
theorem exists_ofSnapshot_error
    (h : ¬ ∀ p ∈ Graph.formulaCells s, Spreadable p.2.formulaText) :
    ∃ p ∈ Graph.formulaCells s, ∃ c ∈ corners p.2.formulaText, ¬ c.NamesCell ∧
      Graph.ofSnapshot s = .error (.notAReference (String.ofList (bareCell c))) := by
  rw [← registrations_ok_iff] at h
  obtain ⟨r, hr, fault, hfault, hseries⟩ := Graph.registerAll_error (g := Graph.empty) h
  obtain ⟨p, hp, rfl⟩ := List.mem_map.mp hr
  have hfault : allReferences p.2.formulaText p.1 = .error fault := hfault
  have hno : ¬ Spreadable p.2.formulaText := by
    rw [← allReferences_ok_iff p.1, hfault]
    exact nofun
  obtain ⟨c, hc, hnames, herror⟩ := exists_allReferences_error hno p.1
  rw [hfault] at herror
  cases herror
  exact ⟨p, hp, c, hc, hnames, (Graph.ofSnapshot_eq s).trans hseries⟩

/-- **The mentions of a formula can be spread out exactly if the corners of its ranges are cells
    that exist**, whatever sheet it stands on, and a snapshot has a graph exactly if this holds of
    all its formulas; else the error names a corner that is no cell. -/
theorem spread_iff (formula current : String) (s : Snapshot) :
    ((∃ refs, allReferences formula current = .ok refs) ↔ Spreadable formula) ∧
      (¬ Spreadable formula ↔ ∃ c ∈ corners formula, ¬ c.NamesCell ∧
        allReferences formula current = .error (.notAReference (String.ofList (bareCell c)))) ∧
      ((∃ g, Graph.ofSnapshot s = .ok g) ↔
        ∀ p ∈ Graph.formulaCells s, Spreadable p.2.formulaText) ∧
      ((¬ ∀ p ∈ Graph.formulaCells s, Spreadable p.2.formulaText) ↔
        ∃ p ∈ Graph.formulaCells s, ∃ c ∈ corners p.2.formulaText, ¬ c.NamesCell ∧
          Graph.ofSnapshot s = .error (.notAReference (String.ofList (bareCell c)))) := by
  refine ⟨allReferences_ok_iff current, ⟨fun h => exists_allReferences_error h current, fun h hall => ?_⟩,
    ofSnapshot_ok_iff, ⟨exists_ofSnapshot_error, fun h hall => ?_⟩⟩
  · obtain ⟨c, hc, hnames, -⟩ := h
    exact hnames (hall c hc)
  · obtain ⟨p, hp, c, hc, hnames, -⟩ := h
    exact hnames (hall p hp c hc)

end Snapshots

/-- A captured workbook with a formula beyond the grammar, whose range begins in row zero. -/
def rowZero : Value :=
  .mapping [("S", .mapping [("cells", .mapping [("B1", .text "=SUM(A0:A3)"),
    ("C1", .text "=1+1")])])]

/-- **Not every formula has mentions**: a row may be zero, and the Kelvin sign is read for a K but
    does not become one in upper case. The captured workbook has no graph. -/
theorem allReferences_unspread :
    allReferences "=SUM(A0:A3)" "S" = .error (.notAReference "A0") ∧
      allReferences "=SUM(\u212a1:\u212a1)" "S" = .error (.notAReference "\u212a1") ∧
      ∃ s, Snapshot.ofValue rowZero = .ok s ∧
        Graph.ofSnapshot s = .error (.notAReference "A0") := by
  have hzero : ¬ Spreadable "=SUM(A0:A3)" ∧ ∀ c ∈ corners "=SUM(A0:A3)", ¬ c.NamesCell →
      String.ofList (bareCell c) = "A0" := by decide +kernel
  have hkelvin : ¬ Spreadable "=SUM(\u212a1:\u212a1)" ∧ ∀ c ∈ corners "=SUM(\u212a1:\u212a1)",
      ¬ c.NamesCell → String.ofList (bareCell c) = "\u212a1" := by decide +kernel
  obtain ⟨s, hs, hsome, hall⟩ : ∃ s ∈ (Snapshot.ofValue rowZero).toOption,
      (¬ ∀ p ∈ Graph.formulaCells s, Spreadable p.2.formulaText) ∧
        ∀ p ∈ Graph.formulaCells s, ∀ c ∈ corners p.2.formulaText, ¬ c.NamesCell →
          String.ofList (bareCell c) = "A0" := by decide +kernel
  obtain ⟨c, hc, hnames, hfirst⟩ := exists_allReferences_error hzero.1 "S"
  obtain ⟨d, hd, hnames', hsecond⟩ := exists_allReferences_error hkelvin.1 "S"
  obtain ⟨p, hp, e, he, hnames'', hthird⟩ := exists_ofSnapshot_error hsome
  rw [hzero.2 c hc hnames] at hfirst
  rw [hkelvin.2 d hd hnames'] at hsecond
  rw [hall p hp e he hnames''] at hthird
  exact ⟨hfirst, hsecond, s, eq_ok_of_toOption hs, hthird⟩

end Appraisal.Formula
