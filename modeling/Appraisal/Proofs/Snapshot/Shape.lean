import Appraisal.Proofs.Keeping
import Appraisal.Snapshot

/-!
# What captured data look like

Captured data nest two mappings, of sheets and of cells, and are checked on the way down: a sheet
when it is reached, a cell when it is built. The first defect stops the reading, but whether there
is one is seen from the data alone, and so is what is built where there is none.

* `Value.IsCell`, `Value.Malformed` — what a cell may be captured as, and the three ways in which
  data are malformed;
* `Fault.isMalformedSnapshot` — the faults that say so;
* `Value.stored` — what is captured for the value and for the formula of a cell;
* `Cell.exists_ofValue_iff`, `Sheet.exists_ofValue_iff`, `Snapshot.exists_ofValue_iff` — **a cell, a
  sheet and a snapshot are built exactly where nothing is malformed**;
* `Sheet.Captures`, `Snapshot.Captures` — the sheets and cells of captured data, each in the place
  of the first entry of its name and built from the last one;
* `Snapshot.ofValue_exact` — captured data are malformed and blamed for it, or captured.
-/

namespace Appraisal

/-! ## 1. Shapes -/

/-- What a cell may be captured as: a scalar, or a mapping whose value is absent or a scalar and
    whose formula is absent, blank or a text. -/
def Value.IsCell : Value → Prop
  | .scalar _ => True
  | .list _ => False
  | .mapping entries =>
    (∀ v, Listing.get? entries "value" = some v → ∃ s, v = .scalar s) ∧
      ∀ v, Listing.get? entries "formula" = some v → v = .blank ∨ ∃ t, v = .text t

/-- The ways in which captured data are malformed. -/
inductive Value.Malformed : Value → Prop where
  /-- They are no mapping. -/
  | notMapping {data : Value} (h : ∀ sheets, data ≠ .mapping sheets) : data.Malformed
  /-- A sheet is no mapping with a mapping of cells. -/
  | withoutCells {sheets : List (String × Value)} {sheet : String × Value} (hsheet : sheet ∈ sheets)
      (h : ∀ entries cells, sheet.2 = .mapping entries →
        Listing.get? entries "cells" ≠ some (.mapping cells)) : (Value.mapping sheets).Malformed
  /-- A cell is captured as something that no cell may be. -/
  | badCell {sheets entries cells : List (String × Value)} {sheet cell : String × Value}
      (hsheet : sheet ∈ sheets) (hentries : sheet.2 = .mapping entries)
      (hcells : Listing.get? entries "cells" = some (.mapping cells)) (hcell : cell ∈ cells)
      (h : ¬ cell.2.IsCell) : (Value.mapping sheets).Malformed

/-- Whether a fault says that a snapshot is malformed. -/
def Fault.isMalformedSnapshot : Fault → Bool
  | .snapshotNotMapping _ | .sheetWithoutCells _ | .cellValueNotScalar .. | .cellFormulaNotText ..
  | .cellUnsupported .. | .notJson => true
  | _ => false

theorem cellEntries?_eq_some_iff {v : Value} {cells : List (String × Value)} :
    cellEntries? v = some cells ↔
      ∃ entries, v = .mapping entries ∧ Listing.get? entries "cells" = some (.mapping cells) := by
  unfold cellEntries?
  constructor
  · intro h
    split at h
    · next entries =>
      split at h
      · next cells' hcells =>
        cases h
        exact ⟨entries, rfl, hcells⟩
      · cases h
    · cases h
  · rintro ⟨entries, rfl, hcells⟩
    simp only [hcells]

/-! ## 2. Cells -/

/-- What is captured for the value and for the formula of a cell. -/
def Value.stored : Value → Option Value × Option Value
  | .mapping entries => (Listing.get? entries "value", Listing.get? entries "formula")
  | v => (some v, none)

section Cells

variable {sheet ref : String} {fault : Fault}

theorem exists_storedValue_iff (sheet ref : String) {v : Option Value} :
    (∃ s, storedValue sheet ref v = .ok s) ↔ ∀ u, v = some u → ∃ s, u = .scalar s := by
  cases v with
  | none => exact ⟨fun _ => nofun, fun _ => ⟨.blank, rfl⟩⟩
  | some u =>
    cases u with
    | scalar s =>
      refine ⟨fun _ u hu => ?_, fun _ => ⟨s, rfl⟩⟩
      cases hu
      exact ⟨s, rfl⟩
    | list vs => exact ⟨nofun, fun h => nomatch h _ rfl⟩
    | mapping es => exact ⟨nofun, fun h => nomatch h _ rfl⟩

theorem isMalformedSnapshot_of_storedValue {v : Option Value}
    (h : storedValue sheet ref v = .error fault) : fault.isMalformedSnapshot = true := by
  unfold storedValue at h
  split at h
  · cases h
  · cases h
  · cases h
    rfl

theorem exists_storedFormula_iff (sheet ref : String) {v : Option Value} :
    (∃ f, storedFormula sheet ref v = .ok f) ↔
      ∀ u, v = some u → u = .blank ∨ ∃ t, u = .text t := by
  unfold storedFormula
  split
  · exact ⟨fun _ => nofun, fun _ => ⟨none, rfl⟩⟩
  · refine ⟨fun _ u hu => ?_, fun _ => ⟨none, rfl⟩⟩
    cases hu
    exact Or.inl rfl
  · next t =>
    refine ⟨fun _ u hu => ?_, fun _ => ⟨some t, rfl⟩⟩
    cases hu
    exact Or.inr ⟨t, rfl⟩
  · next u hblank htext =>
    refine ⟨nofun, fun h => ?_⟩
    rcases h u rfl with rfl | ⟨t, rfl⟩
    · exact (hblank rfl).elim
    · exact (htext t rfl).elim

theorem isMalformedSnapshot_of_storedFormula {v : Option Value}
    (h : storedFormula sheet ref v = .error fault) : fault.isMalformedSnapshot = true := by
  unfold storedFormula at h
  split at h
  · cases h
  · cases h
  · cases h
  · cases h
    rfl

/-- A cell is built of its stored value and its stored formula. -/
theorem Cell.exists_of_ofValue {v : Value} {c : Cell} (h : Cell.ofValue sheet ref v = .ok c) :
    ∃ s f, storedValue sheet ref v.stored.1 = .ok s ∧ storedFormula sheet ref v.stored.2 = .ok f ∧
      c = .ofParts ref s f := by
  cases v with
  | scalar s =>
    cases h
    exact ⟨s, none, rfl, rfl, rfl⟩
  | list vs => cases h
  | mapping entries =>
    obtain ⟨s, hs, h⟩ := exists_of_bind_ok h
    obtain ⟨f, hf, h⟩ := exists_of_bind_ok h
    cases h
    exact ⟨s, f, hs, hf, rfl⟩

/-- **A cell is built exactly from what a cell may be captured as.** -/
theorem Cell.exists_ofValue_iff (sheet ref : String) (v : Value) :
    (∃ c, Cell.ofValue sheet ref v = .ok c) ↔ v.IsCell := by
  cases v with
  | scalar s => exact ⟨fun _ => trivial, fun _ => ⟨_, rfl⟩⟩
  | list vs => exact ⟨nofun, False.elim⟩
  | mapping entries =>
    rw [Value.IsCell, ← exists_storedValue_iff sheet ref, ← exists_storedFormula_iff sheet ref]
    constructor
    · intro ⟨c, h⟩
      obtain ⟨s, f, hs, hf, -⟩ := Cell.exists_of_ofValue h
      exact ⟨⟨s, hs⟩, f, hf⟩
    · rintro ⟨⟨s, hs⟩, f, hf⟩
      refine ⟨.ofParts ref s f, ?_⟩
      rw [Cell.ofValue, hs]
      show storedFormula sheet ref _ >>= _ = _
      rw [hf]
      rfl

theorem Cell.isMalformedSnapshot_of_ofValue {v : Value}
    (h : Cell.ofValue sheet ref v = .error fault) : fault.isMalformedSnapshot = true := by
  cases v with
  | scalar s => cases h
  | list vs =>
    cases h
    rfl
  | mapping entries =>
    rw [Cell.ofValue] at h
    cases hs : storedValue sheet ref (Listing.get? entries "value") with
    | error e =>
      rw [hs] at h
      cases h
      exact isMalformedSnapshot_of_storedValue hs
    | ok s =>
      cases hf : storedFormula sheet ref (Listing.get? entries "formula") with
      | error e =>
        rw [hs, hf] at h
        cases h
        exact isMalformedSnapshot_of_storedFormula hf
      | ok f =>
        rw [hs, hf] at h
        cases h

end Cells

/-! ## 3. Sheets -/

/-- The cells of a captured sheet are kept one after the other, each under its bare reference. -/
theorem Sheet.cellsOf_eq (name : String) (entries : List (String × Value)) :
    Sheet.cellsOf name entries = keepAll (fun e => bareReference e.1)
      (fun e => Cell.ofValue name (bareReference e.1) e.2) entries [] :=
  rfl

section Sheets

variable {name : String} {v : Value} {fault : Fault}

theorem Sheet.exists_of_ofValue {sheet : Sheet} (h : Sheet.ofValue name v = .ok sheet) :
    ∃ cells, cellEntries? v = some cells ∧ Sheet.cellsOf name cells = .ok sheet.cells ∧
      sheet.name = name := by
  unfold Sheet.ofValue at h
  cases hcells : cellEntries? v with
  | none =>
    rw [hcells] at h
    cases h
  | some cells =>
    rw [hcells] at h
    obtain ⟨kept, hkept, rfl⟩ := exists_of_map_ok h
    exact ⟨cells, rfl, hkept, rfl⟩

/-- **A sheet is built exactly from a mapping with a mapping of what cells may be captured as.** -/
theorem Sheet.exists_ofValue_iff (name : String) (v : Value) :
    (∃ s, Sheet.ofValue name v = .ok s) ↔
      ∃ cells, cellEntries? v = some cells ∧ ∀ c ∈ cells, c.2.IsCell := by
  unfold Sheet.ofValue
  cases hcells : cellEntries? v with
  | none => exact ⟨nofun, nofun⟩
  | some cells =>
    have hbuilt : (∃ kept, Sheet.cellsOf name cells = .ok kept) ↔ ∀ c ∈ cells, c.2.IsCell := by
      rw [Sheet.cellsOf_eq, exists_keepAll_iff]
      exact forall₂_congr fun c _ => Cell.exists_ofValue_iff name (bareReference c.1) c.2
    constructor
    · rintro ⟨s, hs⟩
      obtain ⟨kept, hkept, -⟩ := exists_of_map_ok hs
      exact ⟨cells, rfl, hbuilt.mp ⟨kept, hkept⟩⟩
    · rintro ⟨cells', hsame, hall⟩
      cases hsame
      obtain ⟨kept, hkept⟩ := hbuilt.mpr hall
      exact ⟨⟨name, kept⟩, by simp only [hkept]; rfl⟩

theorem Sheet.isMalformedSnapshot_of_ofValue (h : Sheet.ofValue name v = .error fault) :
    fault.isMalformedSnapshot = true := by
  unfold Sheet.ofValue at h
  cases hcells : cellEntries? v with
  | none =>
    rw [hcells] at h
    cases h
    rfl
  | some cells =>
    rw [hcells] at h
    cases hkept : Sheet.cellsOf name cells with
    | ok kept =>
      simp only [hkept] at h
      cases h
    | error e =>
      simp only [hkept] at h
      cases h
      rw [Sheet.cellsOf_eq, keepAll_error_iff] at hkept
      obtain ⟨c, -, hc⟩ := hkept.mem
      exact Cell.isMalformedSnapshot_of_ofValue hc

/-- The sheet has the captured cells: each bare reference in the place where it first comes, with
    the cell that is built from the last entry for it. -/
structure Sheet.Captures (sheet : Sheet) (name : String) (cells : List (String × Value)) :
    Prop where
  name_eq : sheet.name = name
  refs : sheet.cells.names = (cells.map (bareReference ·.1)).eraseDups
  cells : ∀ c ∈ sheet.cells, ∃ e, cells.reverse.find? (bareReference ·.1 == c.1) = some e ∧
    Cell.ofValue name c.1 e.2 = .ok c.2

theorem Sheet.captures_of_ofValue {sheet : Sheet} (h : Sheet.ofValue name v = .ok sheet) :
    ∃ cells, cellEntries? v = some cells ∧ sheet.Captures name cells := by
  obtain ⟨cells, hcells, hkept, hname⟩ := Sheet.exists_of_ofValue h
  rw [Sheet.cellsOf_eq] at hkept
  refine ⟨cells, hcells, hname, names_keepAll hkept, fun c hc => ?_⟩
  obtain ⟨e, hlast, hbare, hbuilt⟩ := exists_of_mem_keepAll hkept hc
  rw [hbare] at hbuilt
  exact ⟨e, hlast, hbuilt⟩

end Sheets

/-! ## 4. Snapshots -/

namespace Snapshot

variable {sheets : List (String × Value)} {s : Snapshot} {fault : Fault}

theorem ofValue_mapping_eq (sheets : List (String × Value)) :
    ofValue (.mapping sheets) = (keepAll (fun e : String × Value => e.1)
      (fun e => Sheet.ofValue e.1 e.2) sheets []).map Snapshot.mk := by
  have hload : ofValue (.mapping sheets) = (keepAll (fun e : String × Value => e.1)
      (fun e => Sheet.ofValue e.1 e.2) sheets []).bind fun kept => .ok ⟨kept⟩ := rfl
  rw [hload]
  cases keepAll (fun e : String × Value => e.1) (fun e => Sheet.ofValue e.1 e.2) sheets [] <;> rfl

/-- The snapshot of captured data keeps one sheet after the other, each under its name. -/
theorem ofValue_mapping_iff :
    ofValue (.mapping sheets) = .ok s ↔
      keepAll (fun e : String × Value => e.1) (fun e => Sheet.ofValue e.1 e.2) sheets [] =
        .ok s.sheets := by
  rw [ofValue_mapping_eq]
  constructor
  · intro h
    obtain ⟨kept, hkept, rfl⟩ := exists_of_map_ok h
    exact hkept
  · intro h
    rw [h]
    rfl

/-- Captured data fail as the first sheet that cannot be built. -/
theorem ofValue_error_iff :
    ofValue (.mapping sheets) = .error fault ↔
      FailsFirst (fun e : String × Value => Sheet.ofValue e.1 e.2) sheets fault := by
  rw [ofValue_mapping_eq, ← keepAll_error_iff (fun e : String × Value => e.1)]
  cases keepAll (fun e : String × Value => e.1) (fun e => Sheet.ofValue e.1 e.2) sheets []
  · exact ⟨fun h => by cases h; rfl, fun h => by cases h; rfl⟩
  · exact ⟨nofun, nofun⟩

theorem isMalformedSnapshot_of_ofValue {data : Value} (h : ofValue data = .error fault) :
    fault.isMalformedSnapshot = true := by
  cases data with
  | scalar _ | list _ =>
    cases h
    rfl
  | mapping sheets =>
    obtain ⟨e, -, he⟩ := (ofValue_error_iff.mp h).mem
    exact Sheet.isMalformedSnapshot_of_ofValue he

/-- **A snapshot is built exactly from data that are not malformed.** -/
theorem exists_ofValue_iff (data : Value) : (∃ s, ofValue data = .ok s) ↔ ¬ data.Malformed := by
  cases data with
  | scalar _ | list _ => exact ⟨nofun, fun h => (h (.notMapping nofun)).elim⟩
  | mapping sheets =>
    have hbuilt : (∃ s, ofValue (.mapping sheets) = .ok s) ↔
        ∀ e ∈ sheets, ∃ cells, cellEntries? e.2 = some cells ∧ ∀ c ∈ cells, c.2.IsCell := by
      refine Iff.trans ?_ ((exists_keepAll_iff (fun e : String × Value => e.1)
        (fun e => Sheet.ofValue e.1 e.2) sheets []).trans
          (forall₂_congr fun e _ => Sheet.exists_ofValue_iff e.1 e.2))
      constructor
      · rintro ⟨s, hs⟩
        exact ⟨s.sheets, ofValue_mapping_iff.mp hs⟩
      · rintro ⟨kept, hkept⟩
        exact ⟨⟨kept⟩, ofValue_mapping_iff.mpr hkept⟩
    rw [hbuilt]
    constructor
    · intro hall hmalformed
      cases hmalformed with
      | notMapping h => exact h sheets rfl
      | withoutCells hsheet h =>
        obtain ⟨cells, hcells, -⟩ := hall _ hsheet
        obtain ⟨entries, hentries, hget⟩ := cellEntries?_eq_some_iff.mp hcells
        exact h entries cells hentries hget
      | badCell hsheet hentries hget hcell h =>
        obtain ⟨cells, hcells, hgood⟩ := hall _ hsheet
        cases hcells.symm.trans (cellEntries?_eq_some_iff.mpr ⟨_, hentries, hget⟩)
        exact h (hgood _ hcell)
    · intro h e he
      cases hcells : cellEntries? e.2 with
      | none =>
        refine (h (.withoutCells he fun entries cells hentries hget => ?_)).elim
        rw [cellEntries?_eq_some_iff.mpr ⟨entries, hentries, hget⟩] at hcells
        cases hcells
      | some cells =>
        obtain ⟨entries, hentries, hget⟩ := cellEntries?_eq_some_iff.mp hcells
        refine ⟨cells, rfl, fun c hc => ?_⟩
        by_contra hbad
        exact h (.badCell he hentries hget hc hbad)

/-- The snapshot has the captured sheets: each name in the place where it first comes, with the
    cells of the last entry of that name. -/
structure Captures (s : Snapshot) (sheets : List (String × Value)) : Prop where
  names : s.names = (sheets.map (·.1)).eraseDups
  sheets : ∀ p ∈ s.sheets, ∃ e cells, sheets.reverse.find? (·.1 == p.1) = some e ∧
    cellEntries? e.2 = some cells ∧ p.2.Captures p.1 cells

theorem captures_of_ofValue (h : ofValue (.mapping sheets) = .ok s) : s.Captures sheets := by
  have hkept := ofValue_mapping_iff.mp h
  refine ⟨names_keepAll hkept, fun p hp => ?_⟩
  obtain ⟨e, hlast, hname, hbuilt⟩ := exists_of_mem_keepAll hkept hp
  rw [hname] at hbuilt
  obtain ⟨cells, hcells, hcaptures⟩ := Sheet.captures_of_ofValue hbuilt
  exact ⟨e, cells, hlast, hcells, hcaptures⟩

/-- Sheets of distinct names keep their order. -/
theorem names_of_nodup (h : ofValue (.mapping sheets) = .ok s) (hn : (sheets.map (·.1)).Nodup) :
    s.names = sheets.map (·.1) := by
  rw [(captures_of_ofValue h).names]
  exact eraseDups_of_nodup hn

/-- **Captured data are malformed and blamed for it, or they are captured**: where they are no
    mapping, a sheet is no mapping with a mapping of cells, or a cell is captured as what no cell
    may be, the fault says so; and else there is a snapshot with the sheets in the order of the data and
    in each sheet, for every bare reference in the order in which these first come, the cell built
    from the last entry for it. -/
theorem ofValue_exact (data : Value) :
    (data.Malformed ∧ ∃ fault, ofValue data = .error fault ∧ fault.isMalformedSnapshot = true) ∨
    (¬ data.Malformed ∧ ∃ sheets s, data = .mapping sheets ∧ ofValue data = .ok s ∧
      s.Captures sheets ∧ ((sheets.map (·.1)).Nodup → s.names = sheets.map (·.1))) := by
  cases hdata : ofValue data with
  | error fault =>
    refine Or.inl ⟨?_, fault, rfl, isMalformedSnapshot_of_ofValue hdata⟩
    by_contra hgood
    obtain ⟨s, hs⟩ := (exists_ofValue_iff data).mpr hgood
    rw [hdata] at hs
    cases hs
  | ok s =>
    refine Or.inr ⟨(exists_ofValue_iff data).mp ⟨s, hdata⟩, ?_⟩
    cases data with
    | scalar _ | list _ => cases hdata
    | mapping sheets =>
      exact ⟨sheets, s, rfl, rfl, captures_of_ofValue hdata, names_of_nodup hdata⟩

/-- Two captured sheets, with two entries for one cell of the first. -/
def capturedTwice : List (String × Value) :=
  [("S", .mapping [("cells", .mapping [("B2", .whole 1), ("A1", .mapping [("value", .blank)]),
      (" $b$2", .mapping [("value", .text "=A1"), ("formula", .blank)])])]),
    ("T", .mapping [("cells", .mapping [])])]

theorem ofValue_exact_capturedTwice :
    ¬ (Value.mapping capturedTwice).Malformed ∧
      ∃ s, ofValue (.mapping capturedTwice) = .ok s ∧ s.Captures capturedTwice ∧
        s.names = ["S", "T"] ∧
        s.cell? "S" "B2" = some ⟨"B2", .blank, some "=A1"⟩ ∧
        (s.sheets.get? "S").map (fun sheet => sheet.cells.names) = some ["B2", "A1"] := by
  obtain ⟨s, hs, hcells⟩ : ∃ s ∈ (ofValue (.mapping capturedTwice)).toOption,
      s.cell? "S" "B2" = some ⟨"B2", .blank, some "=A1"⟩ ∧
      (s.sheets.get? "S").map (fun sheet => sheet.cells.names) = some ["B2", "A1"] := by decide
  have hload := eq_ok_of_toOption hs
  rcases ofValue_exact (.mapping capturedTwice) with ⟨-, fault, hfault, -⟩ | ⟨hgood, hkept⟩
  · rw [hload] at hfault
    cases hfault
  · obtain ⟨sheets, t, hsheets, ht, hcaptures, hnames⟩ := hkept
    cases hsheets
    cases hload.symm.trans ht
    exact ⟨hgood, s, hload, hcaptures, hnames (by decide), hcells⟩

end Snapshot

end Appraisal
