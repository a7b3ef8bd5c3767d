import Appraisal.Proofs.Snapshot.Shape

/-!
# Well-formed snapshots

Each sheet of a snapshot goes by its own name, each cell of a sheet by its own reference, and each
cell knows the reference that it goes by. Every snapshot that is built from captured data is like
this.

* `Snapshot.WellFormed` — the condition;
* `WellFormed.cell?_of_mem` — a cell is found under the reference that it goes by;
* `Snapshot.ofValue_wellFormed` — **what captured data builds is well-formed**.
-/

namespace Appraisal

/-! ## 1. Snapshots -/

/-- Cells in a sheet each go by their own reference, and know it. -/
structure Sheet.WellFormed (cells : Listing Cell) : Prop where
  names : cells.names.Nodup
  addresses : ∀ c ∈ cells, c.2.address = c.1

instance (cells : Listing Cell) : Decidable (Sheet.WellFormed cells) :=
  decidable_of_iff (cells.names.Nodup ∧ ∀ c ∈ cells, c.2.address = c.1)
    ⟨fun h => ⟨h.1, h.2⟩, fun h => ⟨h.names, h.addresses⟩⟩

/-- Sheets each go by their own name, and their cells are in order. -/
structure Snapshot.WellFormed (s : Snapshot) : Prop where
  names : s.names.Nodup
  sheets : ∀ e ∈ s.sheets, Sheet.WellFormed e.2.cells

instance (s : Snapshot) : Decidable s.WellFormed :=
  decidable_of_iff (s.names.Nodup ∧ ∀ e ∈ s.sheets, Sheet.WellFormed e.2.cells)
    ⟨fun h => ⟨h.1, h.2⟩, fun h => ⟨h.names, h.sheets⟩⟩

theorem Snapshot.WellFormed.cell?_of_mem {s : Snapshot} (h : s.WellFormed) {name ref : String}
    {sh : Sheet} {c : Cell} (hs : (name, sh) ∈ s.sheets) (hc : (ref, c) ∈ sh.cells)
    (hbare : bareReference ref = ref) : s.cell? name ref = some c := by
  rw [cell?, Listing.get?_of_mem h.names hs, Option.bind_some, Sheet.cell?, hbare]
  exact Listing.get?_of_mem (h.sheets _ hs).names hc

theorem Cell.ofParts_address (ref : String) (value : Scalar) (formula : Option String) :
    (Cell.ofParts ref value formula).address = ref := by
  unfold Cell.ofParts
  split
  · split
    all_goals rfl
  · rfl
  · rfl

theorem Cell.ofValue_address {sheet ref : String} {v : Value} {c : Cell}
    (h : Cell.ofValue sheet ref v = .ok c) : c.address = ref := by
  obtain ⟨s, f, -, -, rfl⟩ := exists_of_ofValue h
  exact ofParts_address ref s f

theorem Sheet.cellsOf_wellFormed {name : String} {entries : List (String × Value)}
    {cells : Listing Cell} (h : Sheet.cellsOf name entries = .ok cells) :
    Sheet.WellFormed cells := by
  rw [cellsOf_eq] at h
  refine ⟨nodup_names_keepAll h, fun c hc => ?_⟩
  obtain ⟨e, -, hkey, hbuilt⟩ := exists_of_mem_keepAll h hc
  exact (Cell.ofValue_address hbuilt).trans hkey

theorem Sheet.ofValue_wellFormed {name : String} {v : Value} {s : Sheet}
    (h : Sheet.ofValue name v = .ok s) : Sheet.WellFormed s.cells := by
  obtain ⟨entries, -, hkept, -⟩ := Sheet.exists_of_ofValue h
  exact Sheet.cellsOf_wellFormed hkept

/-- **The snapshot of captured data is well-formed.** -/
theorem Snapshot.ofValue_wellFormed {v : Value} {s : Snapshot} (h : Snapshot.ofValue v = .ok s) :
    s.WellFormed := by
  cases v with
  | scalar _ => cases h
  | list _ => cases h
  | mapping entries =>
    have hkept := ofValue_mapping_iff.mp h
    refine ⟨nodup_names_keepAll hkept, fun p hp => ?_⟩
    obtain ⟨e, -, -, hbuilt⟩ := exists_of_mem_keepAll hkept hp
    exact Sheet.ofValue_wellFormed hbuilt

end Appraisal
