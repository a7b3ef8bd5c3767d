import Appraisal.Proofs.Evaluation.Steady

/-!
# What the headline figures are

The headline figures are what the keys that they stand under are worth, whatever is settled before.

* `refKey?`, `refValue` — the key that a reference stands for, and what stands there;
* `FigureMap.keys`, `FigureMap.figures` — the keys of the figures, and the figures for given values
  of the keys;
* `Workbook.gives_keyFigures` — **the figures are the worths of their keys**.
-/

namespace Appraisal

/-! ## 1. References -/

/-- The key that a reference in a sheet stands for. -/
def refKey? (sheet ref : String) : Option String :=
  (Address.read? (splitSheet ref).2).map fun a =>
    ({ a with sheet := (splitSheet ref).1 } : Address).key sheet

/-- What stands under a reference, given what stands under each key. -/
def refValue (value : String → Value) (sheet ref : String) : Value :=
  ((refKey? sheet ref).map value).getD .blank

namespace FigureMap

/-- The references of the Earth figures in a column. -/
def earthRefs (m : FigureMap) (column : String) : List String :=
  [m.earthRevenueRow, m.earthCostsRow, m.earthTaxesRow, m.earthValueRow].map (column ++ ·)

/-- The references of the Mars figures in a column. -/
def marsRefs (m : FigureMap) (column : String) : List String :=
  [m.marsValueRow, m.marsRevenueRow, m.marsCostsRow].map (column ++ ·)

/-- The keys of all headline figures. -/
def keys (m : FigureMap) : List String :=
  (m.earthRefs m.earthBaseColumn ++ m.earthRefs m.earthOptimisticColumn).filterMap
      (refKey? m.earthSheet) ++
    (m.marsRefs m.marsBaseColumn ++ m.marsRefs m.marsOptimisticColumn).filterMap
      (refKey? m.marsSheet)

/-- The Earth figures in a column, given what stands under each key. -/
def earthFigures (m : FigureMap) (value : String → Value) (column : String) : EarthFigures :=
  ⟨refValue value m.earthSheet (column ++ m.earthRevenueRow),
    refValue value m.earthSheet (column ++ m.earthCostsRow),
    refValue value m.earthSheet (column ++ m.earthTaxesRow),
    refValue value m.earthSheet (column ++ m.earthValueRow)⟩

/-- The Mars figures in a column, given what stands under each key. -/
def marsFigures (m : FigureMap) (value : String → Value) (column : String) : MarsFigures :=
  ⟨refValue value m.marsSheet (column ++ m.marsValueRow),
    refValue value m.marsSheet (column ++ m.marsRevenueRow),
    refValue value m.marsSheet (column ++ m.marsCostsRow)⟩

/-- The headline figures, given what stands under each key. -/
def figures (m : FigureMap) (value : String → Value) : KeyFigures :=
  ⟨m.earthFigures value m.earthBaseColumn, m.earthFigures value m.earthOptimisticColumn,
    m.marsFigures value m.marsBaseColumn, m.marsFigures value m.marsOptimisticColumn⟩

end FigureMap

namespace Workbook

variable {w : Workbook} {m : FigureMap} {value : String → Value}

/-! ## 2. Figures -/

theorem gives_cellValue {sheet ref : String}
    (h : ∀ key, refKey? sheet ref = some key → w.Worth key (value key)) :
    w.Gives (w.cellValue sheet ref) (.ok (refValue value sheet ref)) := by
  unfold cellValue refValue
  unfold refKey? at h ⊢
  generalize splitSheet ref = parts at h ⊢
  obtain ⟨own, cell⟩ := parts
  simp only at h ⊢
  cases ha : Address.read? cell with
  | none => exact gives_pure Value.blank
  | some a =>
    rw [ha] at h
    exact (h _ rfl).gives_resolve

theorem gives_earthFigures {column : String}
    (h : ∀ ref ∈ m.earthRefs column, ∀ key, refKey? m.earthSheet ref = some key →
      w.Worth key (value key)) :
    w.Gives (w.earthFigures m column) (.ok (m.earthFigures value column)) := by
  unfold FigureMap.earthRefs at h
  simp only [List.map_cons, List.map_nil, List.forall_mem_cons] at h
  obtain ⟨hrevenue, hcosts, htaxes, hvalue, -⟩ := h
  exact (gives_cellValue hrevenue).bind_ok ((gives_cellValue hcosts).bind_ok
    ((gives_cellValue htaxes).bind_ok ((gives_cellValue hvalue).bind_ok
      (gives_pure (m.earthFigures value column)))))

theorem gives_marsFigures {column : String}
    (h : ∀ ref ∈ m.marsRefs column, ∀ key, refKey? m.marsSheet ref = some key →
      w.Worth key (value key)) :
    w.Gives (w.marsFigures m column) (.ok (m.marsFigures value column)) := by
  unfold FigureMap.marsRefs at h
  simp only [List.map_cons, List.map_nil, List.forall_mem_cons] at h
  obtain ⟨hvalue, hrevenue, hcosts, -⟩ := h
  exact (gives_cellValue hvalue).bind_ok ((gives_cellValue hrevenue).bind_ok
    ((gives_cellValue hcosts).bind_ok (gives_pure (m.marsFigures value column))))

/-- **The headline figures are the worths of their keys.** -/
theorem gives_keyFigures (h : ∀ key ∈ m.keys, w.Worth key (value key)) :
    w.Gives (w.keyFigures m) (.ok (m.figures value)) := by
  have hearth : ∀ ref ∈ m.earthRefs m.earthBaseColumn ++ m.earthRefs m.earthOptimisticColumn,
      ∀ key, refKey? m.earthSheet ref = some key → w.Worth key (value key) :=
    fun ref href key hkey => h key (List.mem_append_left _ (List.mem_filterMap.mpr ⟨ref, href, hkey⟩))
  have hmars : ∀ ref ∈ m.marsRefs m.marsBaseColumn ++ m.marsRefs m.marsOptimisticColumn,
      ∀ key, refKey? m.marsSheet ref = some key → w.Worth key (value key) :=
    fun ref href key hkey => h key (List.mem_append_right _ (List.mem_filterMap.mpr ⟨ref, href, hkey⟩))
  rw [List.forall_mem_append] at hearth hmars
  exact (gives_earthFigures hearth.1).bind_ok ((gives_earthFigures hearth.2).bind_ok
    ((gives_marsFigures hmars.1).bind_ok ((gives_marsFigures hmars.2).bind_ok
      (gives_pure (m.figures value)))))

end Workbook

end Appraisal
