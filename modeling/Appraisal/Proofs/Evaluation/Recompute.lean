import Appraisal.Proofs.Evaluation.Lookup

/-!
# Computing afresh

A workbook can be read in two ways. One trusts the stored values and evaluates what has none; the
other computes every supported formula afresh. The first walk ends at each stored value, the second
goes on beneath it. Where no supported formula reads itself in the end, both ways agree everywhere
exactly if each stored value is what the formula beside it makes of trusted values. What a formula
makes has to be the very value: a stored whole number is not the float of the same size, which is what
a sum or an operation gives.

* `Workbook.trusting`, `Workbook.recomputing` — the two ways;
* `Workbook.RefersTo` — what supported formulas read; `reads_recomputing_iff`, `reads_of_trusting` —
  the closures that the two ways walk;
* `Workbook.Consistent` — stored values are what their formulas make of trusted values;
* `Consistent.exists_value` — **a trusted worth is what a fresh computation makes of trusted
  worths**;
* `Consistent.worth_trusting`, `Consistent.not_overflows` — worths carry over, and so do faults;
* `consistent_iff_resolve`, `cellValue_recomputing` — **both ways agree**; `consistent_of_stored` —
  where formulas with a value read none without.
-/

namespace Appraisal.Workbook

open Appraisal.Formula

variable {w : Workbook} {key : String}

/-! ## 1. Two ways to read a workbook -/

/-- The workbook with its stored values trusted. -/
def trusting (w : Workbook) : Workbook :=
  { w with recompute := false }

/-- The workbook with its supported formulas computed afresh. -/
def recomputing (w : Workbook) : Workbook :=
  { w with recompute := true }

/-- The supported formula of a key refers to a key, whether or not a value is stored beside it. -/
def RefersTo (w : Workbook) (key read : String) : Prop :=
  ∃ sheet c, w.cell? key = some (sheet, c) ∧ c.hasFormula = true ∧
    (w.tree c).isSupported = true ∧ read ∈ (w.tree c).references sheet

theorem needs_trusting_iff {c : Cell} :
    w.trusting.needsEvaluation c = true ↔ c.hasFormula = true ∧ c.value = .blank := by
  simp [needsEvaluation, trusting]

theorem needs_recomputing_iff {c : Cell} : w.recomputing.needsEvaluation c = true ↔
    c.hasFormula = true ∧ (c.value = .blank ∨ (w.tree c).isSupported = true) := by
  have htree : w.recomputing.tree c = w.tree c := rfl
  simp [needsEvaluation, recomputing, ← htree]

theorem isSupported_of_references {t : Tree} {sheet read : String} (h : read ∈ t.references sheet) :
    t.isSupported = true := by
  cases t with
  | unsupported text fault => cases h
  | leaf | binary | call => rfl

theorem reads_recomputing_iff {read : String} :
    w.recomputing.Reads key read ↔ w.RefersTo key read := by
  constructor
  · rintro ⟨sheet, c, hc, hn, hread⟩
    exact ⟨sheet, c, hc, (needs_recomputing_iff.mp hn).1, isSupported_of_references hread, hread⟩
  · rintro ⟨sheet, c, hc, hf, hs, hread⟩
    exact ⟨sheet, c, hc, needs_recomputing_iff.mpr ⟨hf, Or.inr hs⟩, hread⟩

theorem formula?_of_trusting {p : String × Tree} (h : w.trusting.formula? key = some p) :
    w.recomputing.formula? key = some p := by
  obtain ⟨sheet, tree⟩ := p
  obtain ⟨c, hc, hn, rfl⟩ := formula?_eq_some h
  obtain ⟨hf, hv⟩ := needs_trusting_iff.mp hn
  exact formula?_of_needs (w := w.recomputing) hc (needs_recomputing_iff.mpr ⟨hf, Or.inl hv⟩)

theorem reads_of_trusting {read : String} (h : w.trusting.Reads key read) :
    w.recomputing.Reads key read := by
  obtain ⟨sheet, c, hc, hn, hread⟩ := h
  obtain ⟨hf, hv⟩ := needs_trusting_iff.mp hn
  exact ⟨sheet, c, hc, needs_recomputing_iff.mpr ⟨hf, Or.inl hv⟩, hread⟩

/-! ## 2. Consistent workbooks -/

/-- Each value that is stored beside a supported formula is what the formula makes of the values
    that the workbook gives, stored values trusted, for the keys that the formula reads. -/
def Consistent (w : Workbook) : Prop :=
  ∀ key sheet c, w.cell? key = some (sheet, c) → c.hasFormula = true → c.value ≠ .blank →
    (w.tree c).isSupported = true → ∃ value : String → Value,
      (∀ read ∈ (w.tree c).references sheet,
        ((w.trusting.resolve read).run []).1 = .ok (value read)) ∧
      w.treeValue value sheet (w.tree c) = .ok (.scalar c.value)

/-- **A trusted worth is what a fresh computation makes of the trusted worths** of what it reads. -/
theorem Consistent.exists_value (h : w.Consistent) {v : Value} (hv : w.trusting.Worth key v) :
    ∃ value : String → Value,
      (∀ read ∈ w.recomputing.reads key, w.trusting.Worth read (value read)) ∧
        w.recomputing.keyValue value key = .ok v := by
  cases hf : w.trusting.formula? key with
  | some p =>
    -- no value is stored: both ways evaluate the same formula
    obtain ⟨sheet, tree⟩ := p
    obtain ⟨value, hr, hval⟩ := hv.exists_value
    rw [reads_of_formula? hf] at hr
    rw [keyValue, hf] at hval
    refine ⟨value, ?_, ?_⟩
    · rw [reads_of_formula? (formula?_of_trusting hf)]
      exact hr
    · rw [keyValue, formula?_of_trusting hf]
      exact hval
  | none =>
    have hstored : v = w.stored key := hv.unique (.of_formula?_eq_none hf)
    cases hf' : w.recomputing.formula? key with
    | none =>
      refine ⟨fun _ => .blank, fun read hread => ?_, ?_⟩
      · rw [reads, hf'] at hread
        cases hread
      · rw [keyValue, hf', hstored]
        rfl
    | some p =>
      -- the value is stored beside a supported formula
      obtain ⟨sheet, tree⟩ := p
      obtain ⟨c, hc, hn, rfl⟩ := formula?_eq_some hf'
      have hc : w.cell? key = some (sheet, c) := hc
      obtain ⟨hformula, hblank⟩ := needs_recomputing_iff.mp hn
      have hvalue : c.value ≠ .blank := by
        intro hvalue
        have hneeds : w.trusting.needsEvaluation c = true :=
          needs_trusting_iff.mpr ⟨hformula, hvalue⟩
        rw [formula?_of_needs (w := w.trusting) hc hneeds] at hf
        cases hf
      obtain ⟨value, hr, hval⟩ :=
        h key sheet c hc hformula hvalue (hblank.resolve_left hvalue)
      refine ⟨value, fun read hread => ?_, ?_⟩
      · rw [reads_of_formula? hf'] at hread
        exact worth_iff_resolve.mpr (hr read hread)
      · have hcell : w.stored key = .scalar c.value := by rw [Workbook.stored, hc]
        rw [keyValue, hf', hstored, hcell]
        exact hval

section Agreement

variable (h : w.Consistent)
include h

/-- **What a key is worth when computed afresh, it is worth with stored values trusted.** -/
theorem Consistent.worth_trusting {v : Value} (hv : w.recomputing.Worth key v) :
    w.trusting.Worth key v := by
  induction hv using Worth.byReads with
  | step key v value hr hval ih =>
    cases hf : w.trusting.formula? key with
    | some p =>
      obtain ⟨sheet, tree⟩ := p
      rw [reads_of_formula? (formula?_of_trusting hf)] at ih
      rw [keyValue, formula?_of_trusting hf] at hval
      refine .of_keyValue value (fun read hread => ?_) ?_
      · rw [reads_of_formula? hf] at hread
        exact ih read hread
      · rw [keyValue, hf]
        exact hval
    | none =>
      have hstored := Worth.of_formula?_eq_none hf
      obtain ⟨value', hr', hval'⟩ := h.exists_value hstored
      rw [keyValue_of_worths ih hr', hval'] at hval
      cases hval
      exact hstored

/-- A key of some trusted worth leads, beneath stored values as well, to keys of some only. -/
theorem Consistent.worth_reaches {v : Value} (hv : w.trusting.Worth key v) {k : String}
    (hk : w.recomputing.Reaches key k) : ∃ u, w.trusting.Worth k u := by
  induction hk with
  | refl => exact ⟨v, hv⟩
  | tail _ hread ih =>
    obtain ⟨u, hu⟩ := ih
    obtain ⟨value, hr, -⟩ := h.exists_value hu
    exact ⟨_, hr _ (mem_reads_iff.mpr hread)⟩

/-- A key of some trusted worth has no operation on a number beyond the floats. -/
theorem Consistent.not_overflows {v : Value} (hv : w.trusting.Worth key v) :
    ¬w.recomputing.Overflows key := by
  intro hover
  obtain ⟨value, hr, hval⟩ := h.exists_value hv
  obtain ⟨value', hr', -⟩ := id hover
  have hsame : w.recomputing.keyValue value key = w.recomputing.keyValue value' key :=
    keyValue_of_worths hr fun read hread => h.worth_trusting (hr' read hread)
  rcases keyValue_cases hr' with ⟨-, herror⟩ | ⟨hnot, -⟩
  · rw [hsame, herror] at hval
    cases hval
  · exact hnot hover

/-- **Both ways of settling a key have the same outcome**, be it a value or a fault. -/
theorem Consistent.resolve_eq (hacyclic : ∀ key, ¬w.recomputing.OnCircle key) (key : String) :
    ((w.recomputing.resolve key).run []).1 = ((w.trusting.resolve key).run []).1 := by
  have hcircle : ∀ k, ¬w.trusting.OnCircle k := fun k hk =>
    hacyclic k (Relation.TransGen.mono (fun _ _ hread => reads_of_trusting hread) _ _ hk)
  rcases w.recomputing.resolve_gives key with ⟨v, hv, hgives⟩ | ⟨fault, hs, hgives⟩
  · rw [(hgives [] sound_nil).1, ((h.worth_trusting hv).gives_resolve [] sound_nil).1]
  · rw [(hgives [] sound_nil).1]
    cases hs with
    | circular _ hk => exact absurd hk (hacyclic _)
    | overflow hk hover =>
      rcases w.trusting.resolve_gives key with ⟨u, hu, -⟩ | ⟨fault, hs, hgives'⟩
      · obtain ⟨t, ht⟩ := h.worth_reaches hu hk
        exact absurd hover (h.not_overflows ht)
      · rw [(hgives' [] sound_nil).1]
        cases hs with
        | circular _ hk => exact absurd hk (hcircle _)
        | overflow => rfl

end Agreement

/-! ## 3. Agreement -/

/-- **Without circles, both ways agree on every key exactly if the workbook is consistent.** -/
theorem consistent_iff_resolve (hacyclic : ∀ key, ¬w.recomputing.OnCircle key) :
    w.Consistent ↔ ∀ key,
      ((w.recomputing.resolve key).run []).1 = ((w.trusting.resolve key).run []).1 := by
  refine ⟨fun h key => h.resolve_eq hacyclic key, fun h key sheet c hc hformula hvalue hs => ?_⟩
  have hkept : w.trusting.needsEvaluation c = false :=
    Bool.eq_false_iff.mpr fun hn => hvalue (needs_trusting_iff.mp hn).2
  have hworth : w.recomputing.Worth key (.scalar c.value) := by
    rw [worth_iff_resolve, h key]
    exact worth_iff_resolve.mp (.stored hc hkept)
  obtain ⟨value, hr, hval⟩ := hworth.exists_value
  have hf := formula?_of_needs (w := w.recomputing) hc
    (needs_recomputing_iff.mpr ⟨hformula, Or.inr hs⟩)
  rw [reads_of_formula? hf] at hr
  rw [keyValue, hf] at hval
  refine ⟨value, fun read hread => ?_, hval⟩
  rw [← h read]
  exact worth_iff_resolve.mp (hr read hread)

/-- A workbook is consistent if each value stored beside a supported formula is what the formula makes
    of stored values. -/
theorem consistent_of_stored (h : ∀ e ∈ w.snapshot.sheets, ∀ entry ∈ e.2.cells,
    entry.2.hasFormula = true → entry.2.value ≠ .blank → (w.tree entry.2).isSupported = true →
      (∀ read ∈ (w.tree entry.2).references e.1, w.trusting.formula? read = none) ∧
        w.treeValue w.stored e.1 (w.tree entry.2) = .ok (.scalar entry.2.value)) :
    w.Consistent := by
  intro key sheet c hc hformula hvalue hs
  obtain ⟨sh, hsheet, ref, hmem⟩ := mem_of_cell? hc
  obtain ⟨hstored, hgives⟩ := h _ hsheet _ hmem hformula hvalue hs
  exact ⟨w.stored, fun read hread => worth_iff_resolve.mp (.of_formula?_eq_none (hstored read hread)),
    hgives⟩

/-- **Computing afresh agrees with the stored values of a consistent workbook.** Where no supported
    formula reads itself in the end, and each value stored beside one is what the formula makes of
    trusted values, asking for any reference has the same outcome both ways. -/
theorem cellValue_recomputing (w : Workbook)
    (hacyclic : ∀ key, ¬Relation.TransGen w.RefersTo key key) (hconsistent : w.Consistent)
    (sheet ref : String) :
    ((w.recomputing.cellValue sheet ref).run []).1 =
      ((w.trusting.cellValue sheet ref).run []).1 := by
  have hcircle : ∀ key, ¬w.recomputing.OnCircle key := fun key hk =>
    hacyclic key (Relation.TransGen.mono (fun _ _ => reads_recomputing_iff.mp) _ _ hk)
  rw [cellValue_eq, cellValue_eq]
  cases refKey? sheet ref with
  | none => rfl
  | some key => exact hconsistent.resolve_eq hcircle key

/-- Stored values with the formulas that give them: two references, a sum and an operation on the sum.
    One value is stored beside a formula beyond the grammar, and two formulas have no value, of which
    one reads a sheet that is not there. -/
def audited : Workbook where
  snapshot := ⟨[("S", ⟨"S", [("A1", ⟨"A1", .number (.whole 2), none⟩),
    ("B1", ⟨"B1", .number (.whole 2), some "=A1"⟩), ("C1", ⟨"C1", .blank, some "=B1+Gone!A1"⟩),
    ("D1", ⟨"D1", .number (.whole 4), some "=A1^2"⟩),
    ("E1", ⟨"E1", .blank, some "=SUM(A1:D1)+H1"⟩),
    ("F1", ⟨"F1", .number (.whole 2), some "=B1"⟩),
    ("G1", ⟨"G1", .number (.float 4.0), some "=SUM(A1:B1)"⟩),
    ("H1", ⟨"H1", .number (.float 4.5), some "=G1+0.5"⟩)]⟩)]⟩
  library := .standard
  recompute := false

theorem audited_not_onCircle (key : String) : ¬audited.recomputing.OnCircle key :=
  not_onCircle_of_rank
    ["S!A1", "S!B1", "Gone!A1", "S!C1", "S!D1", "S!G1", "S!H1", "S!E1"].idxOf (by decide +kernel) key

theorem audited_consistent : audited.Consistent := by
  have hcells : ∀ e ∈ audited.snapshot.sheets, ∀ entry ∈ e.2.cells,
      entry.2.hasFormula = true → entry.2.value ≠ .blank → (audited.tree entry.2).isSupported = true →
        (∀ read ∈ (audited.tree entry.2).references e.1, audited.trusting.formula? read = none) ∧
          ((audited.treeValue audited.stored e.1 (audited.tree entry.2)).toOption.bind
            Value.scalar?) = some entry.2.value := by decide +kernel
  refine consistent_of_stored fun e he entry hentry hformula hvalue hs => ?_
  obtain ⟨hstored, hgives⟩ := hcells e he entry hentry hformula hvalue hs
  obtain ⟨v, hv, hscalar⟩ := Option.bind_eq_some_iff.mp hgives
  rw [← Value.eq_scalar_of_scalar? hscalar]
  exact ⟨hstored, eq_ok_of_toOption hv⟩

theorem cellValue_recomputing_audited :
    (∀ key, ¬Relation.TransGen audited.RefersTo key key) ∧ audited.Consistent ∧
      ((audited.recomputing.cellValue "S" "E1").run []).1 =
        ((audited.trusting.cellValue "S" "E1").run []).1 := by
  have hacyclic : ∀ key, ¬Relation.TransGen audited.RefersTo key key := fun key hk =>
    audited_not_onCircle key
      (Relation.TransGen.mono (fun _ _ => reads_recomputing_iff.mpr) _ _ hk)
  exact ⟨hacyclic, audited_consistent,
    cellValue_recomputing audited hacyclic audited_consistent "S" "E1"⟩

end Appraisal.Workbook
