import Appraisal.Proofs.DepthFirst
import Appraisal.Proofs.Evaluation.Operand
import Appraisal.Proofs.Evaluation.Settling
import Mathlib.Data.List.Nodup

/-!
# Whether a key has a value

Settling a key over an empty cache has one of three outcomes: the worth of the key, a circle that
the key leads to, or a whole number beyond the floats among the operands of a formula.

* `Workbook.Circle` — a closed path of reads; `Descends.circle` — what meeting a key in progress
  again closes;
* `Stops.cause` — **why a visit stops**;
* `Workbook.resolve_circular` — a fault for a circle is raised exactly where there is one, and it
  names one;
* `Workbook.Acyclic`, `Workbook.resolve_worth` — without circles, **settling is recursion**;
* `Workbook.ring`, `Workbook.ladder` — a workbook with a circle, and one without.
-/

namespace Appraisal.Workbook

open Appraisal.Formula

variable {w : Workbook} {key : String}

/-! ## 1. Circles -/

/-- A closed path of reads, without any other repetition. -/
structure Circle (w : Workbook) (cycle : List String) : Prop where
  closed : ∃ first rest, cycle = first :: rest ++ [first] ∧ (first :: rest).Nodup
  formulas : ∀ k ∈ cycle, ∃ sheet c, w.cell? k = some (sheet, c) ∧ c.hasFormula = true ∧
    w.needsEvaluation c = true
  reads : cycle.IsChain w.Reads

theorem hasFormula_of_needs {c : Cell} (h : w.needsEvaluation c = true) : c.hasFormula = true := by
  rw [needsEvaluation, Bool.and_eq_true] at h
  exact h.1

/-- Meeting a key in progress again closes a circle. -/
theorem Descends.circle {path : List String} (h : w.Descends (key :: path)) (hk : key ∈ path)
    (hn : path.Nodup) : w.Circle (closedPath path key) := by
  refine ⟨closedPath_closed hk hn, fun k hcycle => ?_, isChain_closedPath h hk⟩
  -- a key in progress has been entered, and so reads something
  have hleads := h.leads (mem_path_of_mem_closedPath hk hcycle)
  obtain ⟨read, ⟨sheet, c, hc, hneeds, -⟩, -⟩ := Relation.TransGen.head'_iff.mp hleads
  exact ⟨sheet, c, hc, hasFormula_of_needs hneeds, hneeds⟩

/-! ## 2. Why a visit stops -/

/-- **A visit stops** at a circle that the key leads to, or at a formula that the key leads to and
    that has a fault by itself. -/
theorem Stops.cause {path : List String} {fault : Fault} (h : w.Stops path key fault)
    (hd : w.Descends (key :: path)) (hn : path.Nodup) :
    (∃ k cycle, w.Reaches key k ∧ w.OnCircle k ∧ fault = .circular cycle ∧ w.Circle cycle) ∨
      ∃ k value, w.Reaches key k ∧ (∀ read ∈ w.reads k, w.Worth read (value read)) ∧
        w.keyValue value k = .error fault := by
  induction h with
  | @circle path key hp =>
    exact Or.inl ⟨key, _, .refl, hd.onCircle hp, rfl, hd.circle hp hn⟩
  | @own path key fault value hp hr hv => exact Or.inr ⟨key, value, .refl, hr, hv⟩
  | @deeper path key read fault before after hp hreads hb hbelow ih =>
    have hmem : read ∈ w.reads key := hreads ▸ List.mem_append_right _ List.mem_cons_self
    have hread : w.Reads key read := mem_reads_iff.mp hmem
    rcases ih (hd.cons hmem) (List.nodup_cons.mpr ⟨hp, hn⟩) with
      ⟨k, cycle, hk, h⟩ | ⟨k, value, hk, h⟩
    · exact Or.inl ⟨k, cycle, .head hread hk, h⟩
    · exact Or.inr ⟨k, value, .head hread hk, h⟩

/-- The outcomes of settling a key over an empty cache. -/
theorem resolve_outcome (w : Workbook) (key : String) :
    (∃ v, w.Worth key v ∧ ((w.resolve key).run []).1 = .ok v) ∨
      (∃ k cycle, w.Reaches key k ∧ w.OnCircle k ∧ w.Circle cycle ∧
        ((w.resolve key).run []).1 = .error (.circular cycle)) ∨
      ∃ k, w.Reaches key k ∧ ¬ w.OperandsFit k ∧
        ((w.resolve key).run []).1 = .error .wholeTooLarge := by
  obtain ⟨-, hworth | ⟨fault, hstops, hrun⟩⟩ := w.resolve_cases key sound_nil
  · exact Or.inl hworth
  · rcases hstops.cause (List.isChain_singleton key) List.nodup_nil with
      ⟨k, cycle, hk, hcircle, rfl, hcycle⟩ | ⟨k, value, hk, hr, hv⟩
    · exact Or.inr (Or.inl ⟨k, cycle, hk, hcircle, hcycle, hrun⟩)
    · obtain ⟨rfl, -⟩ := keyValue_error hv
      exact Or.inr (Or.inr ⟨k, hk, fun hfit => hfit.keyValue_ne_error hr hv, hrun⟩)

/-! ## 3. Circles are found -/

/-- **A fault for a circle names a circle.** And where settling a key over an empty cache meets no
    other fault, it meets one for a circle exactly if the key leads to a circle. -/
theorem resolve_circular (w : Workbook) (key : String) :
    (∀ cycle, ((w.resolve key).run []).1 = .error (.circular cycle) → w.Circle cycle) ∧
      ((∀ fault, ((w.resolve key).run []).1 = .error fault → ∃ cycle, fault = .circular cycle) →
        ((∃ cycle, ((w.resolve key).run []).1 = .error (.circular cycle)) ↔
          ∃ k, w.Reaches key k ∧ w.OnCircle k)) := by
  rcases w.resolve_outcome key with
    ⟨v, hv, hrun⟩ | ⟨k, cycle, hk, hcircle, hcycle, hrun⟩ | ⟨k, hk, -, hrun⟩
  · rw [hrun]
    refine ⟨nofun, fun _ => ⟨nofun, fun ⟨k, hk, hcircle⟩ => ?_⟩⟩
    -- what has a worth leads to no circle
    obtain ⟨u, hu⟩ := hv.reaches hk
    exact absurd hcircle hu.not_onCircle
  · rw [hrun]
    refine ⟨fun found hfound => ?_, fun _ => ⟨fun _ => ⟨k, hk, hcircle⟩, fun _ => ⟨cycle, rfl⟩⟩⟩
    cases hfound
    exact hcycle
  · rw [hrun]
    refine ⟨nofun, fun hno => ?_⟩
    obtain ⟨cycle, hcycle⟩ := hno _ rfl
    cases hcycle

/-- Two formulas that read each other, and a sum over them. -/
def ring : Workbook where
  snapshot := ⟨[("S", ⟨"S", [("A1", ⟨"A1", .blank, some "=B1"⟩), ("B1", ⟨"B1", .blank, some "=A1+1"⟩),
    ("C1", ⟨"C1", .blank, some "=SUM(A1:B1)"⟩)]⟩)]⟩
  library := .standard
  recompute := false

theorem ring_fitsFloat : ring.FitsFloat where
  cells := by decide +kernel
  library := Function.Library.standard_keepsFloats

theorem ring_onCircle : ring.Reaches "S!C1" "S!A1" ∧ ring.OnCircle "S!A1" := by
  have hca : ring.Reads "S!C1" "S!A1" := mem_reads_iff.mp (by decide +kernel)
  have hab : ring.Reads "S!A1" "S!B1" := mem_reads_iff.mp (by decide +kernel)
  have hba : ring.Reads "S!B1" "S!A1" := mem_reads_iff.mp (by decide +kernel)
  exact ⟨.single hca, .tail (.single hab) hba⟩

/-- Without numbers beyond the floats, circles are the only faults. -/
theorem FitsFloat.resolve_error (h : w.FitsFloat) {fault : Fault}
    (hrun : ((w.resolve key).run []).1 = .error fault) : ∃ cycle, fault = .circular cycle := by
  rcases w.resolve_outcome key with ⟨v, -, hv⟩ | ⟨-, cycle, -, -, -, hc⟩ | ⟨k, -, hnofit, -⟩
  · rw [hv] at hrun
    cases hrun
  · rw [hc] at hrun
    cases hrun
    exact ⟨cycle, rfl⟩
  · exact absurd (h.operandsFit k) hnofit

theorem resolve_circular_ring : ∃ cycle,
    ((ring.resolve "S!C1").run []).1 = .error (.circular cycle) ∧ ring.Circle cycle := by
  obtain ⟨hnames, hfound⟩ := resolve_circular ring "S!C1"
  obtain ⟨cycle, hcycle⟩ :=
    (hfound fun fault hrun => ring_fitsFloat.resolve_error hrun).mpr ⟨"S!A1", ring_onCircle⟩
  exact ⟨cycle, hcycle, hnames cycle hcycle⟩

/-! ## 4. Without circles -/

/-- No key that the key leads to lies on a circle. -/
def Acyclic (w : Workbook) (key : String) : Prop :=
  ∀ k, w.Reaches key k → ¬ w.OnCircle k

/-- Without numbers beyond the floats, a key that leads to no circle has a worth. -/
theorem FitsFloat.exists_worth (h : w.FitsFloat) (hacyclic : w.Acyclic key) :
    ∃ v, w.Worth key v := by
  rcases w.resolve_outcome key with ⟨v, hv, -⟩ | ⟨k, -, hk, hcircle, -⟩ | ⟨k, -, hnofit, -⟩
  · exact ⟨v, hv⟩
  · exact absurd hcircle (hacyclic k hk)
  · exact absurd (h.operandsFit k) hnofit

/-- **Settling is recursion:** where a key leads to no circle and to no operand beyond the floats,
    it has exactly one worth, and that is what settling it over an empty cache gives. -/
theorem resolve_worth (w : Workbook) (key : String) (hacyclic : w.Acyclic key)
    (hfit : ∀ k, w.Reaches key k → w.OperandsFit k) :
    ∃ v, w.Worth key v ∧ (∀ u, w.Worth key u → u = v) ∧ ((w.resolve key).run []).1 = .ok v := by
  rcases w.resolve_outcome key with
    ⟨v, hv, hrun⟩ | ⟨k, cycle, hk, hcircle, -⟩ | ⟨k, hk, hnofit, -⟩
  · exact ⟨v, hv, fun u hu => hu.unique hv, hrun⟩
  · exact absurd hcircle (hacyclic k hk)
  · exact absurd (hfit k hk) hnofit

/-- Reads that go down in rank lead to no circle. Only keys that some formula reads can lie on
    one. -/
theorem not_onCircle_of_rank (rank : String → Nat)
    (h : ∀ k ∈ w.allReads, ∀ read ∈ w.reads k, rank read < rank k) (key : String) :
    ¬ w.OnCircle key := by
  have hknown : ∀ {k read}, w.Reads k read → read ∈ w.allReads :=
    fun hread => mem_allReads_of_reads (mem_reads_iff.mpr hread)
  intro hcircle
  obtain ⟨last, hlead, hback⟩ := Relation.TransGen.tail'_iff.mp hcircle
  have hdown : ∀ other, Relation.TransGen w.Reads key other → rank other < rank key := by
    intro other hlead
    induction hlead with
    | single hread => exact h key (hknown hback) _ (mem_reads_iff.mpr hread)
    | @tail mid other hmid hread ih =>
      obtain ⟨before, -, hmid⟩ := Relation.TransGen.tail'_iff.mp hmid
      exact Nat.lt_trans (h mid (hknown hmid) _ (mem_reads_iff.mpr hread)) ih
  exact Nat.lt_irrefl _ (hdown key hcircle)

/-- A number, a formula that adds it to itself, and a sum over both. -/
def ladder : Workbook where
  snapshot := ⟨[("S", ⟨"S", [("A1", ⟨"A1", .number (.whole 2), none⟩),
    ("B1", ⟨"B1", .blank, some "=A1+A1"⟩), ("C1", ⟨"C1", .blank, some "=SUM(A1:B1)"⟩)]⟩)]⟩
  library := .standard
  recompute := false

theorem ladder_fitsFloat : ladder.FitsFloat where
  cells := by decide +kernel
  library := Function.Library.standard_keepsFloats

theorem ladder_not_onCircle (key : String) : ¬ ladder.OnCircle key :=
  not_onCircle_of_rank ["S!A1", "S!B1", "S!C1"].idxOf (by decide +kernel) key

theorem resolve_worth_ladder : ladder.Acyclic "S!C1" ∧
    (∀ k, ladder.Reaches "S!C1" k → ladder.OperandsFit k) ∧
    ∃ v, ladder.Worth "S!C1" v ∧ (∀ u, ladder.Worth "S!C1" u → u = v) ∧
      ((ladder.resolve "S!C1").run []).1 = .ok v :=
  have hacyclic : ladder.Acyclic "S!C1" := fun k _ => ladder_not_onCircle k
  have hfit : ∀ k, ladder.Reaches "S!C1" k → ladder.OperandsFit k :=
    fun k _ => ladder_fitsFloat.operandsFit k
  ⟨hacyclic, hfit, resolve_worth ladder "S!C1" hacyclic hfit⟩

end Appraisal.Workbook
