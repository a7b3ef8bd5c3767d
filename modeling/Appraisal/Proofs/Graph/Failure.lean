import Appraisal.Proofs.Formula.Spreading
import Appraisal.Proofs.Graph.Arrangement
import Appraisal.Proofs.Graph.Series

/-!
# Registrations that fail

A registration notes the text of a formula and then looks for what the text mentions. Where the
mentions cannot be spread out, the text stays noted and the edges are what they were: a cell that
had a formula keeps the edges of that one, and a cell that had none is taken for one that reads
nothing.

* `add_fails_iff` — which registrations fail;
* `Clean.failed`, `waits_add_failed` — a new cell whose registration fails waits for nothing;
* `SameEdges`, `ofCalls_edges` — **a series of calls has the edges of those that do not fail**;
* `add_failed` — **what a registration that fails leaves**; `add_failed_noted` — it is not what
  was there before.
-/

namespace Appraisal.Graph

variable {g : Graph} {cell formula sheet : String} {fault : Fault}

/-! ## 1. One registration -/

theorem allReferences_of_add (h : (g.add cell formula sheet).2 = .error fault) :
    Formula.allReferences formula sheet = .error fault := by
  cases hrefs : Formula.allReferences formula sheet with
  | ok refs =>
    rw [add_ok hrefs] at h
    cases h
  | error fault' =>
    rw [add_error hrefs] at h
    exact congrArg _ (Except.error.inj h)

theorem add_of_failed (h : (g.add cell formula sheet).2 = .error fault) :
    (g.add cell formula sheet).1 = { g with formulas := g.formulas.put cell formula } :=
  congrArg Prod.fst (add_error (allReferences_of_add h))

/-- A registration fails exactly where the mentions of the text cannot be spread out, whatever the
    graph. -/
theorem add_fails_iff (g : Graph) (cell formula sheet : String) :
    (∃ fault, (g.add cell formula sheet).2 = .error fault) ↔ ¬ Formula.Spreadable formula := by
  rw [← Formula.allReferences_ok_iff sheet]
  constructor
  · rintro ⟨fault, h⟩ ⟨refs, hrefs⟩
    rw [add_ok hrefs] at h
    cases h
  · intro h
    cases hrefs : Formula.allReferences formula sheet with
    | ok refs => exact absurd ⟨refs, hrefs⟩ h
    | error fault => exact ⟨fault, congrArg Prod.snd (add_error hrefs)⟩

/-! ## 2. A new cell -/

/-- A new cell whose registration fails has no edges, so that they agree from both ends. -/
theorem Clean.failed (hg : g.Clean) (hc : cell ∉ g.cells)
    (h : (g.add cell formula sheet).2 = .error fault) : (g.add cell formula sheet).1.Clean where
  cells := by
    rw [cells_add g hc]
    exact List.nodup_append.mpr ⟨hg.cells, List.nodup_singleton cell, fun a ha b hb he =>
      hc (List.mem_singleton.mp hb ▸ he ▸ ha)⟩
  registered x y hread := by
    rw [cells_add g hc]
    rw [add_of_failed h] at hread
    exact List.mem_append_left _ (hg.registered x y hread)
  reads := by
    rw [add_of_failed h]
    exact hg.reads
  readers := by
    rw [add_of_failed h]
    exact hg.readers
  mirror := by
    rw [add_of_failed h]
    exact hg.mirror

/-- A new cell whose registration fails is on no circle of waiting cells. -/
theorem waits_add_failed (hg : g.Clean) (hc : cell ∉ g.cells)
    (h : (g.add cell formula sheet).2 = .error fault) (x : String) :
    Relation.TransGen (g.add cell formula sheet).1.Waits x x ↔ Relation.TransGen g.Waits x x := by
  have hreads : (g.add cell formula sheet).1.reads = g.reads := by
    rw [add_of_failed h]
    rfl
  have hcells : ∀ y, y ∈ (g.add cell formula sheet).1.cells ↔ y ∈ g.cells ∨ y = cell := by
    intro y
    rw [cells_add g hc, List.mem_append, List.mem_singleton]
  have hnew : ∀ y z, (g.add cell formula sheet).1.Waits y z → y ≠ cell := by
    rintro y z ⟨hread, -⟩ rfl
    rw [hreads, hg.reads_eq_nil hc] at hread
    exact List.not_mem_nil hread
  -- all that is on the way waits for something, and so does its end if it is not the new cell
  have hback : ∀ y z, Relation.TransGen (g.add cell formula sheet).1.Waits y z → z ≠ cell →
      Relation.TransGen g.Waits y z := by
    have hone : ∀ y z, (g.add cell formula sheet).1.Waits y z → z ≠ cell → g.Waits y z := by
      intro y z hw hz
      have hy := hnew y z hw
      obtain ⟨hread, hin, hin'⟩ := hw
      rw [hreads] at hread
      exact ⟨hread, ((hcells y).mp hin).resolve_right hy, ((hcells z).mp hin').resolve_right hz⟩
    intro y z hway hz
    induction hway with
    | single hw => exact .single (hone y _ hw hz)
    | tail _ hw ih => exact (ih (hnew _ _ hw)).tail (hone _ _ hw hz)
  constructor
  · intro hround
    obtain ⟨y, hw, -⟩ := Relation.TransGen.head'_iff.mp hround
    exact hback x x hround (hnew x y hw)
  · refine Relation.TransGen.mono (fun y z hw => ?_) x x
    refine ⟨?_, (hcells y).mpr (Or.inl hw.2.1), (hcells z).mpr (Or.inl hw.2.2)⟩
    rw [hreads]
    exact hw.1

/-! ## 3. Any series of calls -/

/-- The same edges from both ends, whatever formulas are noted. -/
structure SameEdges (g g' : Graph) : Prop where
  dependencies : g.dependencies = g'.dependencies
  dependents : g.dependents = g'.dependents

/-- The mentions of a registration can be spread out. -/
def Registration.succeeds (r : Registration) : Bool :=
  r.mentions.toOption.isSome

theorem SameEdges.add {g' : Graph} (h : SameEdges g g') {refs : List String}
    (hrefs : Formula.allReferences formula sheet = .ok refs) :
    SameEdges (g.add cell formula sheet).1 (g'.add cell formula sheet).1 := by
  rw [add_ok hrefs, add_ok hrefs]
  constructor
  · exact congrArg (Listing.put · cell refs) h.dependencies
  · exact congrArg (fun ds => refs.foldl (fun ds ref => noteReader ds ref cell) ds) h.dependents

/-- **A series of calls has the edges of those that do not fail.** -/
theorem ofCalls_edges (calls : List Registration) :
    SameEdges (ofCalls calls) (ofCalls (calls.filter Registration.succeeds)) := by
  unfold ofCalls
  suffices h : ∀ g g', SameEdges g g' → SameEdges
      (calls.foldl (fun g r => (g.add r.cell r.formula r.sheet).1) g)
      ((calls.filter Registration.succeeds).foldl
        (fun g r => (g.add r.cell r.formula r.sheet).1) g') from h empty empty ⟨rfl, rfl⟩
  induction calls with
  | nil => exact fun g g' h => h
  | cons r calls ih =>
    intro g g' h
    cases hr : r.mentions with
    | ok refs =>
      have hs : r.succeeds = true := by rw [Registration.succeeds, hr]; rfl
      rw [List.filter_cons_of_pos hs]
      exact ih _ _ (h.add hr)
    | error fault =>
      have hs : ¬ r.succeeds = true := by
        rw [Registration.succeeds, hr]
        exact nofun
      rw [List.filter_cons_of_neg hs, List.foldl_cons, add_error hr]
      exact ih _ _ ⟨h.dependencies, h.dependents⟩

/-- Where no call fails, a series of calls is a series of registrations. -/
theorem registerAll_eq_ofCalls {rs : List Registration} (h : ∀ r ∈ rs, r.succeeds = true) :
    empty.registerAll rs = .ok (ofCalls rs) := by
  unfold ofCalls
  generalize empty = g
  induction rs generalizing g with
  | nil => rfl
  | cons r rs ih =>
    obtain ⟨hr, hrs⟩ := List.forall_mem_cons.mp h
    obtain ⟨refs, hrefs⟩ := exists_of_toOption hr
    rw [registerAll_cons hrefs]
    exact ih hrs _

/-! ## 4. What a registration that fails leaves -/

/-- A cell that had a formula is ordered by the edges of that one. -/
theorem topologicalOrder_add_failed (h : (g.add cell formula sheet).2 = .error fault)
    (hc : cell ∈ g.cells) :
    (g.add cell formula sheet).1.topologicalOrder = g.topologicalOrder := by
  rw [add_of_failed h]
  refine Alike.topologicalOrder_eq ⟨?_, fun _ => .refl _, fun _ => .refl _⟩
  exact List.Perm.of_eq (Listing.names_put_of_mem formula hc)

/-- **What a registration that fails leaves**: every edge as it was, and the text noted for the
    cell. It changes nothing exactly where the same text was noted before. A cell that had a
    formula is ordered as before, and a new cell of a clean graph is ordered with the others. -/
theorem add_failed (h : (g.add cell formula sheet).2 = .error fault) :
    let g' := (g.add cell formula sheet).1
    g'.dependencies = g.dependencies ∧ g'.dependents = g.dependents ∧
      (∀ x, g'.formulas.get? x = if x = cell then some formula else g.formulas.get? x) ∧
      (g' = g ↔ g.formulas.get? cell = some formula) ∧
      (cell ∈ g.cells → g'.topologicalOrder = g.topologicalOrder) ∧
      (g.Clean → cell ∉ g.cells →
        ((∃ order, g'.topologicalOrder = .ok order) ↔ ∃ order, g.topologicalOrder = .ok order) ∧
          ∀ order, g'.topologicalOrder = .ok order → order.Perm (g.cells ++ [cell])) := by
  intro g'
  have hg' : g' = { g with formulas := g.formulas.put cell formula } := add_of_failed h
  refine ⟨by rw [hg'], by rw [hg'], fun x => ?_, ?_, topologicalOrder_add_failed h,
    fun hg hc => ⟨?_, fun order ho => ?_⟩⟩
  · rw [hg']
    by_cases hx : x = cell
    · rw [if_pos hx, hx, Listing.get?_put_self]
    · rw [if_neg hx, Listing.get?_put_of_ne formula hx]
  · rw [hg', ← Listing.put_eq_self_iff]
    exact ⟨congrArg formulas, fun hput => congrArg (Graph.mk · g.dependencies g.dependents) hput⟩
  · rw [topologicalOrder_exists_iff hg, topologicalOrder_exists_iff (hg.failed hc h)]
    exact forall_congr' fun x => not_congr (waits_add_failed hg hc h x)
  · rw [← cells_add g hc]
    exact (topologicalOrder_spec (hg.failed hc h) ho).1

/-- A cell that reads another. -/
def paired : List Registration :=
  [⟨"S!A1", "=B1", "S"⟩]

theorem rowZero_not_spreadable : ¬ Formula.Spreadable "=SUM(A0:A3)" := by decide +kernel

theorem add_failed_paired :
    ∃ fault, ((ofCalls paired).add "S!A1" "=SUM(A0:A3)" "S").2 = .error fault ∧
      ((ofCalls paired).add "S!A1" "=SUM(A0:A3)" "S").1.dependencies =
        (ofCalls paired).dependencies := by
  obtain ⟨fault, hfault⟩ :=
    (add_fails_iff (ofCalls paired) "S!A1" "=SUM(A0:A3)" "S").mpr rowZero_not_spreadable
  exact ⟨fault, hfault, (add_failed hfault).1⟩

/-- **A registration that fails need not leave the graph alone**: the cell has another formula than
    before and still the edges of the earlier one, and a cell that is new is ordered. -/
theorem add_failed_noted :
    (∃ fault, ((ofCalls paired).add "S!A1" "=SUM(A0:A3)" "S").2 = .error fault) ∧
      (ofCalls paired).formulas.get? "S!A1" = some "=B1" ∧
      ((ofCalls paired).add "S!A1" "=SUM(A0:A3)" "S").1.formulas.get? "S!A1" =
        some "=SUM(A0:A3)" ∧
      ((ofCalls paired).add "S!A1" "=SUM(A0:A3)" "S").1.reads "S!A1" = ["S!B1"] ∧
      (∃ fault, (empty.add "S!A1" "=SUM(A0:A3)" "S").2 = .error fault) ∧
      empty.topologicalOrder.toOption = some [] ∧
      (empty.add "S!A1" "=SUM(A0:A3)" "S").1.topologicalOrder.toOption = some ["S!A1"] := by
  refine ⟨(add_fails_iff _ _ _ _).mpr rowZero_not_spreadable, ?_, ?_, ?_,
    (add_fails_iff _ _ _ _).mpr rowZero_not_spreadable, ?_, ?_⟩
  all_goals decide +kernel

end Appraisal.Graph
