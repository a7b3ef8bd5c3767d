import Appraisal.Proofs.Graph.Reachability

/-!
# Arrangement

A graph notes cells and edges in the order in which they come. Whatever it is asked, it looks at its
cells and edges in an order of their own, so that graphs which differ in arrangement alone answer
alike.

* `Graph.Alike` — the same cells and edges, arranged in whatever way;
* `Alike.search_eq`, `Alike.findCycle_eq` — they have the same circle;
* `release_congr`, `Alike.place_eq` — what waits is looked up by name;
* `Alike.topologicalOrder_eq`, `Alike.closure_eq` — **the same order, or the same circle in its
  place, and the same closures**.
-/

namespace Appraisal.Graph

open Appraisal.Text

/-- The same cells and the same edges from both ends, arranged in whatever way. -/
structure Alike (g g' : Graph) : Prop where
  cells : g.cells.Perm g'.cells
  reads : ∀ x, (g.reads x).Perm (g'.reads x)
  readers : ∀ x, (g.readers x).Perm (g'.readers x)

namespace Alike

variable {g g' : Graph}

/-! ## 1. Circles -/

/-- What a cell reads is visited in the same order. -/
theorem enter_eq (h : Alike g g') (s : Search) (cell : String) (tasks : List Task) :
    g.enter s cell tasks = g'.enter s cell tasks := by
  rw [enter, enter, sorted_eq_of_perm (h.reads cell)]

/-- Alike graphs are searched alike, from wherever the search stands. -/
theorem search_eq (h : Alike g g') (s : Search) : g.search s = g'.search s := by
  fun_induction g.search s with
  | case1 s ht => rw [search_done ht]
  | case2 s tasks ht ih => rw [search_leave ht, ih]
  | case3 s cell tasks ht hp => rw [search_circle ht hp]
  | case4 s cell tasks ht hp hc ih =>
    rw [search_enter ht hp hc.1 (h.cells.mem_iff.mp hc.2), ih, h.enter_eq]
  | case5 s cell tasks ht hp hc ih =>
    rw [search_pass ht hp, ih]
    intro hcell
    exact not_not.mp fun hf => hc ⟨hf, h.cells.mem_iff.mpr hcell⟩

theorem searchFrom_eq (h : Alike g g') (finished roots : List String) :
    g.searchFrom finished roots = g'.searchFrom finished roots := by
  induction roots generalizing finished with
  | nil => rfl
  | cons root roots ih =>
    rw [searchFrom, searchFrom, h.search_eq]
    by_cases hroot : root ∈ finished
    · rw [if_pos hroot, if_pos hroot, ih]
    · rw [if_neg hroot, if_neg hroot]
      cases g'.search ⟨finished, [], [.visit root]⟩ with
      | error cycle => rfl
      | ok finished => exact ih finished

/-- The same candidates lead to the same circle. -/
theorem findCycle_eq (h : Alike g g') {candidates candidates' : List String}
    (hc : candidates.Perm candidates') : g.findCycle candidates = g'.findCycle candidates' := by
  rw [findCycle, findCycle, sorted_eq_of_perm hc, h.searchFrom_eq]

end Alike

/-! ## 2. Orders -/

section Waiting

variable {waiting waiting' : Listing Nat}

/-- Placing a cell does the same to its readers, however those that wait are listed. -/
theorem release_congr (h : ∀ x, waiting.get? x = waiting'.get? x) (readers : List String) :
    (release readers waiting).2 = (release readers waiting').2 ∧
      ∀ x, (release readers waiting).1.get? x = (release readers waiting').1.get? x := by
  induction readers generalizing waiting waiting' with
  | nil => exact ⟨rfl, h⟩
  | cons reader readers ih =>
    cases hw : waiting.get? reader with
    | none =>
      rw [release_unknown hw, release_unknown ((h reader).symm.trans hw)]
      exact ih h
    | some count =>
      have hw' : waiting'.get? reader = some count := (h reader).symm.trans hw
      by_cases hc : count ≤ 1
      · rw [release_last hw hc, release_last hw' hc]
        have herase := ih (Listing.get?_erase_congr h reader)
        exact ⟨congrArg (reader :: ·) herase.1, herase.2⟩
      · rw [release_more hw hc, release_more hw' hc]
        exact ih (Listing.get?_put_congr h reader (count - 1))

end Waiting

namespace Alike

variable {g g' : Graph}

/-- Cells are placed in the same order, however those that wait are listed. -/
theorem place_eq (h : Alike g g') {waiting waiting' : Listing Nat}
    (hw : ∀ x, waiting.get? x = waiting'.get? x) (line : List String) :
    g.place waiting line = g'.place waiting' line := by
  fun_induction g.place waiting line generalizing waiting' with
  | case1 waiting => rw [place]
  | case2 waiting cell line released =>
    rename_i ih
    obtain ⟨hline, hrest⟩ := release_congr hw (sorted (g.readers cell))
    rw [place, ← sorted_eq_of_perm (h.readers cell), ← hline, ih hrest]

theorem degree_eq (h : Alike g g') (cell : String) : g.degree cell = g'.degree cell := by
  refine (h.reads cell).countP_congr fun read _ => ?_
  rw [Bool.eq_iff_iff, mem_cells_iff, mem_cells_iff, h.cells.mem_iff]

theorem placed_eq (h : Alike g g') : g.placed = g'.placed := by
  have hdegree : g.degree = g'.degree := funext h.degree_eq
  have hfilter : ∀ p : String → Bool, (g.cells.filter p).Perm (g'.cells.filter p) :=
    fun p => h.cells.filter p
  unfold placed
  rw [hdegree, sorted_eq_of_perm (hfilter _)]
  refine h.place_eq (fun x => ?_) _
  rw [Listing.get?_map, Listing.get?_map]
  simp only [(hfilter _).mem_iff]

/-- **Alike graphs have the same order, or the same circle in its place.** -/
theorem topologicalOrder_eq (h : Alike g g') : g.topologicalOrder = g'.topologicalOrder := by
  have hrest := h.cells.filter fun x => decide (x ∉ g'.placed)
  unfold topologicalOrder
  rw [h.placed_eq, h.cells.length_eq]
  simp only [h.findCycle_eq hrest, sorted_eq_of_perm hrest]

/-! ## 3. Closures -/

/-- **Alike graphs have the same closures.** -/
theorem closure_eq (h : Alike g g') (cell : String) : g.closure cell = g'.closure cell := by
  have hreads : g.Reads = g'.Reads :=
    funext fun x => funext fun y => propext (h.reads x).mem_iff
  have hfound : (g.closure cell).Perm (g'.closure cell) := by
    rw [List.perm_ext_iff_of_nodup (g.nodup_closure cell) (g'.nodup_closure cell)]
    intro x
    rw [mem_closure_iff, mem_closure_iff, hreads]
  exact hfound.eq_of_pairwise (fun _ _ _ _ => notAfter_antisymm) (pairwise_sorted _)
    (pairwise_sorted _)

end Alike

end Appraisal.Graph
