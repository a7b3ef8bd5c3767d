import Appraisal.Graph.Cycle

/-!
# The order of evaluation

Formula cells are put in an order in which each comes after the formula cells that it reads. Cells
that wait for none come first; with each cell that is placed, its readers wait for one fewer, and a
reader that waits for none any more is placed next in line.

* `Graph.release` — what the placing of a cell does to its readers;
* `Graph.place` — the order in which the cells in line and those after them are placed;
* `Graph.topologicalOrder` — the order of all formula cells, or a circle among them.
-/

namespace Appraisal.Graph

open Appraisal.Text

/-- The cells that still wait, each for a number of cells, after one more of what the readers read
    has been placed; and the readers that wait no more. -/
def release : (readers : List String) → Listing Nat → Listing Nat × List String
  | [], waiting => (waiting, [])
  | reader :: readers, waiting =>
    match waiting.get? reader with
    | none => release readers waiting
    | some count =>
      if count ≤ 1 then
        let rest := release readers (waiting.erase reader)
        (rest.1, reader :: rest.2)
      else release readers (waiting.put reader (count - 1))

theorem release_length (readers : List String) (waiting : Listing Nat) :
    (release readers waiting).1.length + (release readers waiting).2.length ≤ waiting.length := by
  induction readers generalizing waiting with
  | nil => simp [release]
  | cons reader readers ih =>
    unfold release
    cases h : waiting.get? reader with
    | none => exact ih waiting
    | some count =>
      have hmem : reader ∈ waiting.names := Listing.mem_names_iff.2 (by simp [h])
      by_cases hc : count ≤ 1
      · have h1 := ih (waiting.erase reader)
        have h2 := Listing.length_erase_lt hmem
        simp only [hc, ↓reduceIte, List.length_cons]
        omega
      · have h1 := ih (waiting.put reader (count - 1))
        rw [Listing.length_put_of_mem _ hmem] at h1
        simpa [hc] using h1

/-- The cells in line and those that come in line after them, in the order of their placing. -/
def place (g : Graph) (waiting : Listing Nat) : (line : List String) → List String
  | [] => []
  | cell :: line =>
    let released := release (sorted (g.readers cell)) waiting
    cell :: g.place released.1 (line ++ released.2)
termination_by line => waiting.length + line.length
decreasing_by
  have := release_length (sorted (g.readers cell)) waiting
  simp only [List.length_append, List.length_cons]
  omega

/-- The number of formula cells that a cell reads. -/
def degree (g : Graph) (cell : String) : Nat :=
  (g.reads cell).countP g.formulas.has

/-- The order in which formula cells can be placed. Cells on a circle and those that read them are
    missing from it. -/
def placed (g : Graph) : List String :=
  let waiting := g.cells.filter (g.degree · ≠ 0)
  g.place (waiting.map fun cell => (cell, g.degree cell))
    (sorted (g.cells.filter (g.degree · = 0)))

/-- The formula cells, each after the formula cells that it reads; or a circle among them. -/
def topologicalOrder (g : Graph) : Except Fault (List String) :=
  let order := g.placed
  if order.length = g.cells.length then .ok order
  else
    let remaining := g.cells.filter (· ∉ order)
    .error (.circular ((g.findCycle remaining).getD (sorted remaining)))

end Appraisal.Graph
