import Appraisal.Graph.Basic
import Appraisal.Text.Sorted

/-!
# What a cell reads in the end

* `Graph.closure` — every cell that a cell reads by one or more edges, in order. The cell itself is
  among them if it lies on a cycle.
-/

namespace Appraisal.Graph

open Appraisal.Text

/-- The cells seen, the cells in line and all that they lead to. An entry of `pending` is spent when
    its cell is first seen. -/
def reach (pending : Listing (List String)) (seen : List String) : List String → List String
  | [] => seen
  | cell :: line =>
    if cell ∈ seen then reach pending seen line
    else
      match _h : pending.get? cell with
      | none => reach pending (cell :: seen) line
      | some refs =>
        reach (pending.erase cell) (cell :: seen) (line ++ refs.filter (· ∉ cell :: seen))
termination_by line => (pending.length, line.length)
decreasing_by
  · exact Prod.Lex.right _ (by simp)
  · exact Prod.Lex.right _ (by simp)
  · exact Prod.Lex.left _ _ (Listing.length_erase_lt (Listing.mem_names_iff.2 (by simp [_h])))

/-- Every cell that the cell reads by one or more edges, in order. -/
def closure (g : Graph) (cell : String) : List String :=
  sorted (reach g.dependencies [] (g.reads cell))

end Appraisal.Graph
