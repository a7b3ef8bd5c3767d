import Appraisal.DepthFirst
import Appraisal.Graph.Basic
import Appraisal.Text.Sorted

/-!
# Cycles of formulas

A cycle is looked for depth first from each candidate in order, and what a cell reads is visited in
order too, so that the cycle found depends only on the edges.

* `Graph.Search` — where a search stands;
* `Graph.search` — the search from where it stands to the end of its stack;
* `Graph.findCycle` — one cycle as a closed path.
-/

namespace Appraisal.Graph

open Appraisal.Text

/-- Where a search stands. -/
structure Search where
  /-- The cells that have been left; none of them leads to a cycle. -/
  finished : List String
  /-- The cells from the root to the present one, deepest first. -/
  path : List String
  /-- The tasks to come. -/
  tasks : List Task

/-- Whether the search has neither left the cell nor entered it. -/
def Search.isFresh (s : Search) (cell : String) : Bool :=
  decide (cell ∉ s.finished) && decide (cell ∉ s.path)

/-- The number of formula cells that the search has not entered. -/
def fresh (g : Graph) (s : Search) : Nat :=
  g.cells.countP s.isFresh

/-- The search after leaving the deepest cell of its path. -/
def Search.leave (s : Search) (tasks : List Task) : Search :=
  ⟨s.path.take 1 ++ s.finished, s.path.drop 1, tasks⟩

/-- The search after entering a cell: the cells it reads come next, in order, and then it is
    left. -/
def enter (g : Graph) (s : Search) (cell : String) (tasks : List Task) : Search :=
  ⟨s.finished, cell :: s.path, (sorted (g.reads cell)).map .visit ++ .leave :: tasks⟩

theorem fresh_leave (g : Graph) (s : Search) (tasks : List Task) :
    g.fresh (s.leave tasks) = g.fresh s := by
  unfold fresh
  congr 1
  funext cell
  obtain ⟨finished, path, ts⟩ := s
  cases path with
  | nil => simp [Search.leave, Search.isFresh]
  | cons c path =>
    simp only [Search.leave, Search.isFresh, List.take_succ_cons, List.take_zero,
      List.drop_succ_cons, List.drop_zero, List.singleton_append, List.mem_cons]
    by_cases h : cell = c <;> simp [h]

theorem fresh_enter_lt {g : Graph} {s : Search} {cell : String} {tasks : List Task}
    (hc : cell ∈ g.cells) (hs : s.isFresh cell = true) :
    g.fresh (g.enter s cell tasks) < g.fresh s := by
  refine countP_lt_countP hc hs (by simp [Search.isFresh, enter]) fun c h => ?_
  simp only [Search.isFresh, Bool.and_eq_true, decide_eq_true_iff] at h ⊢
  exact ⟨h.1, fun hm => h.2 (List.mem_cons_of_mem _ hm)⟩

/-- The search to the end of its stack: the cycle it meets, or the cells it has finished. -/
def search (g : Graph) (s : Search) : Except (List String) (List String) :=
  match _hs : s.tasks with
  | [] => .ok s.finished
  | .leave :: tasks => g.search (s.leave tasks)
  | .visit cell :: tasks =>
    if cell ∈ s.path then .error (closedPath s.path cell)
    else if _hc : cell ∉ s.finished ∧ cell ∈ g.cells then g.search (g.enter s cell tasks)
    else g.search ⟨s.finished, s.path, tasks⟩
termination_by (g.fresh s, s.tasks.length)
decreasing_by
  · rw [fresh_leave]
    exact Prod.Lex.right _ (by simp [Search.leave, _hs])
  · refine Prod.Lex.left _ _ (fresh_enter_lt _hc.2 ?_)
    simp_all [Search.isFresh]
  · refine Prod.Lex.right' _ ?_ ?_
    · exact Nat.le_refl _
    · simp [_hs]

/-- The cycle met from the roots in turn, if there is one. A root that an earlier search has
    finished is passed over. -/
def searchFrom (g : Graph) : (finished roots : List String) → Option (List String)
  | _, [] => none
  | finished, root :: roots =>
    if root ∈ finished then g.searchFrom finished roots
    else
      match g.search ⟨finished, [], [.visit root]⟩ with
      | .error cycle => some cycle
      | .ok finished => g.searchFrom finished roots

/-- One cycle that can be reached from the candidates, as a closed path. -/
def findCycle (g : Graph) (candidates : List String) : Option (List String) :=
  g.searchFrom [] (sorted candidates)

end Appraisal.Graph
