import Appraisal.DepthFirst
import Mathlib.Data.List.Chain
import Mathlib.Data.List.Nodup

/-!
# The circle that a search closes

The path of a search, deepest first, is a chain in which each key is read by the one after it.
Meeting one of its keys again closes a circle of such reads.

* `closedPath_closed` — the circle begins and ends with the key met again, and repeats no other;
* `isChain_closedPath` — **each key of the circle reads the next one**;
* `mem_path_of_mem_closedPath` — the circle stays on the path.
-/

namespace Appraisal

variable {R : String → String → Prop} {path : List String} {key : String}

/-- The circle of a key that is met again below others. -/
theorem closedPath_eq {above below : List String} (h : key ∉ above) :
    closedPath (above ++ key :: below) key = key :: above.reverse ++ [key] := by
  have htake : (above ++ key :: below).takeWhile (· ≠ key) = above := by
    rw [List.takeWhile_append_of_pos fun k hk => ?_, List.takeWhile_cons_of_neg (by simp),
      List.append_nil]
    exact decide_eq_true fun he => h (he ▸ hk)
  rw [closedPath, htake]

theorem closedPath_closed (hk : key ∈ path) (hn : path.Nodup) :
    ∃ first rest, closedPath path key = first :: rest ++ [first] ∧ (first :: rest).Nodup := by
  obtain ⟨above, below, rfl, hnew⟩ := List.eq_append_cons_of_mem hk
  refine ⟨key, above.reverse, closedPath_eq hnew, ?_⟩
  rw [List.nodup_cons, List.mem_reverse, List.nodup_reverse]
  exact ⟨hnew, hn.of_append_left⟩

theorem mem_path_of_mem_closedPath {k : String} (hk : key ∈ path)
    (h : k ∈ closedPath path key) : k ∈ path := by
  obtain ⟨above, below, rfl, hnew⟩ := List.eq_append_cons_of_mem hk
  rw [closedPath_eq hnew, List.mem_append, List.mem_cons, List.mem_reverse,
    List.mem_singleton] at h
  rcases h with (rfl | h) | rfl
  · exact hk
  · exact List.mem_append_left _ h
  · exact hk

/-- **Each key of the circle reads the next one.** -/
theorem isChain_closedPath (h : (key :: path).IsChain fun lower upper => R upper lower)
    (hk : key ∈ path) : (closedPath path key).IsChain R := by
  obtain ⟨above, below, rfl, hnew⟩ := List.eq_append_cons_of_mem hk
  have hdown : (key :: above ++ [key]).IsChain fun lower upper => R upper lower := by
    have hsplit : key :: (above ++ key :: below) = (key :: above ++ [key]) ++ below := by simp
    rw [hsplit] at h
    exact h.left_of_append
  have hturned : key :: above.reverse ++ [key] = (key :: above ++ [key]).reverse := by simp
  rw [closedPath_eq hnew, hturned, List.isChain_reverse]
  exact hdown

end Appraisal
