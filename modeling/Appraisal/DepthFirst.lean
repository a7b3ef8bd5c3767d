/-!
# Depth-first searches

A search keeps a stack of tasks, and the path from its root to where it stands, deepest first.
Meeting a key of the path again closes a circle.

* `Task` — what a search has still to do;
* `closedPath` — the circle, from the key met again back to itself;
* `countP_lt_countP` — why a search ends: with each key entered, fewer are fresh.
-/

namespace Appraisal

/-- What a search has still to do. -/
inductive Task where
  /-- Visit a key. -/
  | visit (key : String)
  /-- Leave the deepest key of the path. -/
  | leave
deriving DecidableEq

/-- The circle that meeting the key again closes on a path with its deepest key first: from the key
    along the path and back to the key. -/
def closedPath (path : List String) (key : String) : List String :=
  key :: (path.takeWhile (· ≠ key)).reverse ++ [key]

/-- A narrower condition that one member fails counts fewer members. -/
theorem countP_lt_countP {α : Type} {p q : α → Bool} {l : List α} {a : α} (ha : a ∈ l)
    (hq : q a = true) (hp : p a = false) (hpq : ∀ b, p b = true → q b = true) :
    l.countP p < l.countP q := by
  induction l with
  | nil => simp at ha
  | cons b l ih =>
    have hmono : l.countP p ≤ l.countP q := List.countP_mono_left fun c _ => hpq c
    simp only [List.countP_cons]
    rcases List.mem_cons.1 ha with rfl | hin
    · simp only [hp, hq, Bool.false_eq_true, ↓reduceIte]
      omega
    · have hlt := ih hin
      by_cases hb : p b = true
      · simp only [hb, hpq b hb, ↓reduceIte]
        omega
      · simp only [hb, Bool.false_eq_true, ↓reduceIte]
        split <;> omega

end Appraisal
