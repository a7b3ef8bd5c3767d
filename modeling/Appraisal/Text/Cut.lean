/-!
# Cutting a text at a character

* `cutFirst`, `cutLast` — the text before and after the first or the last occurrence;
* `cutOnly` — the same where the character occurs exactly once;
* `cutLast_eq_some_iff` — **the last cut is the one after which the character is gone**.
-/

namespace Appraisal.Text

/-! ## 1. The cuts -/

/-- What stands before and after the first occurrence of the character. -/
def cutFirst (c : Char) : List Char → Option (List Char × List Char)
  | [] => none
  | x :: xs => if x = c then some ([], xs) else (cutFirst c xs).map fun p => (x :: p.1, p.2)

/-- What stands before and after the last occurrence of the character. -/
def cutLast (c : Char) : List Char → Option (List Char × List Char)
  | [] => none
  | x :: xs =>
    match cutLast c xs with
    | some p => some (x :: p.1, p.2)
    | none => if x = c then some ([], xs) else none

/-- What stands before and after the character, where it occurs exactly once. -/
def cutOnly (c : Char) (cs : List Char) : Option (List Char × List Char) :=
  match cutFirst c cs with
  | some (before, after) => if c ∈ after then none else some (before, after)
  | none => none

/-! ## 2. What they find -/

theorem cutFirst_eq_none_iff {c : Char} {cs : List Char} : cutFirst c cs = none ↔ c ∉ cs := by
  induction cs with
  | nil => simp [cutFirst]
  | cons x xs ih =>
    by_cases hx : x = c
    · simp [cutFirst, hx]
    · have hne : c ≠ x := fun h => hx h.symm
      simp [cutFirst, hx, ih, hne]

theorem cutFirst_append {c : Char} {before : List Char} (h : c ∉ before) (after : List Char) :
    cutFirst c (before ++ c :: after) = some (before, after) := by
  induction before with
  | nil => exact if_pos rfl
  | cons x before ih =>
    obtain ⟨hx, hbefore⟩ := not_or.mp (mt List.mem_cons.mpr h)
    rw [List.cons_append, cutFirst, if_neg (Ne.symm hx), ih hbefore]
    rfl

theorem cutFirst_sound {c : Char} {cs before after : List Char}
    (h : cutFirst c cs = some (before, after)) : cs = before ++ c :: after ∧ c ∉ before := by
  induction cs generalizing before after with
  | nil => cases h
  | cons x xs ih =>
    rw [cutFirst] at h
    by_cases hx : x = c
    · rw [if_pos hx] at h
      cases h
      exact ⟨congrArg (· :: xs) hx, List.not_mem_nil⟩
    · rw [if_neg hx] at h
      obtain ⟨p, hxs, hp⟩ := Option.map_eq_some_iff.mp h
      cases hp
      obtain ⟨hsplit, hbefore⟩ := ih hxs
      exact ⟨congrArg (x :: ·) hsplit, mt List.mem_cons.mp (not_or.mpr ⟨Ne.symm hx, hbefore⟩)⟩

theorem cutFirst_eq_some_iff {c : Char} {cs before after : List Char} :
    cutFirst c cs = some (before, after) ↔ cs = before ++ c :: after ∧ c ∉ before := by
  refine ⟨cutFirst_sound, fun ⟨hsplit, hbefore⟩ => ?_⟩
  rw [hsplit]
  exact cutFirst_append hbefore after

theorem cutLast_eq_none_iff {c : Char} {cs : List Char} : cutLast c cs = none ↔ c ∉ cs := by
  induction cs with
  | nil => simp [cutLast]
  | cons x xs ih =>
    cases h : cutLast c xs with
    | some p =>
      have : c ∈ xs := by
        by_cases hm : c ∈ xs
        · exact hm
        · rw [ih.2 hm] at h
          simp at h
      simp [cutLast, h, this]
    | none =>
      have hm := ih.1 h
      by_cases hx : x = c
      · simp [cutLast, h, hx]
      · simp [cutLast, h, hx, hm, Ne.symm hx]

theorem cutLast_append {c : Char} {after : List Char} (h : c ∉ after) (before : List Char) :
    cutLast c (before ++ c :: after) = some (before, after) := by
  induction before with
  | nil =>
    rw [List.nil_append, cutLast, cutLast_eq_none_iff.2 h]
    exact if_pos rfl
  | cons x before ih => rw [List.cons_append, cutLast, ih]

theorem cutLast_sound {c : Char} {cs before after : List Char}
    (h : cutLast c cs = some (before, after)) : cs = before ++ c :: after ∧ c ∉ after := by
  induction cs generalizing before after with
  | nil => cases h
  | cons x xs ih =>
    cases hxs : cutLast c xs with
    | some p =>
      rw [cutLast, hxs] at h
      cases h
      obtain ⟨hsplit, hafter⟩ := ih hxs
      exact ⟨congrArg (x :: ·) hsplit, hafter⟩
    | none =>
      rw [cutLast, hxs] at h
      by_cases hx : x = c
      · rw [if_pos hx] at h
        cases h
        exact ⟨congrArg (· :: xs) hx, cutLast_eq_none_iff.1 hxs⟩
      · rw [if_neg hx] at h
        cases h

/-- **The last cut is the one after which the character is gone.** -/
theorem cutLast_eq_some_iff {c : Char} {cs before after : List Char} :
    cutLast c cs = some (before, after) ↔ cs = before ++ c :: after ∧ c ∉ after := by
  refine ⟨cutLast_sound, fun ⟨hsplit, hafter⟩ => ?_⟩
  rw [hsplit]
  exact cutLast_append hafter before

/-- A cut is a sole cut iff the character is missing on both sides. -/
theorem cutOnly_eq_some_iff {c : Char} {cs before after : List Char} :
    cutOnly c cs = some (before, after) ↔
      cs = before ++ c :: after ∧ c ∉ before ∧ c ∉ after := by
  constructor
  · intro h
    rw [cutOnly] at h
    cases hcut : cutFirst c cs with
    | none =>
      rw [hcut] at h
      cases h
    | some p =>
      obtain ⟨front, back⟩ := p
      rw [hcut] at h
      by_cases hmem : c ∈ back
      · have hnone : none = some (before, after) := (if_pos hmem).symm.trans h
        cases hnone
      · have hsome : some (front, back) = some (before, after) := (if_neg hmem).symm.trans h
        cases hsome
        obtain ⟨hsplit, hbefore⟩ := cutFirst_sound hcut
        exact ⟨hsplit, hbefore, hmem⟩
  · intro ⟨hsplit, hbefore, hafter⟩
    rw [hsplit, cutOnly, cutFirst_append hbefore after]
    exact if_neg hafter

end Appraisal.Text
