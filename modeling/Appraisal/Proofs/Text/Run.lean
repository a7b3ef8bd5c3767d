import Appraisal.Text.Blank

/-!
# Runs of characters

* `Free` — a text that begins with no character of a class; `takeWhile_run`, `dropWhile_run` — a
  run of the class in front of such a text is just what is taken and dropped;
* `exists_strip`, `strip_between` — **a text is what trimming leaves of it, with blanks about it**,
  and trimming leaves what has no blank at its ends.
-/

namespace Appraisal.Text

/-! ## 1. Texts that do not begin with a class -/

/-- The text begins with no character of the class. -/
def Free (p : Char → Bool) (cs : List Char) : Prop :=
  ∀ c, cs.head? = some c → p c = false

section Runs

variable {p q : Char → Bool} {cs rest : List Char}

theorem free_nil : Free p [] :=
  fun _ h => nomatch h

theorem free_cons {c : Char} (h : p c = false) : Free p (c :: cs) := by
  intro d hd
  cases hd
  exact h

theorem any_head?_eq_false_iff : cs.head?.any p = false ↔ Free p cs := by
  cases cs with
  | nil => exact ⟨fun _ => free_nil, fun _ => rfl⟩
  | cons c cs => exact ⟨free_cons, fun h => h c rfl⟩

theorem Free.mono (h : Free q cs) (hpq : ∀ c, p c = true → q c = true) : Free p cs := by
  intro c hc
  rw [Bool.eq_false_iff]
  intro hp
  have hq := h c hc
  rw [hpq c hp] at hq
  cases hq

theorem Free.append (hcs : Free p cs) (hne : cs ≠ []) : Free p (cs ++ rest) := by
  cases cs with
  | nil => exact absurd rfl hne
  | cons c cs => exact free_cons (hcs c rfl)

theorem Free.takeWhile (h : Free p cs) : cs.takeWhile p = [] := by
  cases cs with
  | nil => rfl
  | cons c cs => rw [List.takeWhile_cons, if_neg (Bool.eq_false_iff.mp (h c rfl))]

theorem Free.dropWhile (h : Free p cs) : cs.dropWhile p = cs := by
  cases cs with
  | nil => rfl
  | cons c cs => rw [List.dropWhile_cons, if_neg (Bool.eq_false_iff.mp (h c rfl))]

theorem takeWhile_run (hcs : ∀ c ∈ cs, p c = true) (hrest : Free p rest) :
    (cs ++ rest).takeWhile p = cs := by
  rw [List.takeWhile_append_of_pos hcs, hrest.takeWhile, List.append_nil]

theorem dropWhile_run (hcs : ∀ c ∈ cs, p c = true) (hrest : Free p rest) :
    (cs ++ rest).dropWhile p = rest := by
  rw [List.dropWhile_append_of_pos hcs, hrest.dropWhile]

theorem free_dropWhile (p : Char → Bool) (cs : List Char) : Free p (cs.dropWhile p) := by
  intro c hc
  have hnot := List.head?_dropWhile_not p cs
  rw [hc] at hnot
  exact hnot

theorem of_mem_takeWhile {c : Char} (h : c ∈ cs.takeWhile p) : p c = true :=
  List.all_eq_true.mp (List.all_takeWhile) c h

end Runs

/-! ## 2. Blanks at the ends -/

/-- A text is what trimming leaves of it, with blanks about it. -/
theorem exists_strip (cs : List Char) :
    ∃ left right, cs = left ++ (strip cs ++ right) ∧ (∀ c ∈ left, isBlank c = true) ∧
      ∀ c ∈ right, isBlank c = true := by
  have hends : ∀ ds : List Char, ∃ right, ds = (ds.reverse.dropWhile isBlank).reverse ++ right ∧
      ∀ c ∈ right, isBlank c = true := by
    intro ds
    refine ⟨(ds.reverse.takeWhile isBlank).reverse, ?_,
      fun c hc => of_mem_takeWhile (List.mem_reverse.mp hc)⟩
    rw [← List.reverse_append, List.takeWhile_append_dropWhile, List.reverse_reverse]
  obtain ⟨right, hright, hblank⟩ := hends (cs.dropWhile isBlank)
  refine ⟨cs.takeWhile isBlank, right, ?_, fun c hc => of_mem_takeWhile hc, hblank⟩
  show cs = cs.takeWhile isBlank ++
    (((cs.dropWhile isBlank).reverse.dropWhile isBlank).reverse ++ right)
  rw [← hright, List.takeWhile_append_dropWhile]

/-- Blanks about a text that has none at its ends are trimmed. -/
theorem strip_between {left cs right : List Char} (hleft : ∀ c ∈ left, isBlank c = true)
    (hright : ∀ c ∈ right, isBlank c = true)
    (hfirst : ∀ c, cs.head? = some c → isBlank c = false)
    (hlast : ∀ c, cs.getLast? = some c → isBlank c = false) :
    strip (left ++ (cs ++ right)) = cs := by
  have hbegin : Free isBlank cs := hfirst
  have hend : Free isBlank cs.reverse := fun c hc =>
    hlast c (by rwa [List.getLast?_eq_head?_reverse])
  by_cases hne : cs = []
  · have hblank : ∀ c ∈ left ++ right, isBlank c = true := fun c hc =>
      (List.mem_append.mp hc).elim (hleft c) (hright c)
    have hall : (left ++ right ++ []).dropWhile isBlank = [] := dropWhile_run hblank free_nil
    rw [List.append_nil] at hall
    rw [hne, List.nil_append, strip, trim, hall]
    rfl
  · rw [strip, trim, dropWhile_run hleft (hbegin.append hne), List.reverse_append,
      dropWhile_run (fun c hc => hright c (List.mem_reverse.mp hc)) hend, List.reverse_reverse]

end Appraisal.Text
