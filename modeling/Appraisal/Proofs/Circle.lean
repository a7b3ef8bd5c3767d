import Mathlib.Data.Fintype.Card
import Mathlib.Data.List.Chain
import Mathlib.Data.Set.Finite.Basic
import Mathlib.Logic.Relation
import Mathlib.Order.WellFounded

/-!
# Circles of a relation

* `exists_circle` — a finite collection in which each member leads to another has a circle;
* `not_circle_of_rank` — a relation that goes down in rank has none;
* `exists_path` — what leads to another does so on a path without repetition.
-/

namespace Appraisal

variable {α : Type} {R : α → α → Prop}

/-- A finite collection in which each member leads to another has a circle. -/
theorem exists_circle {l : List α} (hne : l ≠ []) (h : ∀ a ∈ l, ∃ b ∈ l, R a b) :
    ∃ a ∈ l, Relation.TransGen R a a := by
  refine Classical.byContradiction fun hno => ?_
  let below : {a // a ∈ l} → {a // a ∈ l} → Prop := fun b a => Relation.TransGen R a.1 b.1
  have htrans : IsTrans _ below := ⟨fun _ _ _ hab hbc => hbc.trans hab⟩
  have hirrefl : Std.Irrefl below := ⟨fun a ha => hno ⟨a.1, a.2, ha⟩⟩
  have hfinite : Finite {a // a ∈ l} := (List.finite_toSet l).to_subtype
  have hwf : WellFounded below := Finite.wellFounded_of_trans_of_irrefl below
  obtain ⟨first, hfirst⟩ := List.exists_mem_of_ne_nil l hne
  obtain ⟨least, -, hleast⟩ := hwf.has_min Set.univ ⟨⟨first, hfirst⟩, trivial⟩
  obtain ⟨b, hb, hread⟩ := h least.1 least.2
  exact hleast ⟨b, hb⟩ trivial (.single hread)

/-- A relation that goes down in rank has no circle. -/
theorem not_circle_of_rank (rank : α → Nat) (h : ∀ a b, R a b → rank b < rank a) (a : α) :
    ¬ Relation.TransGen R a a := by
  have hdown : ∀ b, Relation.TransGen R a b → rank b < rank a := by
    intro b hlead
    induction hlead with
    | single hab => exact h _ _ hab
    | tail _ hbc ih => exact Nat.lt_trans (h _ _ hbc) ih
  exact fun hcircle => Nat.lt_irrefl _ (hdown a hcircle)

/-- What leads to another does so on a path that comes to no place twice before its end. -/
theorem exists_path {a b : α} (h : Relation.TransGen R a b) :
    ∃ between, (a :: between ++ [b]).IsChain R ∧ (a :: between).Nodup := by
  induction h using Relation.TransGen.head_induction_on with
  | single hab => exact ⟨[], List.isChain_pair.mpr hab, List.nodup_singleton _⟩
  | @head a c hac _ ih =>
    obtain ⟨between, hchain, hnodup⟩ := ih
    by_cases ha : a ∈ c :: between
    · -- the path has come back to where it began: the part before is left out
      obtain ⟨before, after, hsplit⟩ := List.append_of_mem ha
      rw [hsplit] at hchain hnodup
      rw [List.append_assoc] at hchain
      exact ⟨after, hchain.right_of_append, hnodup.of_append_right⟩
    · exact ⟨c :: between, List.isChain_cons_cons.mpr ⟨hac, hchain⟩,
        List.nodup_cons.mpr ⟨ha, hnodup⟩⟩

/-- Each place on a path but the last has a next one. -/
theorem exists_next {l : List α} {a b : α} (h : (l ++ [b]).IsChain R) (ha : a ∈ l) :
    ∃ c, R a c := by
  obtain ⟨before, after, rfl⟩ := List.append_of_mem ha
  rw [List.append_assoc] at h
  cases after with
  | nil => exact ⟨b, (List.isChain_cons_cons.mp h.right_of_append).1⟩
  | cons c after => exact ⟨c, (List.isChain_cons_cons.mp h.right_of_append).1⟩

end Appraisal
