import Appraisal.Graph.Order
import Appraisal.Proofs.Circle
import Appraisal.Proofs.Graph.Edges
import Appraisal.Proofs.Listing

/-!
# The order of evaluation

Cells are counted from the one end of their edges and released from the other. On a clean graph the
two agree, so that each cell that waits does so for the cells that it reads and that are not placed.

* `release_get?`, `mem_release` — what the placing of a cell does to its readers;
* `Graph.Placing` — where the placing stands; `Placing.step`, `Placing.run`;
* `Graph.Ordered` — each cell after the formula cells that it reads;
* `topologicalOrder_spec` — an order names each formula cell once, and is `Ordered`;
* `topologicalOrder_exists_iff` — **there is one iff no formula cell waits for itself**.
-/

namespace Appraisal

open Appraisal.Text

/-! ## 1. Counting -/

/-- Without one of the members that meet a condition, one fewer does. -/
theorem countP_ne_of_mem {α : Type} [DecidableEq α] {p : α → Bool} {l : List α} {a : α}
    (hn : l.Nodup) (ha : a ∈ l) (hp : p a = true) :
    (l.countP fun b => p b && decide (b ≠ a)) + 1 = l.countP p := by
  induction l with
  | nil => cases ha
  | cons b l ih =>
    rw [List.nodup_cons] at hn
    rw [List.countP_cons, List.countP_cons]
    by_cases hb : b = a
    · subst hb
      have hrest : (l.countP fun c => p c && decide (c ≠ b)) = l.countP p := by
        refine List.countP_congr fun c hc => ?_
        have hne : c ≠ b := fun he => hn.1 (he ▸ hc)
        rw [decide_eq_true hne, Bool.and_true]
      rw [hrest, hp]
      simp
    · have hmem : a ∈ l := (List.mem_cons.mp ha).resolve_left (Ne.symm hb)
      have hrest := ih hn.2 hmem
      rw [decide_eq_true hb, Bool.and_true]
      omega

namespace Graph

/-! ## 2. What the placing of a cell does -/

section Release

variable {reader : String} {readers : List String} {waiting : Listing Nat} {count : Nat}

theorem release_unknown (h : waiting.get? reader = none) :
    release (reader :: readers) waiting = release readers waiting := by
  rw [release, h]

theorem release_last (h : waiting.get? reader = some count) (hc : count ≤ 1) :
    release (reader :: readers) waiting =
      ((release readers (waiting.erase reader)).1,
        reader :: (release readers (waiting.erase reader)).2) := by
  rw [release, h]
  exact if_pos hc

theorem release_more (h : waiting.get? reader = some count) (hc : ¬ count ≤ 1) :
    release (reader :: readers) waiting = release readers (waiting.put reader (count - 1)) := by
  rw [release, h]
  exact if_neg hc

theorem mem_cons_of_ne {x : String} (h : x ≠ reader) : x ∈ reader :: readers ↔ x ∈ readers := by
  rw [List.mem_cons]
  exact ⟨fun hx => hx.resolve_left h, Or.inr⟩

end Release

/-- A reader that waits for one cell waits no more; one that waits for more waits for one fewer. -/
theorem release_get? {readers : List String} (hn : readers.Nodup) (waiting : Listing Nat)
    (x : String) :
    (release readers waiting).1.get? x = (waiting.get? x).bind fun count =>
      if x ∈ readers then if count ≤ 1 then none else some (count - 1) else some count := by
  induction readers generalizing waiting with
  | nil =>
    rw [release]
    cases waiting.get? x with
    | none => rfl
    | some count => rfl
  | cons reader readers ih =>
    rw [List.nodup_cons] at hn
    cases hw : waiting.get? reader with
    | none =>
      rw [release_unknown hw, ih hn.2]
      by_cases hx : x = reader
      · rw [hx, hw]
        rfl
      · simp only [mem_cons_of_ne hx]
    | some count =>
      by_cases hc : count ≤ 1
      · rw [release_last hw hc]
        show (release readers (waiting.erase reader)).1.get? x = _
        rw [ih hn.2]
        by_cases hx : x = reader
        · rw [hx, Listing.get?_erase_self, hw, Option.bind_some, if_pos List.mem_cons_self,
            if_pos hc]
          rfl
        · rw [Listing.get?_erase_of_ne _ hx]
          simp only [mem_cons_of_ne hx]
      · rw [release_more hw hc, ih hn.2]
        by_cases hx : x = reader
        · rw [hx, Listing.get?_put_self, hw, Option.bind_some, Option.bind_some, if_neg hn.1,
            if_pos List.mem_cons_self, if_neg hc]
        · rw [Listing.get?_put_of_ne _ hx]
          simp only [mem_cons_of_ne hx]

/-- Those that still wait are the others and the readers that waited for more than one cell. -/
theorem release_get?_eq_some {readers : List String} (hn : readers.Nodup) {waiting : Listing Nat}
    {x : String} {n : Nat} :
    (release readers waiting).1.get? x = some n ↔ ∃ count, waiting.get? x = some count ∧
      ((x ∈ readers ∧ 1 < count ∧ n = count - 1) ∨ (x ∉ readers ∧ n = count)) := by
  rw [release_get? hn, Option.bind_eq_some_iff]
  refine exists_congr fun count => and_congr_right fun _ => ?_
  by_cases hx : x ∈ readers
  · rw [if_pos hx]
    by_cases hc : count ≤ 1
    · rw [if_pos hc]
      refine ⟨nofun, fun h => ?_⟩
      rcases h with ⟨-, hlt, -⟩ | ⟨hno, -⟩
      · omega
      · exact absurd hx hno
    · rw [if_neg hc, Option.some.injEq]
      refine ⟨fun h => Or.inl ⟨hx, by omega, h.symm⟩, fun h => ?_⟩
      rcases h with ⟨-, -, h⟩ | ⟨hno, -⟩
      · exact h.symm
      · exact absurd hx hno
  · rw [if_neg hx, Option.some.injEq]
    refine ⟨fun h => Or.inr ⟨hx, h.symm⟩, fun h => ?_⟩
    rcases h with ⟨hyes, -⟩ | ⟨-, h⟩
    · exact absurd hyes hx
    · exact h.symm

theorem release_sublist (readers : List String) (waiting : Listing Nat) :
    (release readers waiting).2.Sublist readers := by
  induction readers generalizing waiting with
  | nil => exact List.Sublist.slnil
  | cons reader readers ih =>
    cases hw : waiting.get? reader with
    | none =>
      rw [release_unknown hw]
      exact (ih waiting).cons reader
    | some count =>
      by_cases hc : count ≤ 1
      · rw [release_last hw hc]
        exact (ih _).cons_cons reader
      · rw [release_more hw hc]
        exact (ih _).cons reader

/-- Those that wait no more are the readers that waited for one cell. -/
theorem mem_release {readers : List String} (hn : readers.Nodup) {waiting : Listing Nat}
    {x : String} :
    x ∈ (release readers waiting).2 ↔
      x ∈ readers ∧ ∃ count, waiting.get? x = some count ∧ count ≤ 1 := by
  induction readers generalizing waiting with
  | nil => exact ⟨fun h => absurd h List.not_mem_nil, fun h => absurd h.1 List.not_mem_nil⟩
  | cons reader readers ih =>
    rw [List.nodup_cons] at hn
    have hself : ∀ w : Listing Nat, reader ∉ (release readers w).2 :=
      fun w h => hn.1 ((release_sublist readers w).subset h)
    cases hw : waiting.get? reader with
    | none =>
      rw [release_unknown hw, ih hn.2, List.mem_cons]
      constructor
      · exact fun h => ⟨Or.inr h.1, h.2⟩
      · rintro ⟨hx, count, hget, hle⟩
        refine ⟨hx.resolve_left fun he => ?_, count, hget, hle⟩
        rw [he, hw] at hget
        cases hget
    | some count =>
      by_cases hc : count ≤ 1
      · rw [release_last hw hc, List.mem_cons]
        by_cases hx : x = reader
        · subst hx
          exact ⟨fun _ => ⟨List.mem_cons_self, count, hw, hc⟩, fun _ => Or.inl rfl⟩
        · rw [ih hn.2, Listing.get?_erase_of_ne _ hx, mem_cons_of_ne hx]
          exact ⟨fun h => h.resolve_left hx, Or.inr⟩
      · rw [release_more hw hc]
        by_cases hx : x = reader
        · subst hx
          constructor
          · exact fun h => absurd h (hself _)
          · rintro ⟨-, n, hget, hle⟩
            rw [hw] at hget
            cases hget
            exact absurd hle hc
        · rw [ih hn.2, Listing.get?_put_of_ne _ hx, mem_cons_of_ne hx]

/-! ## 3. Where the placing stands -/

variable {g : Graph}

/-- A formula cell reads another formula cell, and so waits for it. -/
def Waits (g : Graph) (cell read : String) : Prop :=
  read ∈ g.reads cell ∧ cell ∈ g.cells ∧ read ∈ g.cells

/-- Each cell of an order stands after the formula cells that it reads. -/
def Ordered (g : Graph) (order : List String) : Prop :=
  ∀ before cell after, order = before ++ cell :: after →
    ∀ read ∈ g.reads cell, read ∈ g.cells → read ∈ before

theorem Ordered.concat {order : List String} {cell : String} (h : g.Ordered order)
    (hc : ∀ read ∈ g.reads cell, read ∈ g.cells → read ∈ order) : g.Ordered (order ++ [cell]) := by
  intro before x after hsplit read hread hcell
  rcases List.eq_nil_or_concat after with rfl | ⟨after, last, rfl⟩
  · obtain ⟨rfl, hx⟩ := List.append_inj' hsplit rfl
    cases hx
    exact hc read hread hcell
  · have hsplit' : order ++ [cell] = (before ++ x :: after) ++ [last] := by
      rw [hsplit, List.concat_eq_append, List.append_assoc]
      rfl
    obtain ⟨horder, -⟩ := List.append_inj' hsplit' rfl
    exact h before x after horder read hread hcell

/-- The number of formula cells that a cell reads and that are not placed. -/
def lack (g : Graph) (placed : List String) (cell : String) : Nat :=
  (g.reads cell).countP fun read => g.formulas.has read && decide (read ∉ placed)

theorem mem_cells_iff {cell : String} : g.formulas.has cell = true ↔ cell ∈ g.cells :=
  Listing.has_iff

theorem lack_nil (g : Graph) (cell : String) : g.lack [] cell = g.degree cell := by
  refine List.countP_congr fun read _ => ?_
  rw [decide_eq_true List.not_mem_nil, Bool.and_true]

theorem lack_eq_zero {placed : List String} {cell : String} :
    g.lack placed cell = 0 ↔ ∀ read ∈ g.reads cell, read ∈ g.cells → read ∈ placed := by
  unfold lack
  rw [List.countP_eq_zero]
  refine forall₂_congr fun read _ => ?_
  rw [Bool.and_eq_true, mem_cells_iff, decide_eq_true_iff, not_and, not_not]

/-- With each cell that is placed, those that read it lack one fewer. -/
theorem lack_placed (hg : g.Clean) {placed : List String} {cell x : String}
    (hc : cell ∈ g.cells) (hnew : cell ∉ placed) (hx : cell ∈ g.reads x) :
    g.lack (placed ++ [cell]) x + 1 = g.lack placed x := by
  have hp : (g.formulas.has cell && decide (cell ∉ placed)) = true := by
    rw [mem_cells_iff.mpr hc, decide_eq_true hnew]
    rfl
  have hcount := countP_ne_of_mem (p := fun read => g.formulas.has read && decide (read ∉ placed))
    (hg.reads x) hx hp
  unfold lack
  rw [← hcount]
  refine congrArg (· + 1) (List.countP_congr fun read _ => ?_)
  rw [Bool.and_eq_true, Bool.and_eq_true, Bool.and_eq_true, decide_eq_true_iff,
    decide_eq_true_iff, decide_eq_true_iff, List.mem_append, List.mem_singleton, not_or, and_assoc]

theorem lack_other {placed : List String} {cell x : String} (hx : cell ∉ g.reads x) :
    g.lack (placed ++ [cell]) x = g.lack placed x := by
  refine List.countP_congr fun read hread => ?_
  have hne : read ≠ cell := fun he => hx (he ▸ hread)
  rw [Bool.and_eq_true, Bool.and_eq_true, decide_eq_true_iff, decide_eq_true_iff,
    List.mem_append, List.mem_singleton, not_or]
  exact and_congr_right fun _ => ⟨fun h => h.1, fun h => ⟨h, hne⟩⟩

/-- Where the placing stands: some cells are placed, others in line, and the rest wait, each for
    as many cells as it lacks. -/
structure Placing (g : Graph) (placed line : List String) (waiting : Listing Nat) : Prop where
  nodup : (placed ++ line).Nodup
  cells : ∀ x ∈ placed ++ line, x ∈ g.cells
  apart : ∀ x count, waiting.get? x = some count → x ∈ g.cells ∧ x ∉ placed ++ line
  covers : ∀ x ∈ g.cells, x ∈ placed ++ line ∨ ∃ count, waiting.get? x = some count
  lack : ∀ x count, waiting.get? x = some count → count = g.lack placed x ∧ 0 < count
  ready : ∀ x ∈ line, g.lack placed x = 0
  ordered : g.Ordered placed

section Step

variable {placed line : List String} {cell : String} {waiting : Listing Nat}

/-- The readers of a cell in the order of their release. -/
abbrev readersOf (g : Graph) (cell : String) : List String :=
  sorted (g.readers cell)

theorem Clean.nodup_readersOf (hg : g.Clean) (cell : String) : (g.readersOf cell).Nodup :=
  (sorted_perm _).nodup_iff.mpr (hg.readers cell)

theorem Clean.mem_readersOf (hg : g.Clean) {x : String} :
    x ∈ g.readersOf cell ↔ cell ∈ g.reads x := by
  rw [mem_sorted, hg.mirror]

/-- A waiting reader of the next cell lacks one fewer once that is placed. -/
theorem Placing.lack_reader (hg : g.Clean) (h : Placing g placed (cell :: line) waiting) {x : String}
    {count : Nat} (hget : waiting.get? x = some count) (hx : x ∈ g.readersOf cell) :
    g.lack (placed ++ [cell]) x + 1 = count := by
  have hcell : cell ∈ g.cells := h.cells cell (List.mem_append_right _ List.mem_cons_self)
  have hnew : cell ∉ placed := fun hm =>
    (List.nodup_append.mp h.nodup).2.2 cell hm cell List.mem_cons_self rfl
  rw [lack_placed hg hcell hnew (hg.mem_readersOf.mp hx)]
  exact (h.lack x count hget).1.symm

/-- What is released was waiting for the next cell alone. -/
theorem Placing.released (hg : g.Clean) (h : Placing g placed (cell :: line) waiting) {x : String}
    (hx : x ∈ (release (g.readersOf cell) waiting).2) :
    x ∈ g.cells ∧ x ∉ placed ++ cell :: line ∧ g.lack (placed ++ [cell]) x = 0 := by
  obtain ⟨hreader, count, hget, hle⟩ := (mem_release (hg.nodup_readersOf cell)).mp hx
  obtain ⟨hcell, hout⟩ := h.apart x count hget
  have hlack := h.lack_reader hg hget hreader
  exact ⟨hcell, hout, by omega⟩

/-- **The placing of the next cell in line** leaves each cell that waits with what it lacks. -/
theorem Placing.step (hg : g.Clean) (h : Placing g placed (cell :: line) waiting) :
    Placing g (placed ++ [cell]) (line ++ (release (g.readersOf cell) waiting).2)
      (release (g.readersOf cell) waiting).1 := by
  have hn := hg.nodup_readersOf cell
  have hall : placed ++ [cell] ++ (line ++ (release (g.readersOf cell) waiting).2) =
      placed ++ cell :: line ++ (release (g.readersOf cell) waiting).2 := by
    rw [List.append_assoc, List.append_assoc]
    rfl
  refine { nodup := ?nodup, cells := ?cells, apart := ?apart, covers := ?covers, lack := ?lack,
           ready := ?ready, ordered := ?ordered }
  case nodup =>
    rw [hall, List.nodup_append]
    refine ⟨h.nodup, (release_sublist _ waiting).nodup hn, fun x hx y hy he => ?_⟩
    exact (h.released hg hy).2.1 (he ▸ hx)
  case cells =>
    intro x hx
    rw [hall] at hx
    rcases List.mem_append.mp hx with hx | hx
    · exact h.cells x hx
    · exact (h.released hg hx).1
  case apart =>
    intro x n hget
    obtain ⟨count, hcount, hcase⟩ := (release_get?_eq_some hn).mp hget
    obtain ⟨hx, hout⟩ := h.apart x count hcount
    rw [hall, List.mem_append, not_or]
    refine ⟨hx, hout, fun hrel => ?_⟩
    obtain ⟨hreader, count', hcount', hle⟩ := (mem_release hn).mp hrel
    rw [hcount] at hcount'
    cases hcount'
    rcases hcase with ⟨-, hlt, -⟩ | ⟨hno, -⟩
    · omega
    · exact hno hreader
  case covers =>
    intro x hx
    rw [hall, List.mem_append]
    rcases h.covers x hx with hin | ⟨count, hcount⟩
    · exact Or.inl (Or.inl hin)
    by_cases hreader : x ∈ g.readersOf cell
    · by_cases hle : count ≤ 1
      · exact Or.inl (Or.inr ((mem_release hn).mpr ⟨hreader, count, hcount, hle⟩))
      · refine Or.inr ⟨count - 1, (release_get?_eq_some hn).mpr ⟨count, hcount, Or.inl ?_⟩⟩
        exact ⟨hreader, by omega, rfl⟩
    · exact Or.inr ⟨count, (release_get?_eq_some hn).mpr ⟨count, hcount, Or.inr ⟨hreader, rfl⟩⟩⟩
  case lack =>
    intro x n hget
    obtain ⟨count, hcount, hcase⟩ := (release_get?_eq_some hn).mp hget
    obtain ⟨hlack, hpos⟩ := h.lack x count hcount
    rcases hcase with ⟨hreader, hlt, rfl⟩ | ⟨hno, rfl⟩
    · have hfewer := h.lack_reader hg hcount hreader
      omega
    · rw [lack_other fun hread => hno (hg.mem_readersOf.mpr hread)]
      exact ⟨hlack, hpos⟩
  case ready =>
    intro x hx
    rcases List.mem_append.mp hx with hx | hx
    · rw [lack_eq_zero]
      exact fun read hread hc => List.mem_append_left _
        (lack_eq_zero.mp (h.ready x (List.mem_cons_of_mem _ hx)) read hread hc)
    · exact (h.released hg hx).2.2
  case ordered => exact h.ordered.concat (lack_eq_zero.mp (h.ready cell List.mem_cons_self))

/-- **The placing to its end**: nothing is in line any more. -/
theorem Placing.run (hg : g.Clean) (h : Placing g placed line waiting) :
    ∃ waiting', Placing g (placed ++ g.place waiting line) [] waiting' := by
  fun_induction g.place waiting line generalizing placed with
  | case1 waiting =>
    rw [List.append_nil]
    exact ⟨waiting, h⟩
  | case2 waiting cell line released =>
    rename_i ih
    obtain ⟨waiting', hend⟩ := ih (h.step hg)
    rw [List.append_assoc] at hend
    exact ⟨waiting', hend⟩

end Step

/-! ## 4. The order -/

theorem placing_start (hg : g.Clean) :
    Placing g [] (sorted (g.cells.filter (g.degree · = 0)))
      ((g.cells.filter (g.degree · ≠ 0)).map fun cell => (cell, g.degree cell)) := by
  have hline : ∀ x, x ∈ sorted (g.cells.filter (g.degree · = 0)) ↔
      x ∈ g.cells ∧ g.degree x = 0 := by
    intro x
    rw [mem_sorted, List.mem_filter, decide_eq_true_iff]
  have hwait : ∀ x count, Listing.get? ((g.cells.filter (g.degree · ≠ 0)).map
      fun cell => (cell, g.degree cell)) x = some count ↔
        (x ∈ g.cells ∧ g.degree x ≠ 0) ∧ g.degree x = count := by
    intro x count
    rw [Listing.get?_map, Option.ite_none_right_eq_some, List.mem_filter, decide_eq_true_iff,
      Option.some.injEq]
  constructor
  · exact (sorted_perm _).nodup_iff.mpr (hg.cells.filter _)
  · exact fun x hx => ((hline x).mp hx).1
  · intro x count hget
    obtain ⟨⟨hx, hne⟩, -⟩ := (hwait x count).mp hget
    exact ⟨hx, fun hin => hne ((hline x).mp hin).2⟩
  · intro x hx
    by_cases hz : g.degree x = 0
    · exact Or.inl ((hline x).mpr ⟨hx, hz⟩)
    · exact Or.inr ⟨g.degree x, (hwait x _).mpr ⟨⟨hx, hz⟩, rfl⟩⟩
  · intro x count hget
    obtain ⟨⟨-, hne⟩, rfl⟩ := (hwait x count).mp hget
    exact ⟨(g.lack_nil x).symm, Nat.pos_of_ne_zero hne⟩
  · intro x hx
    rw [lack_nil]
    exact ((hline x).mp hx).2
  · intro before cell after hsplit
    cases before with
    | nil => cases hsplit
    | cons _ _ => cases hsplit

/-- What is placed: formula cells, each once and after those it reads; and what is not placed waits
    for something that is not placed either. -/
theorem placed_spec (hg : g.Clean) :
    g.placed.Nodup ∧ (∀ x ∈ g.placed, x ∈ g.cells) ∧ g.Ordered g.placed ∧
      ∀ x ∈ g.cells, x ∉ g.placed → ∃ y, g.Waits x y ∧ y ∉ g.placed := by
  obtain ⟨waiting, h⟩ := (placing_start hg).run hg
  rw [List.nil_append] at h
  have hnodup := h.nodup
  have hcells := h.cells
  have hcovers := h.covers
  rw [List.append_nil] at hnodup hcells hcovers
  refine ⟨hnodup, hcells, h.ordered, fun x hx hout => ?_⟩
  obtain ⟨count, hcount⟩ := (hcovers x hx).resolve_left hout
  obtain ⟨hlack, hpos⟩ := h.lack x count hcount
  obtain ⟨y, hy, hp⟩ := List.countP_pos_iff.mp (hlack ▸ hpos)
  rw [Bool.and_eq_true, mem_cells_iff, decide_eq_true_iff] at hp
  exact ⟨y, ⟨hy, hx, hp.1⟩, hp.2⟩

/-- What a cell of an order waits for stands before it. -/
theorem Ordered.idxOf_lt {order : List String} (h : g.Ordered order) {x y : String}
    (hx : x ∈ order) (hw : g.Waits x y) : order.idxOf y < order.idxOf x := by
  obtain ⟨before, after, rfl, hnot⟩ := List.eq_append_cons_of_mem hx
  have hy : y ∈ before := h before x after rfl y hw.1 hw.2.2
  rw [List.idxOf_append_of_mem hy, List.idxOf_append_of_notMem hnot, List.idxOf_cons_self]
  exact Nat.lt_add_right _ (List.idxOf_lt_length_of_mem hy)

theorem topologicalOrder_eq (g : Graph) (h : g.placed.length = g.cells.length) :
    g.topologicalOrder = .ok g.placed := if_pos h

theorem topologicalOrder_error (g : Graph) (h : g.placed.length ≠ g.cells.length) :
    ∃ cycle, g.topologicalOrder = .error (.circular cycle) :=
  ⟨_, if_neg h⟩

theorem length_of_topologicalOrder {order : List String} (h : g.topologicalOrder = .ok order) :
    g.placed.length = g.cells.length ∧ order = g.placed := by
  by_cases hlen : g.placed.length = g.cells.length
  · rw [topologicalOrder_eq g hlen] at h
    exact ⟨hlen, (Except.ok.inj h).symm⟩
  · obtain ⟨cycle, herror⟩ := g.topologicalOrder_error hlen
    rw [herror] at h
    cases h

/-- Where there is no order, a circle is reported. -/
theorem topologicalOrder_cases (g : Graph) :
    (∃ order, g.topologicalOrder = .ok order) ∨
      ∃ cycle, g.topologicalOrder = .error (.circular cycle) := by
  by_cases hlen : g.placed.length = g.cells.length
  · exact Or.inl ⟨_, topologicalOrder_eq g hlen⟩
  · exact Or.inr (topologicalOrder_error g hlen)

/-- **An order names each formula cell once, and after the formula cells that it reads.** -/
theorem topologicalOrder_spec (hg : g.Clean) {order : List String}
    (h : g.topologicalOrder = .ok order) : order.Perm g.cells ∧ g.Ordered order := by
  obtain ⟨hlen, rfl⟩ := length_of_topologicalOrder h
  obtain ⟨hn, hcells, hordered, -⟩ := placed_spec hg
  exact ⟨(hn.subperm hcells).perm_of_length_le (Nat.le_of_eq hlen.symm), hordered⟩

/-- **There is an order exactly if no formula cell waits for itself in the end.** -/
theorem topologicalOrder_exists_iff (hg : g.Clean) :
    (∃ order, g.topologicalOrder = .ok order) ↔ ∀ x, ¬ Relation.TransGen g.Waits x x := by
  obtain ⟨hn, hcells, -, hleft⟩ := placed_spec hg
  constructor
  · intro ⟨order, h⟩
    obtain ⟨hperm, hordered⟩ := topologicalOrder_spec hg h
    exact not_circle_of_rank order.idxOf fun x y hw =>
      hordered.idxOf_lt (hperm.mem_iff.mpr hw.2.1) hw
  · intro hno
    refine ⟨g.placed, topologicalOrder_eq g ?_⟩
    have hall : ∀ x ∈ g.cells, x ∈ g.placed := by
      refine fun x hx => Classical.byContradiction fun hout => ?_
      -- what is not placed would lead round in a circle
      have hrest : x ∈ g.cells.filter (· ∉ g.placed) :=
        List.mem_filter.mpr ⟨hx, decide_eq_true hout⟩
      obtain ⟨y, -, hcircle⟩ := exists_circle (R := g.Waits) (List.ne_nil_of_mem hrest) <| by
        intro a ha
        obtain ⟨ha, hout⟩ := List.mem_filter.mp ha
        obtain ⟨b, hw, hb⟩ := hleft a ha (of_decide_eq_true hout)
        exact ⟨b, List.mem_filter.mpr ⟨hw.2.2, decide_eq_true hb⟩, hw⟩
      exact hno y hcircle
    exact Nat.le_antisymm (hn.subperm hcells).length_le (hg.cells.subperm hall).length_le

end Graph

end Appraisal
