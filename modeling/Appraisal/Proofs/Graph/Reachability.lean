import Appraisal.Graph.Closure
import Appraisal.Proofs.Graph.Circles

/-!
# What a cell reads in the end

A search in breadth takes the cells in line one by one, passes over those that it has seen and puts
in line what the others read. The edges of a cell are kept without an order, so that what comes in
line does so in any order: one turn of the search has several outcomes, and a run of it has one.

* `Graph.Spread`, `Spread.Turn` — where a search stands, and one turn of it;
* `Spread.From` — what holds wherever a search from a cell stands; `From.turn`, `From.turns`;
* `Turn.wellFounded` — **no search goes on for ever**;
* `reach_turns` — the listed search is one of these;
* `closure_ofCalls` — **whatever has been registered, a cell's closure is what it leads to**.
-/

namespace Appraisal.Graph

open Appraisal.Text

/-- A cell reads another. -/
abbrev Reads (g : Graph) (cell read : String) : Prop :=
  read ∈ g.reads cell

/-! ## 1. Turns of a search -/

/-- Where a search in breadth stands. -/
structure Spread where
  /-- The cells seen, the last one first. -/
  seen : List String
  /-- The cells in line. -/
  line : List String

namespace Spread

variable {g : Graph} {cell : String} {s s' : Spread}

/-- One turn of a search. -/
inductive Turn (g : Graph) : Spread → Spread → Prop where
  /-- The first cell in line has been seen and is passed over. -/
  | pass {cell : String} {seen line : List String} (h : cell ∈ seen) :
      Turn g ⟨seen, cell :: line⟩ ⟨seen, line⟩
  /-- The first cell in line is new; what it reads and is new comes in line, in any order. -/
  | see {cell : String} {seen line added : List String} (h : cell ∉ seen)
      (ha : added.Perm ((g.reads cell).filter (· ∉ cell :: seen))) :
      Turn g ⟨seen, cell :: line⟩ ⟨cell :: seen, line ++ added⟩

/-- What holds wherever a search from a cell stands. -/
structure From (g : Graph) (cell : String) (s : Spread) : Prop where
  nodup : s.seen.Nodup
  reached : ∀ x, x ∈ s.seen ∨ x ∈ s.line → Relation.TransGen g.Reads cell x
  first : ∀ x ∈ g.reads cell, x ∈ s.seen ∨ x ∈ s.line
  next : ∀ x ∈ s.seen, ∀ y ∈ g.reads x, y ∈ s.seen ∨ y ∈ s.line

theorem From.start {line : List String} (h : line.Perm (g.reads cell)) :
    From g cell ⟨[], line⟩ where
  nodup := List.nodup_nil
  reached _ hx := .single (h.mem_iff.mp (hx.resolve_left List.not_mem_nil))
  first _ hx := Or.inr (h.mem_iff.mpr hx)
  next _ hx := absurd hx List.not_mem_nil

/-- **A turn forgets no cell**: what was seen or in line is so afterwards. -/
theorem Turn.keeps (h : Turn g s s') {x : String} (hx : x ∈ s.seen ∨ x ∈ s.line) :
    x ∈ s'.seen ∨ x ∈ s'.line := by
  cases h with
  | pass hcell =>
    rcases hx with hx | hx
    · exact Or.inl hx
    · rcases List.mem_cons.mp hx with rfl | hx
      · exact Or.inl hcell
      · exact Or.inr hx
  | see hcell ha =>
    rcases hx with hx | hx
    · exact Or.inl (List.mem_cons_of_mem _ hx)
    · rcases List.mem_cons.mp hx with rfl | hx
      · exact Or.inl List.mem_cons_self
      · exact Or.inr (List.mem_append_left _ hx)

/-- One turn keeps what holds of a search from a cell. -/
theorem From.turn (h : From g cell s) (ht : Turn g s s') : From g cell s' := by
  have hfirst : ∀ x ∈ g.reads cell, x ∈ s'.seen ∨ x ∈ s'.line :=
    fun x hx => ht.keeps (h.first x hx)
  have hkept : ∀ x ∈ s.seen, ∀ y ∈ g.reads x, y ∈ s'.seen ∨ y ∈ s'.line :=
    fun x hx y hy => ht.keeps (h.next x hx y hy)
  cases ht with
  | pass hcell =>
    exact ⟨h.nodup, fun x hx => h.reached x (hx.imp id (List.mem_cons_of_mem _)), hfirst, hkept⟩
  | @see c seen line added hcell ha =>
    have hc : Relation.TransGen g.Reads cell c := h.reached c (Or.inr List.mem_cons_self)
    refine ⟨List.nodup_cons.mpr ⟨hcell, h.nodup⟩, fun x hx => ?_, hfirst, fun x hx y hy => ?_⟩
    · rcases hx with hx | hx
      · rcases List.mem_cons.mp hx with rfl | hx
        · exact hc
        · exact h.reached x (Or.inl hx)
      · rcases List.mem_append.mp hx with hx | hx
        · exact h.reached x (Or.inr (List.mem_cons_of_mem c hx))
        · exact hc.tail (List.mem_filter.mp (ha.mem_iff.mp hx)).1
    · rcases List.mem_cons.mp hx with rfl | hx
      · -- what the new cell reads has been seen, or comes in line now
        by_cases hy' : y ∈ x :: seen
        · exact Or.inl hy'
        · exact Or.inr (List.mem_append_right line
            (ha.mem_iff.mpr (List.mem_filter.mpr ⟨hy, decide_eq_true hy'⟩)))
      · exact hkept x hx y hy

theorem From.turns (h : From g cell s) (ht : Relation.ReflTransGen (Turn g) s s') :
    From g cell s' := by
  induction ht with
  | refl => exact h
  | tail _ hturn ih => exact ih.turn hturn

/-- With nothing in line, what has been seen is what the cell leads to. -/
theorem From.mem_seen_iff {seen : List String} (h : From g cell ⟨seen, []⟩) {x : String} :
    x ∈ seen ↔ Relation.TransGen g.Reads cell x := by
  refine ⟨fun hx => h.reached x (Or.inl hx), fun hlead => ?_⟩
  induction hlead with
  | single hread => exact (h.first _ hread).resolve_right List.not_mem_nil
  | tail _ hread ih => exact (h.next _ ih _ hread).resolve_right List.not_mem_nil

/-! ## 2. Why a search ends -/

theorem reads_eq_nil (h : cell ∉ g.dependencies.names) : g.reads cell = [] := by
  rw [reads, Listing.get?_eq_none_iff.mpr h]
  rfl

/-- The number of cells with edges that have not been seen. -/
def unseen (g : Graph) (s : Spread) : Nat :=
  g.dependencies.names.countP fun x => decide (x ∉ s.seen)

/-- **No search goes on for ever**: with each turn fewer cells with edges are unseen, or as many
    are and fewer cells are in line. -/
theorem Turn.wellFounded (g : Graph) : WellFounded fun s' s => Turn g s s' := by
  refine Subrelation.wf (r := InvImage (Prod.Lex (· < ·) (· < ·))
    fun s => (unseen g s, s.line.length)) ?_ (InvImage.wf _ (Prod.lex Nat.lt_wfRel Nat.lt_wfRel).wf)
  intro s' s h
  cases h with
  | pass hcell => exact Prod.Lex.right _ (Nat.lt_succ_self _)
  | @see cell seen line added hcell ha =>
    by_cases hname : cell ∈ g.dependencies.names
    · refine Prod.Lex.left _ _ (countP_lt_countP hname (decide_eq_true hcell) ?_ fun x hx => ?_)
      · exact decide_eq_false (not_not.mpr List.mem_cons_self)
      · exact decide_eq_true fun hin => of_decide_eq_true hx (List.mem_cons_of_mem cell hin)
    · -- a cell without edges brings nothing in line
      rw [reads_eq_nil hname] at ha
      rw [ha.eq_nil, List.append_nil]
      refine Prod.Lex.right' _ (List.countP_mono_left fun x _ hx => ?_) (Nat.lt_succ_self _)
      exact decide_eq_true fun hin => of_decide_eq_true hx (List.mem_cons_of_mem cell hin)

end Spread

/-! ## 3. The listed search -/

/-- **The listed search is one of these**, taken to its end: where a cell has not been seen, its
    edges are still pending. -/
theorem reach_turns (g : Graph) (pending : Listing (List String)) (seen line : List String)
    (h : ∀ x, x ∉ seen → pending.get? x = g.dependencies.get? x) :
    Relation.ReflTransGen (Spread.Turn g) ⟨seen, line⟩ ⟨reach pending seen line, []⟩ := by
  fun_induction reach pending seen line with
  | case1 pending seen => exact .refl
  | case2 pending seen cell line hcell ih => exact .head (.pass hcell) (ih h)
  | case3 pending seen cell line hcell hnone ih =>
    have hreads : g.reads cell = [] := by
      rw [reads, ← h cell hcell, hnone]
      rfl
    have hturn : Spread.Turn g ⟨seen, cell :: line⟩ ⟨cell :: seen, line ++ []⟩ :=
      .see hcell (by rw [hreads]; exact .nil)
    rw [List.append_nil] at hturn
    exact .head hturn (ih fun x hx => h x fun hin => hx (List.mem_cons_of_mem cell hin))
  | case4 pending seen cell line hcell refs hsome ih =>
    have hreads : g.reads cell = refs := by
      rw [reads, ← h cell hcell, hsome]
      rfl
    refine .head (.see hcell (by rw [hreads])) (ih fun x hx => ?_)
    have hne : x ≠ cell := fun he => hx (he ▸ List.mem_cons_self)
    rw [Listing.get?_erase_of_ne pending hne]
    exact h x fun hin => hx (List.mem_cons_of_mem cell hin)

variable {g : Graph} {cell x : String}

/-- However the edges are ordered, a search that has ended has seen the closure. -/
theorem perm_closure {line seen : List String} (hl : line.Perm (g.reads cell))
    (h : Relation.ReflTransGen (Spread.Turn g) ⟨[], line⟩ ⟨seen, []⟩) :
    seen.Perm (g.closure cell) := by
  have hlisted := reach_turns g g.dependencies [] (g.reads cell) fun _ _ => rfl
  have hseen := (Spread.From.start hl).turns h
  have hfound := (Spread.From.start (List.Perm.refl (g.reads cell))).turns hlisted
  refine List.Perm.trans ?_ (sorted_perm _).symm
  rw [List.perm_ext_iff_of_nodup hseen.nodup hfound.nodup]
  intro x
  rw [hseen.mem_seen_iff, hfound.mem_seen_iff]

theorem nodup_closure (g : Graph) (cell : String) : (g.closure cell).Nodup := by
  have hlisted := reach_turns g g.dependencies [] (g.reads cell) fun _ _ => rfl
  have hfound := (Spread.From.start (List.Perm.refl (g.reads cell))).turns hlisted
  exact (sorted_perm _).nodup_iff.mpr hfound.nodup

/-- **The closure of a cell is what it leads to by one or more edges.** -/
theorem mem_closure_iff : x ∈ g.closure cell ↔ Relation.TransGen g.Reads cell x := by
  have hlisted := reach_turns g g.dependencies [] (g.reads cell) fun _ _ => rfl
  have hfound := (Spread.From.start (List.Perm.refl (g.reads cell))).turns hlisted
  rw [closure, mem_sorted, hfound.mem_seen_iff]

/-- A cell leads back to itself exactly if it lies on a circle. -/
theorem Registered.transGen_self_iff (hg : g.Registered) :
    Relation.TransGen g.Reads cell cell ↔ ∃ cycle, g.Circle cycle ∧ cell ∈ cycle := by
  constructor
  · intro h
    obtain ⟨between, hchain, hnodup⟩ := exists_path h
    have hcells : ∀ x ∈ cell :: between, x ∈ g.cells := by
      intro x hx
      obtain ⟨y, hread⟩ := exists_next hchain hx
      exact hg x y hread
    refine ⟨cell :: between ++ [cell], ⟨⟨cell, between, rfl, hnodup⟩, fun x hx => ?_, hchain⟩,
      List.mem_cons_self⟩
    rcases List.mem_append.mp hx with hx | hx
    · exact hcells x hx
    · rw [List.mem_singleton.mp hx]
      exact hcells cell List.mem_cons_self
  · rintro ⟨cycle, hcircle, hcell⟩
    exact Relation.TransGen.mono (fun _ _ hw => hw.1) _ _ (hcircle.waits hcell)

/-! ## 4. Any series of calls -/

/-- **Whatever has been registered, the closure of a cell is what it leads to.** However the edges
    of a cell are ordered, no search goes on for ever, a search comes to its end, and each that has
    ended has seen the same cells: those that the cell leads to by one or more edges, which begin
    at formula cells. The cell itself is among them exactly if it lies on a circle. -/
theorem closure_ofCalls (calls : List Registration) (cell : String) :
    let g := ofCalls calls
    (WellFounded fun s' s => Spread.Turn g s s') ∧
      (∀ line, line.Perm (g.reads cell) →
        (∃ seen, Relation.ReflTransGen (Spread.Turn g) ⟨[], line⟩ ⟨seen, []⟩) ∧
          ∀ seen, Relation.ReflTransGen (Spread.Turn g) ⟨[], line⟩ ⟨seen, []⟩ →
            seen.Perm (g.closure cell)) ∧
      (∀ x, x ∈ g.closure cell ↔ Relation.TransGen g.Reads cell x) ∧
      (∀ x y, g.Reads x y → x ∈ g.cells) ∧
      (cell ∈ g.closure cell ↔ ∃ cycle, g.Circle cycle ∧ cell ∈ cycle) := by
  intro g
  have hg : g.Registered := ofCalls_registered calls
  have hends : ∀ line, ∃ seen,
      Relation.ReflTransGen (Spread.Turn g) ⟨[], line⟩ ⟨seen, []⟩ :=
    fun line => ⟨_, reach_turns g g.dependencies [] line fun _ _ => rfl⟩
  refine ⟨Spread.Turn.wellFounded g, fun line hl => ⟨hends line, fun _ => perm_closure hl⟩,
    fun x => mem_closure_iff, hg, ?_⟩
  rw [mem_closure_iff, hg.transGen_self_iff]

/-- Two cells that read each other, and each of them another cell. -/
def meshed : List Registration :=
  [⟨"S!A1", "=SUM(B1:C1)", "S"⟩, ⟨"S!B1", "=A1*D1", "S"⟩]

theorem closure_meshed : ["S!C1", "S!B1"].Perm ((ofCalls meshed).reads "S!A1") ∧
    ∃ seen, Relation.ReflTransGen (Spread.Turn (ofCalls meshed))
      ⟨[], ["S!C1", "S!B1"]⟩ ⟨seen, []⟩ ∧ seen.Perm ((ofCalls meshed).closure "S!A1") := by
  have hline : ["S!C1", "S!B1"].Perm ((ofCalls meshed).reads "S!A1") := by decide +kernel
  obtain ⟨⟨seen, hturns⟩, hseen⟩ := (closure_ofCalls meshed "S!A1").2.1 _ hline
  exact ⟨hline, seen, hturns, hseen seen hturns⟩

end Appraisal.Graph
