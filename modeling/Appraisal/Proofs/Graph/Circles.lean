import Appraisal.Graph.Cycle
import Appraisal.Proofs.DepthFirst
import Appraisal.Proofs.Graph.Placing

/-!
# Circles found

A search for a circle finds one exactly if the candidates lead to one. Cells that it has left are in
an order of evaluation, the last one first, so that none of them leads to a circle; and the cells in
progress are a path of reads, so that meeting one of them again closes a circle.

* `Graph.Circle`, `Graph.Leads`, `Graph.Trapped` — a closed path of formula cells that read one
  another, what a cell leads to, and candidates that lead to a circle;
* `Graph.Underway` — what holds wherever a search stands;
* `Graph.visits` — the tasks that visit cells are worked off before anything after them is touched;
* `searchFrom_cases` — the two outcomes of a search from several roots;
* `findCycle_ofCalls` — **whatever has been registered, a circle is found exactly if there is one**.
-/

namespace Appraisal.Graph

open Appraisal.Text

/-! ## 1. Circles -/

/-- A closed path of formula cells, each of which reads the next, without any other repetition. -/
structure Circle (g : Graph) (cycle : List String) : Prop where
  closed : ∃ first rest, cycle = first :: rest ++ [first] ∧ (first :: rest).Nodup
  cells : ∀ x ∈ cycle, x ∈ g.cells
  reads : cycle.IsChain fun x y => y ∈ g.reads x

/-- A cell leads to another by any number of reads. -/
def Leads (g : Graph) : String → String → Prop :=
  Relation.ReflTransGen fun x y => y ∈ g.reads x

/-- A candidate leads to a formula cell that waits for itself in the end. -/
def Trapped (g : Graph) (candidates : List String) : Prop :=
  ∃ x ∈ candidates, ∃ y, g.Leads x y ∧ Relation.TransGen g.Waits y y

/-- A path of cells in progress, deepest first: each is read by the one after it. -/
abbrev Descends (g : Graph) (path : List String) : Prop :=
  path.IsChain fun lower upper => lower ∈ g.reads upper

/-- Only registered cells read anything. -/
def Registered (g : Graph) : Prop :=
  ∀ x y, y ∈ g.reads x → x ∈ g.cells

variable {g : Graph} {s : Search} {cell : String} {tasks : List Task}

theorem Registered.mem_of_leads (hg : g.Registered) {x y : String} (h : g.Leads x y)
    (hy : y ∈ g.cells) : x ∈ g.cells := by
  rcases Relation.ReflTransGen.cases_head h with rfl | ⟨z, hread, -⟩
  · exact hy
  · exact hg x z hread

/-! ## 2. One task -/

theorem search_done (ht : s.tasks = []) : g.search s = .ok s.finished := by
  rw [search]
  split
  all_goals simp_all

theorem search_leave (ht : s.tasks = .leave :: tasks) :
    g.search s = g.search (s.leave tasks) := by
  rw [search]
  split
  all_goals simp_all

theorem search_circle (ht : s.tasks = .visit cell :: tasks) (hp : cell ∈ s.path) :
    g.search s = .error (closedPath s.path cell) := by
  rw [search]
  split
  all_goals simp_all

theorem search_enter (ht : s.tasks = .visit cell :: tasks) (hp : cell ∉ s.path)
    (hf : cell ∉ s.finished) (hc : cell ∈ g.cells) :
    g.search s = g.search (g.enter s cell tasks) := by
  rw [search]
  split
  all_goals simp_all

theorem search_pass (ht : s.tasks = .visit cell :: tasks) (hp : cell ∉ s.path)
    (h : cell ∈ g.cells → cell ∈ s.finished) :
    g.search s = g.search ⟨s.finished, s.path, tasks⟩ := by
  have hno : ¬ (cell ∉ s.finished ∧ cell ∈ g.cells) := fun ⟨hnot, hc⟩ => hnot (h hc)
  rw [search]
  split
  all_goals simp_all

/-! ## 3. A series of visits -/

/-- What holds wherever a search stands: the cells that it has left are in an order of evaluation,
    the last one first, and the cells in progress are formula cells, each once. -/
structure Underway (g : Graph) (s : Search) : Prop where
  ordered : g.Ordered s.finished.reverse
  path : s.path.Nodup
  cells : ∀ x ∈ s.path, x ∈ g.cells

/-- One search goes on as another in which the formula cells among the given ones have been left
    and the tasks are next. -/
structure Clears (g : Graph) (s s' : Search) (cells : List String) (tasks : List Task) : Prop where
  search : g.search s = g.search s'
  tasks : s'.tasks = tasks
  path : s'.path = s.path
  ordered : g.Ordered s'.finished.reverse
  grows : ∀ x ∈ s.finished, x ∈ s'.finished
  cleared : ∀ x ∈ cells, x ∈ g.cells → x ∈ s'.finished

/-- A search ends with a circle that one of the given cells leads to. -/
def Meets (g : Graph) (s : Search) (cells : List String) : Prop :=
  ∃ x ∈ cells, ∃ cycle, g.search s = .error cycle ∧ g.Circle cycle ∧
    ∃ y ∈ cycle, g.Leads x y

/-- What has to be shown of a search: visits that come next are worked off one by one. -/
def Visits (g : Graph) (s : Search) : Prop :=
  ∀ cells tasks, s.tasks = cells.map .visit ++ tasks → g.Underway s →
    (∀ x ∈ cells, g.Descends (x :: s.path)) →
      (∃ s', g.Clears s s' cells tasks) ∨ g.Meets s cells

theorem Underway.clears {s' : Search} {cells : List String} (h : g.Underway s)
    (hs : g.Clears s s' cells tasks) : g.Underway s' :=
  ⟨hs.ordered, hs.path ▸ h.path, hs.path ▸ h.cells⟩

/-- The more has been left, the fewer cells are left to enter. -/
theorem Clears.fresh_le {s' : Search} {cells : List String} (h : g.Clears s s' cells tasks) :
    g.fresh s' ≤ g.fresh s := by
  refine List.countP_mono_left fun x _ hx => ?_
  simp only [Search.isFresh, Bool.and_eq_true, decide_eq_true_iff, h.path] at hx ⊢
  exact ⟨fun hf => hx.1 (h.grows x hf), hx.2⟩

/-- Leaving a cell when all that it reads has been left. -/
theorem clears_of_enter {s' : Search} (ht : s.tasks = .visit cell :: tasks) (hp : cell ∉ s.path)
    (hf : cell ∉ s.finished) (hc : cell ∈ g.cells)
    (h : g.Clears (g.enter s cell tasks) s' (sorted (g.reads cell)) (.leave :: tasks)) :
    g.Clears s (s'.leave tasks) [cell] tasks := by
  have hpath : s'.path = cell :: s.path := h.path
  have hleft : (s'.leave tasks).finished = cell :: s'.finished := by
    show s'.path.take 1 ++ s'.finished = _
    rw [hpath]
    rfl
  refine ⟨?_, rfl, ?_, ?_, fun x hx => ?_, fun x hx _ => ?_⟩
  · rw [search_enter ht hp hf hc, h.search, search_leave h.tasks]
  · show s'.path.drop 1 = s.path
    rw [hpath]
    rfl
  · rw [hleft, List.reverse_cons]
    refine h.ordered.concat fun read hread hcell => List.mem_reverse.mpr ?_
    exact h.cleared read (mem_sorted.mpr hread) hcell
  · rw [hleft]
    exact List.mem_cons_of_mem cell (h.grows x hx)
  · rw [hleft, List.mem_singleton.mp hx]
    exact List.mem_cons_self

/-- The visit of one cell, given that searches with fewer cells to enter work off theirs. -/
theorem visit_one (hless : ∀ s' : Search, g.fresh s' < g.fresh s → g.Visits s')
    (ht : s.tasks = .visit cell :: tasks) (hs : g.Underway s)
    (hd : g.Descends (cell :: s.path)) :
    (∃ s', g.Clears s s' [cell] tasks) ∨ g.Meets s [cell] := by
  by_cases hp : cell ∈ s.path
  · refine Or.inr ⟨cell, List.mem_cons_self, _, search_circle ht hp, ?_, cell,
      List.mem_cons_self, .refl⟩
    exact ⟨closedPath_closed hp hs.path,
      fun x hx => hs.cells x (mem_path_of_mem_closedPath hp hx), isChain_closedPath hd hp⟩
  by_cases hpass : cell ∈ g.cells → cell ∈ s.finished
  · refine Or.inl ⟨_, search_pass ht hp hpass, rfl, rfl, hs.ordered, fun _ hx => hx,
      fun x hx hc => ?_⟩
    rw [List.mem_singleton.mp hx] at hc ⊢
    exact hpass hc
  rw [Classical.not_imp] at hpass
  obtain ⟨hc, hf⟩ := hpass
  have hfresh : s.isFresh cell = true := by
    rw [Search.isFresh, decide_eq_true hf, decide_eq_true hp]
    rfl
  have hentered : g.Underway (g.enter s cell tasks) :=
    ⟨hs.ordered, List.nodup_cons.mpr ⟨hp, hs.path⟩, List.forall_mem_cons.mpr ⟨hc, hs.cells⟩⟩
  have hbelow : ∀ x ∈ sorted (g.reads cell), g.Descends (x :: cell :: s.path) :=
    fun x hx => List.isChain_cons_cons.mpr ⟨mem_sorted.mp hx, hd⟩
  rcases hless _ (fresh_enter_lt hc hfresh) _ _ rfl hentered hbelow with
    ⟨s', h⟩ | ⟨x, hx, cycle, hcycle, hcircle, y, hy, hleads⟩
  · exact Or.inl ⟨_, clears_of_enter ht hp hf hc h⟩
  · refine Or.inr ⟨cell, List.mem_cons_self, cycle, ?_, hcircle, y, hy,
      .head (mem_sorted.mp hx) hleads⟩
    rw [search_enter ht hp hf hc, hcycle]

/-- **Every search works off the visits that come next**: by induction on the number of cells that
    it can still enter, and for searches that can enter as many, along the visits. -/
theorem visits (g : Graph) (s : Search) : g.Visits s := by
  induction hn : g.fresh s using Nat.strong_induction_on generalizing s with
  | _ n ih =>
    subst hn
    -- the search changes along the visits, but the number of cells to enter does not grow
    suffices h : ∀ cells tasks (t : Search), g.fresh t ≤ g.fresh s →
        t.tasks = cells.map .visit ++ tasks → g.Underway t →
        (∀ x ∈ cells, g.Descends (x :: t.path)) →
          (∃ t', g.Clears t t' cells tasks) ∨ g.Meets t cells from
      fun cells tasks => h cells tasks s (Nat.le_refl _)
    intro cells tasks
    induction cells with
    | nil =>
      intro t _ ht hs _
      exact Or.inl ⟨t, rfl, ht, rfl, hs.ordered, fun _ hx => hx, nofun⟩
    | cons cell cells ihc =>
      intro t hle ht hs hd
      obtain ⟨hfirst, hrest⟩ := List.forall_mem_cons.mp hd
      have hless : ∀ s' : Search, g.fresh s' < g.fresh t → g.Visits s' :=
        fun s' hlt => ih _ (Nat.lt_of_lt_of_le hlt hle) s' rfl
      rcases visit_one hless ht hs hfirst with ⟨t₁, h₁⟩ | ⟨x, hx, h⟩
      · have hle₁ : g.fresh t₁ ≤ g.fresh s := Nat.le_trans h₁.fresh_le hle
        have hrest₁ : ∀ x ∈ cells, g.Descends (x :: t₁.path) := h₁.path ▸ hrest
        rcases ihc t₁ hle₁ h₁.tasks (hs.clears h₁) hrest₁ with ⟨t₂, h₂⟩ | ⟨x, hx, h⟩
        · refine Or.inl ⟨t₂, h₁.search.trans h₂.search, h₂.tasks, h₂.path.trans h₁.path,
            h₂.ordered, fun x hx => h₂.grows x (h₁.grows x hx), fun x hx hc => ?_⟩
          rcases List.mem_cons.mp hx with rfl | hx
          · exact h₂.grows x (h₁.cleared x List.mem_cons_self hc)
          · exact h₂.cleared x hx hc
        · exact Or.inr ⟨x, List.mem_cons_of_mem cell hx, h₁.search ▸ h⟩
      · rw [List.mem_singleton.mp hx] at h
        exact Or.inr ⟨cell, List.mem_cons_self, h⟩

/-! ## 4. Several roots -/

/-- **The outcomes of a search from several roots**: all formula cells among them have been left,
    in an order of evaluation; or a circle has been met that one of them leads to. -/
theorem searchFrom_cases {finished : List String} (hf : g.Ordered finished.reverse)
    (roots : List String) :
    (g.searchFrom finished roots = none ∧ ∃ left : List String, g.Ordered left.reverse ∧
        (∀ x ∈ finished, x ∈ left) ∧ ∀ x ∈ roots, x ∈ g.cells → x ∈ left) ∨
      ∃ x ∈ roots, ∃ cycle, g.searchFrom finished roots = some cycle ∧ g.Circle cycle ∧
        ∃ y ∈ cycle, g.Leads x y := by
  induction roots generalizing finished with
  | nil => exact Or.inl ⟨rfl, finished, hf, fun _ hx => hx, nofun⟩
  | cons root roots ih =>
    by_cases hroot : root ∈ finished
    · rw [searchFrom, if_pos hroot]
      rcases ih hf with ⟨hnone, left, hleft, hgrows, hroots⟩ | ⟨x, hx, h⟩
      · refine Or.inl ⟨hnone, left, hleft, hgrows, List.forall_mem_cons.mpr ⟨?_, hroots⟩⟩
        exact fun _ => hgrows root hroot
      · exact Or.inr ⟨x, List.mem_cons_of_mem root hx, h⟩
    rw [searchFrom, if_neg hroot]
    have hstart : g.Underway ⟨finished, [], [.visit root]⟩ := ⟨hf, List.nodup_nil, nofun⟩
    have hdescends : ∀ x ∈ [root], g.Descends [x] := fun x _ => List.isChain_singleton x
    rcases g.visits _ [root] [] rfl hstart hdescends with
      ⟨s', h⟩ | ⟨x, hx, cycle, hcycle, hcircle, y, hy, hleads⟩
    · rw [h.search, search_done h.tasks]
      rcases ih h.ordered with ⟨hnone, left, hleft, hgrows, hroots⟩ | ⟨x, hx, h⟩
      · refine Or.inl ⟨hnone, left, hleft, fun x hx => hgrows x (h.grows x hx), ?_⟩
        refine List.forall_mem_cons.mpr ⟨fun hc => hgrows root ?_, hroots⟩
        exact h.cleared root List.mem_cons_self hc
      · exact Or.inr ⟨x, List.mem_cons_of_mem root hx, h⟩
    · rw [List.mem_singleton.mp hx] at hleads
      rw [hcycle]
      exact Or.inr ⟨root, List.mem_cons_self, cycle, rfl, hcircle, y, hy, hleads⟩

/-- What a cell of an order waits for stands in the order. -/
theorem Ordered.mem_of_waits {order : List String} (h : g.Ordered order) {x y : String}
    (hx : x ∈ order) (hw : g.Waits x y) : y ∈ order := by
  obtain ⟨before, after, rfl⟩ := List.append_of_mem hx
  exact List.mem_append_left _ (h before x after rfl y hw.1 hw.2.2)

/-- What stands in an order of evaluation does not wait for itself in the end. -/
theorem Ordered.not_circle {order : List String} (h : g.Ordered order) {x : String}
    (hx : x ∈ order) : ¬ Relation.TransGen g.Waits x x := by
  have hdown : ∀ y, Relation.TransGen g.Waits x y →
      y ∈ order ∧ order.idxOf y < order.idxOf x := by
    intro y hy
    induction hy with
    | single hw => exact ⟨h.mem_of_waits hx hw, h.idxOf_lt hx hw⟩
    | tail _ hw ih => exact ⟨h.mem_of_waits ih.1 hw, (h.idxOf_lt ih.1 hw).trans ih.2⟩
  exact fun hcircle => Nat.lt_irrefl _ (hdown x hcircle).2

/-- An order of evaluation has all formula cells that its members lead to. -/
theorem Ordered.mem_of_leads {order : List String} (h : g.Ordered order) (hg : g.Registered)
    {x y : String} (hlead : g.Leads x y) (hx : x ∈ order) (hy : y ∈ g.cells) : y ∈ order := by
  induction hlead using Relation.ReflTransGen.head_induction_on with
  | refl => exact hx
  | head hread hrest ih =>
    have hnext := hg.mem_of_leads hrest hy
    exact ih (h.mem_of_waits hx ⟨hread, hg _ _ hread, hnext⟩)

/-- Each cell of a circle waits for itself in the end. -/
theorem Circle.waits {cycle : List String} (h : g.Circle cycle) {x : String} (hx : x ∈ cycle) :
    Relation.TransGen g.Waits x x := by
  obtain ⟨first, rest, hclosed, -⟩ := h.closed
  have hchain : cycle.IsChain (Relation.TransGen g.Waits) :=
    h.reads.imp_of_mem_imp fun a b ha hb hread => .single ⟨hread, h.cells a ha, h.cells b hb⟩
  rw [hclosed] at hx hchain
  have hpairs : (first :: (rest ++ [first])).Pairwise (Relation.TransGen g.Waits) :=
    List.isChain_iff_pairwise.mp hchain
  obtain ⟨hfirst, hrest⟩ := List.pairwise_cons.mp hpairs
  have hround : Relation.TransGen g.Waits first first :=
    hfirst first (List.mem_append_right _ List.mem_cons_self)
  -- the first cell is also the last one: it leads to each cell between, and each leads back to it
  rcases List.mem_cons.mp hx with rfl | hx
  · exact hround
  rcases List.mem_append.mp hx with hin | hlast
  · have hback := (List.pairwise_append.mp hrest).2.2 x hin first List.mem_cons_self
    exact hback.trans (hfirst x hx)
  · rw [List.mem_singleton.mp hlast]
    exact hround

/-- A search finds no circle, and no candidate leads to one; or it finds one that a candidate leads
    to. -/
theorem findCycle_cases (hg : g.Registered) (candidates : List String) :
    (g.findCycle candidates = none ∧ ¬ g.Trapped candidates) ∨
      ∃ x ∈ candidates, ∃ cycle, g.findCycle candidates = some cycle ∧ g.Circle cycle ∧
        ∃ y ∈ cycle, g.Leads x y := by
  have hempty : g.Ordered ([] : List String).reverse := by
    intro before cell after hsplit
    cases before with
    | nil => cases hsplit
    | cons _ _ => cases hsplit
  rcases searchFrom_cases hempty (sorted candidates) with
    ⟨hnone, left, hleft, -, hroots⟩ | ⟨x, hx, h⟩
  · refine Or.inl ⟨hnone, fun ⟨x, hx, y, hlead, hcircle⟩ => ?_⟩
    obtain ⟨z, ⟨-, hy, -⟩, -⟩ := Relation.TransGen.head'_iff.mp hcircle
    have hin := hroots x (mem_sorted.mpr hx) (hg.mem_of_leads hlead hy)
    exact hleft.not_circle (hleft.mem_of_leads hg hlead (List.mem_reverse.mpr hin) hy) hcircle
  · exact Or.inr ⟨x, mem_sorted.mp hx, h⟩

/-! ## 5. Any series of calls -/

/-- The graph after a series of registrations, some of which may have failed. -/
def ofCalls (calls : List Registration) : Graph :=
  calls.foldl (fun g r => (g.add r.cell r.formula r.sheet).1) empty

theorem mem_cells_add {formula sheet x : String} :
    x ∈ (g.add cell formula sheet).1.cells ↔ x = cell ∨ x ∈ g.cells := by
  have hput : x ∈ (g.formulas.put cell formula).names ↔ x = cell ∨ x ∈ g.cells :=
    Listing.mem_names_put
  unfold add
  cases Formula.allReferences formula sheet with
  | ok refs => exact hput
  | error fault => exact hput

/-- A registration, even one that fails, leaves no reads with a cell that is not registered. -/
theorem Registered.add (hg : g.Registered) (cell formula sheet : String) :
    (g.add cell formula sheet).1.Registered := by
  intro x y hread
  rw [mem_cells_add]
  by_cases hx : x = cell
  · exact Or.inl hx
  refine Or.inr (hg x y ?_)
  cases h : Formula.allReferences formula sheet with
  | ok refs => rwa [reads_add_of_ne h hx] at hread
  | error fault =>
    rw [Graph.add, h] at hread
    exact hread

theorem ofCalls_registered (calls : List Registration) : (ofCalls calls).Registered := by
  unfold ofCalls
  have hempty : empty.Registered := fun _ _ h => absurd h List.not_mem_nil
  generalize empty = g at hempty
  induction calls generalizing g with
  | nil => exact hempty
  | cons r calls ih => exact ih _ (hempty.add r.cell r.formula r.sheet)

/-- The candidates of a search: those that are given, or else all formula cells. -/
def roots (g : Graph) (candidates : Option (List String)) : List String :=
  candidates.getD g.cells

/-- **Whatever has been registered, a circle is found exactly if there is one**: none exactly if no
    candidate leads to a formula cell that waits for itself in the end, and else a closed path of
    formula cells, each of which reads the next, that a candidate leads to. -/
theorem findCycle_ofCalls (calls : List Registration) (candidates : Option (List String)) :
    let g := ofCalls calls
    (g.findCycle (g.roots candidates) = none ↔ ¬ g.Trapped (g.roots candidates)) ∧
      (g.findCycle (g.roots candidates) = none ∨
        ∃ cycle, g.findCycle (g.roots candidates) = some cycle ∧ g.Circle cycle ∧
          ∃ x ∈ g.roots candidates, ∃ y ∈ cycle, g.Leads x y) := by
  intro g
  rcases findCycle_cases (ofCalls_registered calls) (g.roots candidates) with
    ⟨hnone, hfree⟩ | ⟨x, hx, cycle, hsome, hcircle, y, hy, hleads⟩
  · exact ⟨⟨fun _ => hfree, fun _ => hnone⟩, Or.inl hnone⟩
  · have htrapped : g.Trapped (g.roots candidates) := ⟨x, hx, y, hleads, hcircle.waits hy⟩
    rw [hsome]
    exact ⟨⟨nofun, fun hfree => absurd htrapped hfree⟩,
      Or.inr ⟨cycle, rfl, hcircle, x, hx, y, hy, hleads⟩⟩

end Appraisal.Graph
