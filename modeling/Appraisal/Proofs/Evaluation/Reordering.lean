import Appraisal.Proofs.Evaluation.Calculate
import Appraisal.Proofs.Graph.Failure
import Appraisal.Proofs.Snapshot.Shape

/-!
# The order in which cells come

A graph notes cells and edges as they come, and captured data list sheets and cells in some order.
Neither order shows: as long as each cell comes once, the same cells in another order have the same
order of evaluation, the same circles and the same closures.

* `Clean.call`, `ofCalls_clean` — what calls with distinct cells leave; `ofCalls_alike` — **however
  they are ordered, they leave graphs that are alike**;
* `Reordered`, `DistinctCells` — captured sheets and cells in another order, and each of them once;
  `ofValue_reordered` — they build snapshots with the same formula cells;
* `OrderedAlike` — workbooks that order their formula cells alike;
* `answers_reordered` — **no order of calls, sheets or cells shows in what is answered**.
-/

namespace Appraisal

open Appraisal.Graph

/-! ## 1. Series of calls -/

namespace Graph

variable {g : Graph} {rs rs' : List Registration}

/-- One more call for a new cell, be it one that fails, keeps a graph clean. -/
theorem Clean.call (hg : g.Clean) {r : Registration} (hc : r.cell ∉ g.cells) :
    (g.add r.cell r.formula r.sheet).1.Clean ∧
      ∀ x y, y ∈ (g.add r.cell r.formula r.sheet).1.reads x ↔
        y ∈ g.reads x ∨ (r.cell = x ∧ r.Mentions y) := by
  cases hr : r.mentions with
  | ok refs =>
    refine ⟨hg.add hc hr, fun x y => ?_⟩
    rw [Registration.mentions_iff hr]
    by_cases hx : x = r.cell
    · subst hx
      rw [reads_add_self hr, hg.reads_eq_nil hc]
      exact ⟨fun hy => Or.inr ⟨rfl, hy⟩, fun hy => (hy.resolve_left List.not_mem_nil).2⟩
    · rw [reads_add_of_ne hr hx]
      exact ⟨Or.inl, fun hy => hy.resolve_right fun hy => hx hy.1.symm⟩
  | error fault =>
    have hfailed : (g.add r.cell r.formula r.sheet).2 = .error fault :=
      congrArg Prod.snd (add_error hr)
    have hnone : ∀ y, ¬ r.Mentions y := by
      rintro y ⟨refs, hrefs, -⟩
      rw [hr] at hrefs
      cases hrefs
    refine ⟨hg.failed hc hfailed, fun x y => ?_⟩
    rw [add_of_failed hfailed]
    exact ⟨Or.inl, fun hy => hy.resolve_right fun hy => hnone y hy.2⟩

/-- **What calls with distinct cells leave**: a clean graph with these cells, each of which reads
    what its formula mentions. -/
theorem ofCalls_clean (hn : (rs.map (·.cell)).Nodup) :
    (ofCalls rs).Clean ∧ (ofCalls rs).cells = rs.map (·.cell) ∧
      ∀ x y, y ∈ (ofCalls rs).reads x ↔ ∃ r ∈ rs, r.cell = x ∧ r.Mentions y := by
  suffices h : ∀ g : Graph, g.Clean → (g.cells ++ rs.map (·.cell)).Nodup →
      let g' := rs.foldl (fun g r => (g.add r.cell r.formula r.sheet).1) g
      g'.Clean ∧ g'.cells = g.cells ++ rs.map (·.cell) ∧
        ∀ x y, y ∈ g'.reads x ↔ y ∈ g.reads x ∨ ∃ r ∈ rs, r.cell = x ∧ r.Mentions y by
    obtain ⟨hclean, hcells, hreads⟩ := h empty empty_clean hn
    refine ⟨hclean, hcells, fun x y => (hreads x y).trans ?_⟩
    exact ⟨fun hy => hy.resolve_left List.not_mem_nil, Or.inr⟩
  induction rs with
  | nil => exact fun g hg _ => ⟨hg, (List.append_nil _).symm, fun x y => by simp⟩
  | cons r rs ih =>
    intro g hg hall
    rw [List.map_cons] at hall ⊢
    have hnew : r.cell ∉ g.cells := fun hm =>
      (List.nodup_cons.mp (List.nodup_middle.mp hall)).1 (List.mem_append_left _ hm)
    obtain ⟨hclean, hreads⟩ := hg.call hnew
    rw [List.append_cons, ← cells_add g hnew] at hall
    obtain ⟨hclean', hcells', hreads'⟩ := ih (List.nodup_cons.mp hn).2 _ hclean hall
    refine ⟨hclean', ?_, fun x y => ?_⟩
    · rw [List.append_cons, ← cells_add g hnew]
      exact hcells'
    · rw [List.exists_mem_cons_iff, ← or_assoc, ← hreads]
      exact hreads' x y

/-- **However calls with distinct cells are ordered, they leave graphs that are alike.** -/
theorem ofCalls_alike (h : rs.Perm rs') (hn : (rs.map (·.cell)).Nodup) :
    Alike (ofCalls rs) (ofCalls rs') := by
  obtain ⟨hclean, hcells, hreads⟩ := ofCalls_clean hn
  obtain ⟨hclean', hcells', hreads'⟩ := ofCalls_clean ((h.map _).nodup_iff.mp hn)
  have hsame : ∀ x y, y ∈ (ofCalls rs).reads x ↔ y ∈ (ofCalls rs').reads x := by
    intro x y
    rw [hreads, hreads']
    exact exists_congr fun r => and_congr_left fun _ => h.mem_iff
  constructor
  · rw [hcells, hcells']
    exact h.map _
  · intro x
    rw [List.perm_ext_iff_of_nodup (hclean.reads x) (hclean'.reads x)]
    exact hsame x
  · intro y
    rw [List.perm_ext_iff_of_nodup (hclean.readers y) (hclean'.readers y)]
    intro x
    rw [hclean.mirror, hclean'.mirror, hsame]

/-- Snapshots with the same formula cells, each of its own key, both have graphs, which are alike,
    or both have none. -/
theorem ofSnapshot_alike {s s' : Snapshot} (h : (formulaCells s).Perm (formulaCells s'))
    (hn : ((formulaCells s).map keyOf).Nodup) :
    (∃ fault fault', ofSnapshot s = .error fault ∧ ofSnapshot s' = .error fault') ∨
      ∃ g g', ofSnapshot s = .ok g ∧ ofSnapshot s' = .ok g' ∧ Alike g g' := by
  have hcalls := h.map registrationOf
  have hcells : (((formulaCells s).map registrationOf).map (·.cell)).Nodup := by
    rw [List.map_map]
    exact hn
  rw [ofSnapshot_eq, ofSnapshot_eq]
  by_cases hall : ∀ r ∈ (formulaCells s).map registrationOf, r.succeeds = true
  · have hall' : ∀ r ∈ (formulaCells s').map registrationOf, r.succeeds = true :=
      fun r hr => hall r (hcalls.mem_iff.mpr hr)
    exact Or.inr ⟨_, _, registerAll_eq_ofCalls hall, registerAll_eq_ofCalls hall',
      ofCalls_alike hcalls hcells⟩
  · have hfails : ∀ rs : List Registration, rs.Perm ((formulaCells s).map registrationOf) →
        ∃ fault, empty.registerAll rs = .error fault := by
      intro rs hrs
      have hno : ¬ ∀ r ∈ rs, ∃ refs, r.mentions = .ok refs := fun hrefs => hall fun r hr => by
        obtain ⟨refs, hok⟩ := hrefs r (hrs.mem_iff.mpr hr)
        rw [Registration.succeeds, hok]
        rfl
      obtain ⟨r, -, fault, -, hfault⟩ := registerAll_error (g := empty) hno
      exact ⟨fault, hfault⟩
    obtain ⟨fault, hfault⟩ := hfails _ (List.Perm.refl _)
    obtain ⟨fault', hfault'⟩ := hfails _ hcalls.symm
    exact Or.inl ⟨fault, fault', hfault, hfault'⟩

end Graph

/-! ## 2. Captured data -/

/-- The same captured sheet with its cells in another order. -/
def SheetReordered (e e' : String × Value) : Prop :=
  e.1 = e'.1 ∧ ∃ cells cells', cellEntries? e.2 = some cells ∧ cellEntries? e'.2 = some cells' ∧
    cells.Perm cells'

/-- The same captured sheets in another order, each with its cells in another order. -/
def Reordered (entries entries' : List (String × Value)) : Prop :=
  ∃ sheets, List.Forall₂ SheetReordered entries sheets ∧ sheets.Perm entries'

/-- Captured sheets of distinct names, each with cells of distinct bare references. -/
structure DistinctCells (entries : List (String × Value)) : Prop where
  sheets : (entries.map (·.1)).Nodup
  cells : ∀ e ∈ entries, ∀ cells, cellEntries? e.2 = some cells →
    (cells.map fun c => bareReference c.1).Nodup

/-- The same sheet built with its cells in another order. -/
def SheetAlike (p q : String × Sheet) : Prop :=
  p.1 = q.1 ∧ p.2.cells.Perm q.2.cells

theorem Sheet.ofValue_reordered {name : String} {v v' : Value} {sheet : Sheet}
    {cells cells' : List (String × Value)} (hv : cellEntries? v = some cells)
    (hv' : cellEntries? v' = some cells') (h : cells.Perm cells')
    (hn : (cells.map fun c => bareReference c.1).Nodup) (hs : Sheet.ofValue name v = .ok sheet) :
    ∃ sheet', Sheet.ofValue name v' = .ok sheet' ∧ sheet.cells.Perm sheet'.cells := by
  rw [Sheet.ofValue, hv] at hs
  obtain ⟨kept, hkept, rfl⟩ := exists_of_map_ok hs
  rw [Sheet.cellsOf_eq] at hkept
  obtain ⟨kept', hkept', hperm⟩ := keepAll_perm _ _ h hn hkept
  refine ⟨⟨name, kept'⟩, ?_, hperm⟩
  rw [Sheet.ofValue, hv']
  show (Sheet.cellsOf name cells').map _ = _
  rw [Sheet.cellsOf_eq, hkept']
  rfl

/-- The sheets of a snapshot are built in the order in which they are captured. -/
theorem Snapshot.ofValue_iff {entries : List (String × Value)} {s : Snapshot}
    (hn : (entries.map (·.1)).Nodup) :
    Snapshot.ofValue (.mapping entries) = .ok s ↔
      List.Forall₂ (fun e p => p.1 = e.1 ∧ Sheet.ofValue e.1 e.2 = .ok p.2) entries s.sheets := by
  rw [Snapshot.ofValue_mapping_iff, ← keepAll_nil_iff _ _ hn]

section Sheets

variable {entries entries' : List (String × Value)} {sheets sheets' : Listing Sheet}

/-- Sheets with their cells in another order are built all the same. -/
theorem exists_sheets_alike (h : List.Forall₂ SheetReordered entries entries')
    (hd : ∀ e ∈ entries, ∀ cells, cellEntries? e.2 = some cells →
      (cells.map fun c => bareReference c.1).Nodup)
    (hs : List.Forall₂ (fun e p => p.1 = e.1 ∧ Sheet.ofValue e.1 e.2 = .ok p.2) entries sheets) :
    ∃ sheets', List.Forall₂ (fun e p => p.1 = e.1 ∧ Sheet.ofValue e.1 e.2 = .ok p.2)
      entries' sheets' ∧ List.Forall₂ SheetAlike sheets sheets' := by
  induction h generalizing sheets with
  | nil =>
    cases hs
    exact ⟨[], .nil, .nil⟩
  | @cons e e' entries entries' he _ ih =>
    cases hs with
    | @cons _ p _ sheets hp hs =>
      obtain ⟨hfirst, hrest⟩ := List.forall_mem_cons.mp hd
      obtain ⟨sheets', hsheets', halike⟩ := ih hrest hs
      obtain ⟨hname, cells, cells', hcells, hcells', hperm⟩ := he
      obtain ⟨sheet', hsheet', hsame⟩ :=
        Sheet.ofValue_reordered hcells hcells' hperm (hfirst cells hcells) hp.2
      rw [hname] at hsheet' hp
      exact ⟨(e'.1, sheet') :: sheets', .cons ⟨rfl, hsheet'⟩ hsheets',
        .cons ⟨hp.1, hsame⟩ halike⟩

theorem formulaCells_alike (h : List.Forall₂ SheetAlike sheets sheets') :
    (formulaCells ⟨sheets⟩).Perm (formulaCells ⟨sheets'⟩) := by
  induction h with
  | nil => exact .nil
  | @cons p q sheets sheets' hpq _ ih =>
    obtain ⟨hname, hperm⟩ := hpq
    refine List.Perm.append ?_ ih
    show (p.2.formulaCells.map (Prod.mk p.1)).Perm (q.2.formulaCells.map (Prod.mk q.1))
    rw [hname]
    exact ((hperm.map _).filter _).map _

/-- **Captured data in another order build a snapshot with the same formula cells.** -/
theorem ofValue_reordered {s : Snapshot} (h : Reordered entries entries')
    (hd : DistinctCells entries) (hs : Snapshot.ofValue (.mapping entries) = .ok s) :
    ∃ s', Snapshot.ofValue (.mapping entries') = .ok s' ∧
      (formulaCells s).Perm (formulaCells s') := by
  obtain ⟨between, hsheets, hperm⟩ := h
  have hnames : entries.map (·.1) = between.map (·.1) := by
    have heq : List.Forall₂ (· = ·) (entries.map (·.1)) (between.map (·.1)) :=
      List.forall₂_map_left_iff.mpr (List.forall₂_map_right_iff.mpr (hsheets.imp fun _ _ h => h.1))
    exact List.forall₂_eq_eq_eq ▸ heq
  have hn : (between.map (·.1)).Nodup := hnames ▸ hd.sheets
  have hn' : (entries'.map (·.1)).Nodup := (hperm.map _).nodup_iff.mp hn
  obtain ⟨sheets, hbuilt, halike⟩ :=
    exists_sheets_alike hsheets hd.cells ((Snapshot.ofValue_iff hd.sheets).mp hs)
  obtain ⟨sheets', hbuilt', hperm'⟩ := List.perm_comp_forall₂ hperm.symm hbuilt
  refine ⟨⟨sheets'⟩, (Snapshot.ofValue_iff hn').mpr hbuilt', ?_⟩
  exact (formulaCells_alike halike).trans (List.Perm.flatMap_right _ hperm'.symm)

end Sheets

/-! ## 3. All formula cells -/

namespace Workbook

variable {w w' : Workbook} {cache : Cache}

theorem exists_of_run_bind_ok {α β : Type} {m : Evaluation α} {f : α → Evaluation β} {b : β}
    (h : ((m >>= f).run cache).1 = .ok b) :
    ∃ a, (m.run cache).1 = .ok a ∧ ((f a).run (m.run cache).2).1 = .ok b := by
  cases hm : (m.run cache).1 with
  | error fault =>
    rw [run_bind_error hm] at h
    cases h
  | ok a =>
    rw [run_bind_ok hm] at h
    exact ⟨a, rfl, h⟩

theorem keys_of_mapM {keys : List String} {vs : List (String × Value)}
    (h : ((keys.mapM fun key => do
      let v ← w.resolve key
      pure (key, v)).run cache).1 = .ok vs) : vs.map (·.1) = keys := by
  induction keys generalizing cache vs with
  | nil =>
    rw [List.mapM_nil] at h
    cases h
    rfl
  | cons key keys ih =>
    rw [List.mapM_cons] at h
    obtain ⟨p, hp, h⟩ := exists_of_run_bind_ok h
    obtain ⟨v, -, hv⟩ := exists_of_run_bind_ok hp
    cases hv
    obtain ⟨rest, hrest, h⟩ := exists_of_run_bind_ok h
    cases h
    rw [List.map_cons, ih hrest]

/-- The values of all formula cells come in the order of evaluation. -/
theorem evaluationOrder_of_calculate {vs : List (String × Value)}
    (h : (w.calculate.run cache).1 = .ok vs) : w.evaluationOrder = .ok (vs.map (·.1)) := by
  obtain ⟨order, horder, hvs⟩ := exists_of_run_bind_ok h
  rw [keys_of_mapM hvs]
  exact horder

theorem calculate_of_error {fault : Fault} (h : w.evaluationOrder = .error fault) :
    (w.calculate.run cache).1 = .error fault :=
  congrArg Prod.fst (run_bind_error (m := ExceptT.mk (pure w.evaluationOrder)) h)

/-- Two workbooks order their formula cells alike: both have a graph or none; if they do, they have
    the same order, in which they give values, or the same circle, which they report. -/
structure OrderedAlike (w w' : Workbook) : Prop where
  graph : (∃ g, Graph.ofSnapshot w.snapshot = .ok g) ↔ ∃ g, Graph.ofSnapshot w'.snapshot = .ok g
  order : (∃ g, Graph.ofSnapshot w.snapshot = .ok g) → w.evaluationOrder = w'.evaluationOrder
  values : ∀ cache cache' vs vs', (w.calculate.run cache).1 = .ok vs →
    (w'.calculate.run cache').1 = .ok vs' → vs.map (·.1) = vs'.map (·.1)
  circle : ∀ cycle, w.evaluationOrder = .error (.circular cycle) → ∀ cache cache',
    (w.calculate.run cache).1 = .error (.circular cycle) ∧
      (w'.calculate.run cache').1 = .error (.circular cycle)

/-- A snapshot without a graph has no circle to report. -/
theorem exists_graph_of_circular {cycle : List String}
    (h : w.evaluationOrder = .error (.circular cycle)) :
    ∃ g, Graph.ofSnapshot w.snapshot = .ok g := by
  rw [Formula.ofSnapshot_ok_iff]
  refine Decidable.byContradiction fun hno => ?_
  obtain ⟨p, -, c, -, -, herror⟩ := Formula.exists_ofSnapshot_error hno
  rw [evaluationOrder_of_error herror] at h
  cases h

/-- **Workbooks with the same formula cells, each of its own key, order them alike.** -/
theorem orderedAlike_of_perm (h : w.formulas.Perm w'.formulas)
    (hn : (w.formulas.map keyOf).Nodup) : w.OrderedAlike w' := by
  rcases ofSnapshot_alike h hn with ⟨fault, fault', hfault, hfault'⟩ | ⟨g, g', hg, hg', halike⟩
  · have hnone : ¬ ∃ g, Graph.ofSnapshot w.snapshot = .ok g := by
      rintro ⟨g, hg⟩
      rw [hfault] at hg
      cases hg
    refine ⟨⟨fun hg => absurd hg hnone, ?_⟩, fun hg => absurd hg hnone, ?_, ?_⟩
    · rintro ⟨g, hg⟩
      rw [hfault'] at hg
      cases hg
    · intro cache cache' vs vs' hvs
      have horder := evaluationOrder_of_calculate hvs
      rw [evaluationOrder_of_error hfault] at horder
      cases horder
    · exact fun cycle hcycle => absurd (exists_graph_of_circular hcycle) hnone
  · have horder : w.evaluationOrder = w'.evaluationOrder := by
      rw [evaluationOrder_of_graph hg, evaluationOrder_of_graph hg', halike.topologicalOrder_eq]
    refine ⟨⟨fun _ => ⟨g', hg'⟩, fun _ => ⟨g, hg⟩⟩, fun _ => horder, ?_, ?_⟩
    · intro cache cache' vs vs' hvs hvs'
      have heq := (evaluationOrder_of_calculate hvs).symm.trans
        (horder.trans (evaluationOrder_of_calculate hvs'))
      exact Except.ok.inj heq
    · exact fun cycle hcycle cache cache' =>
        ⟨calculate_of_error hcycle, calculate_of_error (horder ▸ hcycle)⟩

/-- **No order in which cells come shows.** Calls with distinct cells, some of which may fail, leave
    graphs with the same order of evaluation or the same circle in its place, the same circle for
    each set of candidates and the same closures. Captured sheets and cells in another order build
    a snapshot whose formula cells are ordered alike, as long as each goes by its own key. -/
theorem answers_reordered :
    (∀ rs rs' : List Registration, rs.Perm rs' → (rs.map (·.cell)).Nodup →
      (ofCalls rs).topologicalOrder = (ofCalls rs').topologicalOrder ∧
        (∀ candidates candidates', candidates.Perm candidates' →
          (ofCalls rs).findCycle candidates = (ofCalls rs').findCycle candidates') ∧
        (ofCalls rs).findCycle (ofCalls rs).cells = (ofCalls rs').findCycle (ofCalls rs').cells ∧
        ∀ cell, (ofCalls rs).closure cell = (ofCalls rs').closure cell) ∧
      ∀ (entries entries' : List (String × Value)) (w : Workbook), Reordered entries entries' →
        DistinctCells entries → Snapshot.ofValue (.mapping entries) = .ok w.snapshot →
        (w.formulas.map keyOf).Nodup →
        ∃ s', Snapshot.ofValue (.mapping entries') = .ok s' ∧
          ∀ w' : Workbook, w'.snapshot = s' → w.OrderedAlike w' := by
  refine ⟨fun rs rs' h hn => ?_, fun entries entries' w h hd hs hn => ?_⟩
  · have halike := ofCalls_alike h hn
    exact ⟨halike.topologicalOrder_eq, fun _ _ => halike.findCycle_eq,
      halike.findCycle_eq halike.cells, halike.closure_eq⟩
  · obtain ⟨s', hs', hperm⟩ := ofValue_reordered h hd hs
    refine ⟨s', hs', fun w' hw' => orderedAlike_of_perm ?_ hn⟩
    rw [← hw'] at hperm
    exact hperm

/-- Two captured sheets, of which the first reads the second. -/
def captured : List (String × Value) :=
  [("S", .mapping [("cells", .mapping [("A1", .text "=B1+1"), ("B1", .text "=T!A1*2")])]),
    ("T", .mapping [("cells", .mapping [("A1", .text "=1")])])]

/-- The same sheets and cells the other way round. -/
def recaptured : List (String × Value) :=
  [("T", .mapping [("cells", .mapping [("A1", .text "=1")])]),
    ("S", .mapping [("cells", .mapping [("B1", .text "=T!A1*2"), ("A1", .text "=B1+1")])])]

theorem captured_reordered : Reordered captured recaptured :=
  ⟨recaptured.reverse, .cons ⟨rfl, _, _, rfl, rfl, .swap _ _ _⟩
    (.cons ⟨rfl, _, _, rfl, rfl, .refl _⟩ .nil), List.reverse_perm recaptured⟩

theorem captured_distinctCells : DistinctCells captured where
  sheets := by decide
  cells := by
    have hcells : ∀ e ∈ captured, ∀ cells ∈ cellEntries? e.2,
        (cells.map fun c => bareReference c.1).Nodup := by decide
    exact hcells

theorem answers_reordered_captured :
    (ofCalls diamond).topologicalOrder = (ofCalls diamond.reverse).topologicalOrder ∧
      ∃ w w' : Workbook, Snapshot.ofValue (.mapping captured) = .ok w.snapshot ∧
        Snapshot.ofValue (.mapping recaptured) = .ok w'.snapshot ∧ w.OrderedAlike w' := by
  obtain ⟨s, hs, hn⟩ : ∃ s ∈ (Snapshot.ofValue (.mapping captured)).toOption,
      ((Graph.formulaCells s).map keyOf).Nodup := by decide
  obtain ⟨s', hs', halike⟩ := answers_reordered.2 captured recaptured ⟨s, .standard, false⟩
    captured_reordered captured_distinctCells (eq_ok_of_toOption hs) hn
  exact ⟨(answers_reordered.1 _ _ (List.reverse_perm diamond).symm (by decide)).1,
    ⟨s, .standard, false⟩, ⟨s', .standard, false⟩, eq_ok_of_toOption hs, hs', halike _ rfl⟩

end Workbook

end Appraisal
