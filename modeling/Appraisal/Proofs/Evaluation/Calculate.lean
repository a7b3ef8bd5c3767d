import Appraisal.Proofs.Address.Plain
import Appraisal.Proofs.Evaluation.Outcome
import Appraisal.Proofs.Evaluation.Steady
import Appraisal.Proofs.Graph.Placing
import Appraisal.Proofs.Snapshot

/-!
# The values of all formula cells

All formula cells are put in an order by what the texts of their formulas mention, and then settled
by what their formulas read. The two views differ: a text also mentions what it does not read, such
as the cell E5 in the numeral `1E5`.

* `keyOf`: `nodup_keys`, `reads_keyOf` — formula cells go by distinct keys, and read under them
  what their formulas read;
* `Workbook.Mentions`, `Workbook.MentionsClear` — what texts mention, and that they do so without
  a circle; `evaluationOrder_exists_iff`, `evaluationOrder_spec` — when there is an order, and of
  what;
* `Workbook.Orderly` — bare references, no number beyond the floats, and no key that reads itself
  in the end;
* `calculate_ok_iff` — **all formula cells have values exactly if mentions are clear**, and then
  each has the value that it has by itself;
* `numeral`, `numeral_circular` — a workbook without a circle for which one is reported.
-/

namespace Appraisal.Workbook

open Appraisal.Formula Appraisal.Graph

variable {w : Workbook}

/-! ## 1. Formula cells and their keys -/

/-- The formula cells of the workbook with the names of their sheets, in order. -/
abbrev formulas (w : Workbook) : List (String × Cell) :=
  Graph.formulaCells w.snapshot

theorem splitKey?_keyOf {p : String × Cell} (h : Canonical p.2.address) :
    splitKey? (keyOf p) = some (p.1, p.2.address) := by
  obtain ⟨a, -, ha⟩ := h
  rw [keyOf, ← ha]
  exact splitKey?_plain p.1 a.column a.row

/-- Formula cells go by distinct keys. -/
theorem nodup_keys (hw : w.snapshot.WellFormed)
    (hc : ∀ p ∈ w.formulas, Canonical p.2.address) : (w.formulas.map keyOf).Nodup := by
  have hpairs : (w.formulas.map fun p => (p.1, p.2.address)).Nodup := by
    rw [formulas, Graph.formulaCells, List.map_flatMap, List.nodup_flatMap]
    constructor
    · intro e he
      have haddress : e.2.cells.entries.map (·.address) = e.2.cells.names := by
        rw [Listing.entries, Listing.names, List.map_map]
        exact List.map_congr_left fun c hcell => (hw.sheets e he).addresses c hcell
      have hnodup : (e.2.formulaCells.map (·.address)).Nodup := by
        refine List.Nodup.sublist (List.filter_sublist.map _) ?_
        rw [haddress]
        exact (hw.sheets e he).names
      have hmap : ((e.2.formulaCells.map fun c => (e.1, c)).map fun p => (p.1, p.2.address)) =
          (e.2.formulaCells.map (·.address)).map (e.1, ·) := by
        rw [List.map_map, List.map_map]
        rfl
      rw [hmap]
      exact hnodup.map fun _ _ h => congrArg Prod.snd h
    · -- cells of two sheets differ in the first part
      have hsheets : w.snapshot.sheets.Pairwise fun d e => d.1 ≠ e.1 := List.pairwise_map.mp hw.names
      refine hsheets.imp fun {d e} hne => ?_
      intro p hd he
      obtain ⟨q, hq, rfl⟩ := List.mem_map.mp hd
      obtain ⟨c, -, rfl⟩ := List.mem_map.mp hq
      obtain ⟨r, hr, heq⟩ := List.mem_map.mp he
      obtain ⟨c', -, rfl⟩ := List.mem_map.mp hr
      exact hne (congrArg Prod.fst heq).symm
  have hsplit : (w.formulas.map keyOf).map splitKey? =
      (w.formulas.map fun p => (p.1, p.2.address)).map some := by
    rw [List.map_map, List.map_map]
    exact List.map_congr_left fun p hp => splitKey?_keyOf (hc p hp)
  refine List.Nodup.of_map splitKey? ?_
  rw [hsplit]
  exact hpairs.map fun _ _ h => Option.some.inj h

/-- A formula cell that goes by a bare reference is found under its key. -/
theorem cell?_keyOf (hw : w.snapshot.WellFormed) {p : String × Cell} (hp : p ∈ w.formulas)
    (hc : Canonical p.2.address) : w.cell? (keyOf p) = some p := by
  obtain ⟨sh, hsheet, ref, hcell⟩ := mem_formulaCells hp
  have haddress : p.2.address = ref := (hw.sheets _ hsheet).addresses _ hcell
  have hbare : bareReference ref = ref := by
    obtain ⟨a, -, ha⟩ := hc
    rw [← haddress, ← ha]
    exact bareReference_plain a.column a.row
  rw [cell?, splitKey?_keyOf hc, haddress]
  show (w.snapshot.cell? p.1 ref).bind (fun c => some (p.1, c)) = some p
  rw [hw.cell?_of_mem hsheet hcell hbare]
  rfl

/-- What its formula reads is read under its key. -/
theorem reads_keyOf (hw : w.snapshot.WellFormed) {p : String × Cell} (hp : p ∈ w.formulas)
    (hc : Canonical p.2.address) (hn : w.needsEvaluation p.2 = true) :
    w.reads (keyOf p) = (w.tree p.2).references p.1 :=
  reads_of_formula? (formula?_of_needs (cell?_keyOf hw hp hc) hn)

/-- A cell that goes by a bare reference is asked for under its own key. -/
theorem cellValue_eq_resolve (w : Workbook) {p : String × Cell} (h : Canonical p.2.address) :
    w.cellValue p.1 p.2.address = w.resolve (keyOf p) := by
  obtain ⟨a, hread, ha⟩ := h
  have hsplit : splitSheet p.2.address = (none, p.2.address) := by
    rw [← ha]
    exact splitSheet_plain a.column a.row
  have hkey : ({ a with sheet := none } : Address).key p.1 = keyOf p := by
    rw [keyOf, ← ha]
    rfl
  unfold cellValue
  rw [hsplit]
  simp only [hread]
  rw [← hkey]

/-! ## 2. What texts mention -/

/-- The text of a formula cell mentions another formula cell. -/
def Mentions (w : Workbook) (key other : String) : Prop :=
  ∃ p ∈ w.formulas, keyOf p = key ∧
    (∃ refs, (registrationOf p).mentions = .ok refs ∧ other ∈ refs) ∧
    other ∈ w.formulas.map keyOf

/-- Whatever the texts of formulas mention can be spread out, and no formula cell mentions itself
    in the end. -/
def MentionsClear (w : Workbook) : Prop :=
  (∀ p ∈ w.formulas, ∃ refs, (registrationOf p).mentions = .ok refs) ∧
    ∀ key, ¬ Relation.TransGen w.Mentions key key

/-- The graph of a workbook: there is one if the mentions can be spread out, and then it has the
    formula cells, which wait for what they mention. -/
theorem ofSnapshot_spec (hn : (w.formulas.map keyOf).Nodup) :
    ((∃ g, Graph.ofSnapshot w.snapshot = .ok g) ↔
      ∀ p ∈ w.formulas, ∃ refs, (registrationOf p).mentions = .ok refs) ∧
    ∀ g, Graph.ofSnapshot w.snapshot = .ok g →
      g.Clean ∧ g.cells = w.formulas.map keyOf ∧ ∀ x y, g.Waits x y ↔ w.Mentions x y := by
  rw [Graph.ofSnapshot_eq]
  constructor
  · rw [Graph.registerAll_ok_iff, List.forall_mem_map]
  · intro g hg
    have hcells : (w.formulas.map registrationOf).map (·.cell) =
        w.formulas.map keyOf := by
      rw [List.map_map]
      rfl
    obtain ⟨hclean, hall, hreads, -⟩ := Graph.registerAll_clean Graph.empty_clean
      (by rw [hcells]; exact hn) hg
    have hkeys : g.cells = w.formulas.map keyOf := hall.trans hcells
    refine ⟨hclean, hkeys, fun x y => ?_⟩
    constructor
    · rintro ⟨hread, hx, hy⟩
      rw [hkeys] at hx hy
      obtain ⟨p, hp, rfl⟩ := List.mem_map.mp hx
      exact ⟨p, hp, rfl, ⟨_, hreads _ (List.mem_map_of_mem hp), hread⟩, hy⟩
    · rintro ⟨p, hp, rfl, ⟨refs, hrefs, hy⟩, hcell⟩
      have hsame := hreads _ (List.mem_map_of_mem hp)
      rw [hrefs] at hsame
      cases hsame
      exact ⟨hy, hkeys ▸ List.mem_map_of_mem hp, hkeys ▸ hcell⟩

theorem evaluationOrder_of_graph {g : Graph} (hg : Graph.ofSnapshot w.snapshot = .ok g) :
    w.evaluationOrder = g.topologicalOrder := by
  rw [evaluationOrder, hg]
  rfl

theorem evaluationOrder_of_error {fault : Fault}
    (hg : Graph.ofSnapshot w.snapshot = .error fault) : w.evaluationOrder = .error fault := by
  rw [evaluationOrder, hg]
  rfl

/-- There is an order of evaluation exactly if mentions are clear. -/
theorem evaluationOrder_exists_iff (hn : (w.formulas.map keyOf).Nodup) :
    (∃ order, w.evaluationOrder = .ok order) ↔ w.MentionsClear := by
  obtain ⟨hexists, hgraph⟩ := ofSnapshot_spec hn
  unfold MentionsClear
  rw [← hexists]
  cases hg : Graph.ofSnapshot w.snapshot with
  | error fault =>
    refine ⟨fun ⟨order, ho⟩ => ?_, fun ⟨⟨g, h⟩, _⟩ => ?_⟩
    · rw [evaluationOrder_of_error hg] at ho
      cases ho
    · cases h
  | ok g =>
    obtain ⟨hclean, -, hwaits⟩ := hgraph g hg
    have hrelation : g.Waits = w.Mentions := funext fun x => funext fun y => propext (hwaits x y)
    rw [evaluationOrder_of_graph hg, topologicalOrder_exists_iff hclean, hrelation]
    exact ⟨fun h => ⟨⟨g, rfl⟩, h⟩, fun h => h.2⟩

/-- An order of evaluation is one of the graph: it names each formula cell once, and after the
    formula cells that it reads there. -/
theorem evaluationOrder_spec (hn : (w.formulas.map keyOf).Nodup) {order : List String}
    (h : w.evaluationOrder = .ok order) :
    order.Perm (w.formulas.map keyOf) ∧ ∃ g, Graph.ofSnapshot w.snapshot = .ok g ∧
      ∀ before x after, order = before ++ x :: after →
        ∀ y ∈ g.reads x, y ∈ w.formulas.map keyOf → y ∈ before := by
  obtain ⟨-, hgraph⟩ := ofSnapshot_spec hn
  cases hg : Graph.ofSnapshot w.snapshot with
  | error fault =>
    rw [evaluationOrder_of_error hg] at h
    cases h
  | ok g =>
    obtain ⟨hclean, hcells, -⟩ := hgraph g hg
    rw [evaluationOrder_of_graph hg] at h
    obtain ⟨hperm, hordered⟩ := topologicalOrder_spec hclean h
    rw [← hcells]
    exact ⟨hperm, g, rfl, hordered⟩

theorem evaluationOrder_perm (hn : (w.formulas.map keyOf).Nodup) {order : List String}
    (h : w.evaluationOrder = .ok order) : order.Perm (w.formulas.map keyOf) :=
  (evaluationOrder_spec hn h).1

/-- If texts mention formula cells of a lower rank only, mentions are clear. -/
theorem mentionsClear_of_rank (rank : String → Nat)
    (h : ∀ p ∈ w.formulas, ∃ refs, (registrationOf p).mentions = .ok refs ∧
      ∀ other ∈ refs, other ∈ w.formulas.map keyOf → rank other < rank (keyOf p)) :
    w.MentionsClear := by
  constructor
  · intro p hp
    obtain ⟨refs, hrefs, -⟩ := h p hp
    exact ⟨refs, hrefs⟩
  · refine not_circle_of_rank rank fun key other hmention => ?_
    obtain ⟨p, hp, rfl, ⟨refs, hrefs, ho⟩, hcell⟩ := hmention
    obtain ⟨refs', hrefs', hdown⟩ := h p hp
    rw [hrefs] at hrefs'
    cases hrefs'
    exact hdown other ho hcell

/-- Where all mentions can be spread out, the lack of an order is reported as a circle. -/
theorem evaluationOrder_cases (hn : (w.formulas.map keyOf).Nodup)
    (hm : ∀ p ∈ w.formulas, ∃ refs, (registrationOf p).mentions = .ok refs) :
    (∃ order, w.evaluationOrder = .ok order) ∨
      ∃ cycle, w.evaluationOrder = .error (.circular cycle) := by
  obtain ⟨g, hg⟩ := (ofSnapshot_spec hn).1.mpr hm
  rw [evaluationOrder_of_graph hg]
  exact g.topologicalOrder_cases

/-! ## 3. Orderly workbooks -/

/-- A workbook whose formula cells go by bare references, without a number beyond the floats, in
    which no key is computed from itself. -/
structure Orderly (w : Workbook) : Prop where
  snapshot : w.snapshot.WellFormed
  canonical : ∀ p ∈ w.formulas, Canonical p.2.address
  fits : w.FitsFloat
  acyclic : ∀ key, ¬ w.OnCircle key

theorem Orderly.nodup_keys (h : w.Orderly) : (w.formulas.map keyOf).Nodup :=
  Workbook.nodup_keys h.snapshot h.canonical

theorem Orderly.exists_worth (h : w.Orderly) (key : String) : ∃ v, w.Worth key v := by
  obtain ⟨v, hv, -⟩ | ⟨k, -, -, hcircle, -⟩ | ⟨k, -, hnofit, -⟩ := w.resolve_outcome key
  · exact ⟨v, hv⟩
  · exact absurd hcircle (h.acyclic k)
  · exact absurd (h.fits.operandsFit k) hnofit

/-- If texts mention no formula cell but those that their formulas read, mentions are clear. -/
theorem Orderly.mentionsClear (h : w.Orderly)
    (hneeds : ∀ p ∈ w.formulas, w.needsEvaluation p.2 = true)
    (hm : ∀ p ∈ w.formulas, ∃ refs, (registrationOf p).mentions = .ok refs ∧
      ∀ other ∈ refs, other ∈ w.formulas.map keyOf → other ∈ (w.tree p.2).references p.1) :
    w.MentionsClear := by
  constructor
  · intro p hp
    obtain ⟨refs, hrefs, -⟩ := hm p hp
    exact ⟨refs, hrefs⟩
  · intro key hcircle
    refine h.acyclic key (Relation.TransGen.mono (fun key other hmention => ?_) _ _ hcircle)
    obtain ⟨p, hp, rfl, ⟨refs, hrefs, ho⟩, hcell⟩ := hmention
    obtain ⟨refs', hrefs', hread⟩ := hm p hp
    rw [hrefs] at hrefs'
    cases hrefs'
    rw [← mem_reads_iff, reads_keyOf h.snapshot hp (h.canonical p hp) (hneeds p hp)]
    exact hread other ho hcell

/-- What the values of all formula cells are, once there is an order. -/
theorem Orderly.gives_calculate (h : w.Orderly) {order : List String}
    (ho : w.evaluationOrder = .ok order) :
    ∃ value : String → Value, (∀ key, w.Worth key (value key)) ∧
      (w.calculate.run []).1 = .ok (order.map fun key => (key, value key)) := by
  choose value hvalue using h.exists_worth
  exact ⟨value, hvalue, (Workbook.gives_calculate ho (fun key _ => hvalue key) [] sound_nil).1⟩

/-- **All formula cells have values exactly if mentions are clear**; then they are the formula
    cells of the workbook, each once, and each has the value that it has by itself. -/
theorem calculate_ok_iff (w : Workbook) (h : w.Orderly) :
    ((∃ vs, (w.calculate.run []).1 = .ok vs) ↔ w.MentionsClear) ∧
      ∀ vs, (w.calculate.run []).1 = .ok vs →
        (vs.map (·.1)).Nodup ∧ (vs.map (·.1)).Perm (w.formulas.map keyOf) ∧
          ∀ p ∈ w.formulas, ∃ v, (keyOf p, v) ∈ vs ∧
            ((w.cellValue p.1 p.2.address).run []).1 = .ok v := by
  have horder : ∀ vs, (w.calculate.run []).1 = .ok vs →
      ∃ order, w.evaluationOrder = .ok order := by
    intro vs hvs
    cases ho : w.evaluationOrder with
    | ok order => exact ⟨order, rfl⟩
    | error fault =>
      rw [(gives_calculate_error ho [] sound_nil).1] at hvs
      cases hvs
  rw [← evaluationOrder_exists_iff h.nodup_keys]
  refine ⟨⟨fun ⟨vs, hvs⟩ => horder vs hvs, fun ⟨order, ho⟩ => ?_⟩, fun vs hvs => ?_⟩
  · obtain ⟨value, -, hrun⟩ := h.gives_calculate ho
    exact ⟨_, hrun⟩
  · obtain ⟨order, ho⟩ := horder vs hvs
    obtain ⟨value, hvalue, hrun⟩ := h.gives_calculate ho
    have hperm := evaluationOrder_perm h.nodup_keys ho
    rw [hrun] at hvs
    cases hvs
    have hkeys : (order.map fun key => (key, value key)).map (·.1) = order := by
      rw [List.map_map]
      exact List.map_id order
    rw [hkeys]
    refine ⟨hperm.nodup_iff.mpr h.nodup_keys, hperm, fun p hp => ⟨value (keyOf p), ?_, ?_⟩⟩
    · exact List.mem_map.mpr ⟨_, hperm.mem_iff.mpr (List.mem_map_of_mem hp), rfl⟩
    · rw [cellValue_eq_resolve w (h.canonical p hp)]
      exact ((hvalue (keyOf p)).gives_resolve [] sound_nil).1

theorem ladder_orderly : ladder.Orderly where
  snapshot := by decide +kernel
  canonical := by decide +kernel
  fits := ladder_fitsFloat
  acyclic := ladder_not_onCircle

theorem ladder_mentionsClear : ladder.MentionsClear := by
  have hcheck : ∀ p ∈ ladder.formulas, ∃ refs ∈ (registrationOf p).mentions.toOption,
      ∀ other ∈ refs, other ∈ (ladder.tree p.2).references p.1 := by decide +kernel
  refine ladder_orderly.mentionsClear (by decide +kernel) fun p hp => ?_
  obtain ⟨refs, hrefs, hread⟩ := hcheck p hp
  exact ⟨refs, eq_ok_of_toOption hrefs, fun other ho _ => hread other ho⟩

theorem calculate_ok_ladder : ladder.Orderly ∧ ladder.MentionsClear ∧
    ∃ vs, (ladder.calculate.run []).1 = .ok vs ∧ (vs.map (·.1)).Perm ["S!B1", "S!C1"] := by
  obtain ⟨hexists, hvalues⟩ := calculate_ok_iff ladder ladder_orderly
  obtain ⟨vs, hvs⟩ := hexists.mpr ladder_mentionsClear
  exact ⟨ladder_orderly, ladder_mentionsClear, vs, hvs, (hvalues vs hvs).2.1⟩

/-- A numeral with an exponent, in a cell whose reference the exponent looks like. -/
def numeral : Workbook where
  snapshot := ⟨[("S", ⟨"S", [("E5", ⟨"E5", .blank, some "=1E5"⟩)]⟩)]⟩
  library := .standard
  recompute := false

theorem numeral_orderly : numeral.Orderly where
  snapshot := by decide +kernel
  canonical := by decide +kernel
  fits := ⟨by decide +kernel, Function.Library.standard_keepsFloats⟩
  acyclic := not_onCircle_of_rank (fun _ => 0) (by decide +kernel)

/-- **A circle is reported where there is none:** the formula is within the grammar and reads
    nothing, but its text mentions its own cell. -/
theorem numeral_circular :
    numeral.Orderly ∧ (∀ name ∈ numeral.snapshot.names, '!' ∉ name.toList ∧ '\x27' ∉ name.toList) ∧
      (∀ p ∈ numeral.formulas, (numeral.tree p.2).isSupported = true ∧ p.2.value = .blank ∧
        (numeral.tree p.2).references p.1 = []) ∧
      ∃ cycle, (numeral.calculate.run []).1 = .error (.circular cycle) := by
  refine ⟨numeral_orderly, by decide +kernel, by decide +kernel, ?_⟩
  have hcheck : ∀ p ∈ numeral.formulas,
      (registrationOf p).mentions.toOption = some ["S!E5"] := by decide +kernel
  have hmentions : ∀ p ∈ numeral.formulas, (registrationOf p).mentions = .ok ["S!E5"] :=
    fun p hp => eq_ok_of_toOption (hcheck p hp)
  have hself : numeral.Mentions "S!E5" "S!E5" := by
    refine ⟨("S", ⟨"E5", .blank, some "=1E5"⟩), by decide +kernel, by decide +kernel, ?_,
      by decide +kernel⟩
    exact ⟨["S!E5"], hmentions _ (by decide +kernel), List.mem_cons_self⟩
  have hn := numeral_orderly.nodup_keys
  rcases evaluationOrder_cases hn fun p hp => ⟨_, hmentions p hp⟩ with ho | ⟨cycle, ho⟩
  · have hclear := (evaluationOrder_exists_iff hn).mp ho
    exact absurd (.single hself) (hclear.2 "S!E5")
  · exact ⟨cycle, (gives_calculate_error ho [] sound_nil).1⟩

end Appraisal.Workbook
