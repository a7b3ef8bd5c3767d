import Appraisal.Proofs.Address.Rectangle
import Appraisal.Proofs.Evaluation.Lookup
import Appraisal.Proofs.Formula.Rendering
import Appraisal.Proofs.Function.Aggregate

/-!
# Aggregates over ranges

A rectangle of cells can be summed up as one range or as two stacked ones, and by a formula or by a
query. The same cells are read in the same order each time, and so the same floats are added up.

* `Workbook.treeValue_aggregate` — what a call of an aggregate on ranges is worth;
* `Aggregate.stacked_range` — **a range is worth as much as its upper and its lower rows**;
* `Corner`, `Corner.exists_cell` — a text that is a reference without a sheet;
* `Aggregate.formulaText`, `Aggregate.query` — an aggregate of the range between two corners, as a
  formula and as a query;
* `cutInto_tokens`, `derives_tokens`, `ofText_formulaText` — the formula piece by piece;
  `readRange?_corners` — the query reads the same range;
* `Evaluator.answer_aggregate` — **the formula and the query give the same value**.
-/

namespace Appraisal

open Appraisal.Text Appraisal.Formula Appraisal.Function

/-! ## 1. Stacked ranges -/

section Stacked

variable {w : Workbook} {g : Aggregate} {on : String}

/-- The library has the aggregate under its name. -/
def Workbook.Offers (w : Workbook) (g : Aggregate) : Prop :=
  ∃ signature, w.library.find? g.name = some ⟨signature, g.apply⟩

/-- The values of the cells of a range, seen from a sheet. -/
def valuesOn (value : String → Value) (on : String) (r : CellRange) : List Value :=
  r.addresses.map fun a => value (a.key on)

theorem Workbook.callValue_aggregate (h : w.Offers g) (args : List Value) :
    w.callValue g.name args = (g.apply args).toOption.getD .blank := by
  obtain ⟨signature, hfound⟩ := h
  rw [callValue, hfound]

/-- A call of an aggregate on a range is worth what it makes of the range's cells. -/
theorem Workbook.treeValue_aggregate (h : w.Offers g) (value : String → Value) (r : CellRange) :
    w.treeValue value on (.call g.name [.range r]) =
      .ok ((g.apply (valuesOn value on r)).toOption.getD .blank) := by
  show Except.ok (w.callValue g.name [.list (valuesOn value on r)]) = _
  rw [callValue_aggregate h, g.apply_list]

variable {whole upper lower : CellRange}

/-- The cells of stacked ranges make the same as two lists and as one. -/
theorem apply_stacked (g : Aggregate) (value : String → Value) (on : String)
    (hstack : whole.addresses = upper.addresses ++ lower.addresses) :
    g.apply [.list (valuesOn value on whole)] =
      g.apply [.list (valuesOn value on upper), .list (valuesOn value on lower)] := by
  have hvalues : valuesOn value on whole = valuesOn value on upper ++ valuesOn value on lower := by
    rw [valuesOn, hstack, List.map_append]
    rfl
  rw [g.apply_pair, hvalues]

theorem treeValue_stacked (h : w.Offers g)
    (hstack : whole.addresses = upper.addresses ++ lower.addresses) (value : String → Value) :
    w.treeValue value on (.call g.name [.range whole]) =
      w.treeValue value on (.call g.name [.range upper, .range lower]) := by
  have hpair : w.treeValue value on (.call g.name [.range upper, .range lower]) =
      .ok (w.callValue g.name [.list (valuesOn value on upper), .list (valuesOn value on lower)]) :=
    rfl
  rw [Workbook.treeValue_aggregate h, hpair, Workbook.callValue_aggregate h, ← g.apply_list,
    apply_stacked g value on hstack]

theorem references_stacked (name : String)
    (hstack : whole.addresses = upper.addresses ++ lower.addresses) :
    Tree.references on (.call name [.range whole]) =
      Tree.references on (.call name [.range upper, .range lower]) := by
  have hkeys : Tree.keys on (.call name [.range whole]) =
      Tree.keys on (.call name [.range upper, .range lower]) := by
    simp only [Tree.keys, Argument.keys, hstack, List.flatMap_cons, List.flatMap_nil,
      List.map_append, List.append_nil]
  rw [Tree.references, Tree.references, hkeys]

/-- Keys that read the same and make the same of it are worth the same. -/
theorem Workbook.worth_of_same {key key' : String} {v : Value} (hreads : w.reads key = w.reads key')
    (hvalue : ∀ value, w.keyValue value key = w.keyValue value key') (h : w.Worth key v) :
    w.Worth key' v := by
  obtain ⟨value, hr, hv⟩ := h.exists_value
  exact .of_keyValue value (hreads ▸ hr) (hvalue value ▸ hv)

end Stacked

/-- **A range is worth as much as its upper and its lower rows**: the sum, the largest and the
    smallest number depend on the numbers from left to right and on nothing else, and so a call on a
    rectangle and a call on two rectangles that it consists of, one above the other, read the same
    and have the same value, whatever the cells are worth and whatever is settled already. -/
theorem Function.Aggregate.stacked_range :
    (∀ vs vs' : List Value, Value.numbersAll vs = Value.numbersAll vs' →
      sumValues vs = sumValues vs' ∧ maxValues vs = maxValues vs' ∧
        minValues vs = minValues vs') ∧
    ∀ (g : Aggregate) (sheet : Option String) (left top right middle bottom : Int)
      (whole upper lower : CellRange), whole.Spans sheet left top right bottom →
      upper.Spans sheet left top right middle → lower.Spans sheet left (middle + 1) right bottom →
      ∀ on : String,
        (∀ value, g.apply [.list (valuesOn value on whole)] =
          g.apply [.list (valuesOn value on upper), .list (valuesOn value on lower)]) ∧
        ∀ w : Workbook, w.Offers g →
          (∀ value, w.treeValue value on (.call g.name [.range whole]) =
            w.treeValue value on (.call g.name [.range upper, .range lower])) ∧
          ∀ key key', w.formula? key = some (on, .call g.name [.range whole]) →
            w.formula? key' = some (on, .call g.name [.range upper, .range lower]) →
            ∀ cache cache', w.Sound cache → w.Sound cache' → ∀ v,
              ((w.resolve key).run cache).1 = .ok v ↔ ((w.resolve key').run cache').1 = .ok v := by
  refine ⟨fun _ _ => values_congr, fun g sheet left top right middle bottom whole upper lower hwhole
    hupper hlower on => ?_⟩
  have hstack := CellRange.addresses_stack hwhole hupper hlower
  refine ⟨fun value => apply_stacked g value on hstack, fun w hoffers => ?_⟩
  have htrees : ∀ value, w.treeValue value on (.call g.name [.range whole]) =
      w.treeValue value on (.call g.name [.range upper, .range lower]) :=
    treeValue_stacked hoffers hstack
  refine ⟨htrees, fun key key' hkey hkey' cache cache' hs hs' v => ?_⟩
  have hreads : w.reads key = w.reads key' := by
    rw [Workbook.reads_of_formula? hkey, Workbook.reads_of_formula? hkey',
      references_stacked g.name hstack]
  have hvalue : ∀ value, w.keyValue value key = w.keyValue value key' := by
    intro value
    rw [Workbook.keyValue, hkey, Workbook.keyValue, hkey']
    exact htrees value
  rw [hs.resolve_ok_iff, hs'.resolve_ok_iff]
  exact ⟨Workbook.worth_of_same hreads hvalue,
    Workbook.worth_of_same hreads.symm fun value => (hvalue value).symm⟩

/-- Six cells with a blank, a truth value and a text among them, a sum over all six, and a sum over
    the upper four and the lower two. -/
def Workbook.stacked : Workbook where
  snapshot := ⟨[("S", ⟨"S", [("A1", ⟨"A1", .number (.whole 1), none⟩),
    ("B1", ⟨"B1", .flag true, none⟩), ("A2", ⟨"A2", .text "n/a", none⟩),
    ("B2", ⟨"B2", .number (.whole 2), none⟩), ("B3", ⟨"B3", .number (.whole 3), none⟩),
    ("D1", ⟨"D1", .blank, some "=SUM($B$3:A1)"⟩),
    ("D2", ⟨"D2", .blank, some "=SUM(A1:B2, A3:B3)"⟩)]⟩)]⟩
  library := .standard
  recompute := false

theorem Function.Aggregate.stacked_range_mixed :
    sumValues [.list [.whole 1, .list [.text "n/a", .whole 2]], .blank] =
      sumValues [.whole 1, .whole 2] ∧
    ∀ v, ((Workbook.stacked.resolve "S!D1").run []).1 = .ok v ↔
      ((Workbook.stacked.resolve "S!D2").run []).1 = .ok v := by
  obtain ⟨hnested, hstacked⟩ := stacked_range
  have hoffers : Workbook.stacked.Offers .sum := ⟨_, rfl⟩
  have hwhole : (CellRange.mk ⟨none, 2, 3, true, true⟩ (unmarked none 1 1)).Spans none 1 1 2 3 := by
    decide
  have hupper : (CellRange.mk (unmarked none 1 1) (unmarked none 2 2)).Spans none 1 1 2 2 := by
    decide
  have hlower : (CellRange.mk (unmarked none 1 3) (unmarked none 2 3)).Spans none 1 3 2 3 := by
    decide
  obtain ⟨-, hcalls⟩ := hstacked .sum none 1 1 2 2 3 _ _ _ hwhole hupper hlower "S"
  exact ⟨(hnested _ _ rfl).1, (hcalls _ hoffers).2 "S!D1" "S!D2" (by decide +kernel)
    (by decide +kernel) [] [] Workbook.sound_nil Workbook.sound_nil⟩

/-! ## 2. Corners -/

/-- A text without blanks about it that is the reference of a cell and names no sheet. -/
structure Corner (text : String) (a : Address) : Prop where
  read : Address.read? text = some a
  tight : strip text.toList = text.toList
  bare : a.sheet = none

section Corners

variable {text first last : String} {a b : Address}

/-- A corner is spelled by a cell without a sheet. -/
theorem Corner.exists_cell (h : Corner text a) :
    ∃ c : CellSpelling, c.Sound Char.isAlpha ∧ text = String.ofList c.text := by
  obtain ⟨s, hs, htext, hspelled⟩ := Address.read?_iff.mp h.read
  have habsent := Address.absent_of_ofSpelling? hspelled h.bare
  rw [h.tight, Spelling.text, habsent] at htext
  exact ⟨s.cell, hs.cell, by rw [← String.toList_inj, htext, String.toList_ofList]; rfl⟩

/-- Two corners about a colon are read as the range between them. -/
theorem readRange?_corners (hfirst : Corner first a) (hlast : Corner last b) :
    readRange? (first ++ ":" ++ last) = some (CellRange.mk a b).addresses := by
  obtain ⟨c, hc, rfl⟩ := hfirst.exists_cell
  obtain ⟨d, hd, rfl⟩ := hlast.exists_cell
  have hcolon : ∀ {c : CellSpelling}, c.Sound Char.isAlpha → ':' ∉ c.text := fun hc h =>
    absurd (hc.mono.word _ h).1 (by decide)
  have hcut : cutOnly ':' (String.ofList c.text ++ ":" ++ String.ofList d.text).toList =
      some (c.text, d.text) :=
    cutOnly_eq_some_iff.mpr ⟨by simp, hcolon hc, hcolon hd⟩
  have hcorners : CellRange.ofCorners? a b = some ⟨a, b⟩ := by
    unfold CellRange.ofCorners?
    rw [if_neg fun hdiffers => hdiffers.1 hlast.bare, hfirst.bare, ← hlast.bare]
  unfold readRange? CellRange.read?
  rw [hcut]
  simp only [Option.bind_eq_bind, Option.bind_some, hfirst.read, hlast.read, hcorners]
  rfl

/-! ## 3. Formulas and queries -/

/-- The formula of the aggregate over the range between two corners. -/
def Function.Aggregate.formulaText (g : Aggregate) (first last : String) : String :=
  "=" ++ g.name ++ "(" ++ first ++ ":" ++ last ++ ")"

/-- The query for the aggregate over the range between two corners. -/
def Function.Aggregate.query (g : Aggregate) (sheet first last : String) : Query :=
  match g with
  | .sum => .sum sheet first last
  | .max => .max sheet first last
  | .min => .min sheet first last

theorem isFunctionName_aggregate (g : Aggregate) : IsFunctionName g.name.toList := by
  have hall : g.name.toList.all (fun c => decide (65 ≤ c.toNat ∧ c.toNat ≤ 90)) = true := by
    cases g <;> decide
  have hcapital : ∀ c ∈ g.name.toList, 65 ≤ c.toNat ∧ c.toNat ≤ 90 := fun c hc =>
    of_decide_eq_true (List.all_eq_true.mp hall c hc)
  obtain ⟨c, cs, hcs⟩ := List.exists_cons_of_ne_nil (show g.name.toList ≠ [] by cases g <;> decide)
  rw [hcs] at hcapital ⊢
  exact ⟨c, cs, rfl, hcapital c List.mem_cons_self, fun x hx =>
    Or.inl (hcapital x (List.mem_cons_of_mem c hx))⟩

/-- The pieces of the formula of an aggregate over the range between two spelled cells. -/
def Function.Aggregate.tokens (g : Aggregate) (c d : CellSpelling) : List Token :=
  ⟨.name, g.name.toList⟩ :: opening ::
    ([⟨.reference, c.text⟩, colon, ⟨.reference, d.text⟩] ++ [closing])

/-- The text of the formula, from its last piece to its first. -/
theorem cutInto_tokens (g : Aggregate) {c d : CellSpelling} (hc : c.Sound Char.isAlpha)
    (hd : d.Sound Char.isAlpha) :
    CutInto (g.name.toList ++ '(' :: (c.text ++ ':' :: (d.text ++ [')']))) (g.tokens c d) := by
  have hclosing : CutInto [')'] [closing] := cutInto_nil.mark rfl
  have hright := CutInto.spelling (s := ⟨.absent, d⟩) ⟨trivial, hd.mono⟩ nofun
    (parted_cons (c := ')') rfl []) hclosing
  have hleft := CutInto.spelling (s := ⟨.absent, c⟩) ⟨trivial, hc.mono⟩ nofun
    (parted_cons (c := ':') rfl _) (hright.mark (c := ':') rfl)
  exact (hleft.mark (c := '(') rfl).name (isFunctionName_aggregate g)

/-- The pieces write a call on the range between the corners. -/
theorem derives_tokens (g : Aggregate) {c d : CellSpelling}
    (hfirst : Corner (String.ofList c.text) a) (hlast : Corner (String.ofList d.text) b) :
    Derives Library.standard.signatures (g.tokens c d) (.call g.name [.range ⟨a, b⟩]) := by
  have hrange : (⟨a, { b with sheet := a.sheet }⟩ : CellRange) = ⟨a, b⟩ := by
    rw [hfirst.bare, ← hlast.bare]
  have hargument : DerivesArgument true [⟨.reference, c.text⟩, colon, ⟨.reference, d.text⟩]
      (.range ⟨a, b⟩) :=
    hrange ▸ .range rfl rfl hfirst.read rfl hlast.read (Or.inl hlast.bare)
  have hupper : String.ofList (upper g.name.toList) = g.name := by
    rw [upper_of_isFunctionName (isFunctionName_aggregate g), String.ofList_toList]
  have hsignature : Library.standard.signatures.get? (String.ofList (upper g.name.toList)) =
      some ⟨1, unbounded, true⟩ := by
    rw [hupper]
    cases g <;> rfl
  have hderives : Derives Library.standard.signatures (g.tokens c d)
      (.call (String.ofList (upper g.name.toList)) [.range ⟨a, b⟩]) :=
    .call rfl hsignature (.arguments (.one hargument))
      (show (1 : Int) ≤ 1 ∧ (1 : Int) ≤ unbounded from by decide)
  rwa [hupper] at hderives

/-- **The formula of an aggregate is read as a call on the range between its corners.** -/
theorem ofText_formulaText (g : Aggregate) (hfirst : Corner first a) (hlast : Corner last b) :
    Tree.ofText Library.standard.signatures (g.formulaText first last) =
      .call g.name [.range ⟨a, b⟩] := by
  obtain ⟨c, hc, rfl⟩ := hfirst.exists_cell
  obtain ⟨d, hd, rfl⟩ := hlast.exists_cell
  have hcs : (g.formulaText (String.ofList c.text) (String.ofList d.text)).toList =
      '=' :: (g.name.toList ++ '(' :: (c.text ++ ':' :: (d.text ++ [')']))) := by
    simp [Function.Aggregate.formulaText]
  have htight : ∀ x, (g.name.toList ++ '(' :: (c.text ++ ':' :: (d.text ++ [')']))).getLast? =
      some x → isBlank x = false := by
    intro x hx
    have hend : g.name.toList ++ '(' :: (c.text ++ ':' :: (d.text ++ [')'])) =
        (g.name.toList ++ '(' :: (c.text ++ ':' :: d.text)) ++ [')'] := by simp
    rw [hend, List.getLast?_concat] at hx
    cases hx
    rfl
  refine Tree.ofText_of_ok ?_ (derives_tokens g hfirst hlast).read
  rw [hcs, body_cons htight]
  exact (cutInto_tokens g hc hd).tokens_eq

end Corners

/-! ## 4. They agree -/

section Agreement

variable {e : Evaluator} {w : Workbook} {g : Aggregate} {sheet first last : String}
  {vs : List Value} {u : Value}

/-- An aggregate of values whose numbers have floats is a value. -/
theorem exists_apply (g : Aggregate) (h : ∀ v ∈ vs, v.fitsFloat = true) :
    ∃ u, g.apply vs = .ok u := by
  have hok : ∀ {α : Type} {f : List Value → Except Fault α} (toValue : α → Value),
      NeedsFloats f → ∃ u, (f vs).map toValue = .ok u := by
    intro α f toValue hf
    rcases hf vs with ⟨⟨v, hv, hbad⟩, -⟩ | ⟨-, x, hx⟩
    · rw [h v hv] at hbad
      cases hbad
    · exact ⟨toValue x, by rw [hx]; rfl⟩
  cases g with
  | sum => exact hok _ sumValues_needsFloats
  | max => exact hok _ (choose_needsFloats _)
  | min => exact hok _ (choose_needsFloats _)

/-- A query for an aggregate gives what the aggregate makes of the values of the range. -/
theorem gives_query (hvalues : e.workbook.Gives (e.workbook.rangeValues sheet first last) (.ok vs))
    (hu : g.apply vs = .ok u) :
    e.workbook.Gives (e.answer (g.query sheet first last)) (.ok (.value u)) := by
  have hlift : ∀ {α : Type} {f : List Value → Except Fault α} {x : α}, f vs = .ok x →
      e.workbook.Gives (ExceptT.mk (pure (f vs))) (.ok x) := by
    intro α f x hx
    rw [hx]
    exact Workbook.gives_lift _
  cases g with
  | sum =>
    obtain ⟨x, hx, rfl⟩ := exists_of_map_ok hu
    exact (hvalues.bind_ok (hlift hx)).bind_ok (Workbook.gives_pure _)
  | max =>
    obtain ⟨x, hx, rfl⟩ := exists_of_map_ok hu
    exact (hvalues.bind_ok (hlift hx)).bind_ok (Workbook.gives_pure _)
  | min =>
    obtain ⟨x, hx, rfl⟩ := exists_of_map_ok hu
    exact (hvalues.bind_ok (hlift hx)).bind_ok (Workbook.gives_pure _)

theorem offers_standard (h : w.library = .standard) (g : Aggregate) : w.Offers g := by
  refine ⟨g.builtin.signature, ?_⟩
  rw [h]
  cases g <;> rfl

/-- The value of a cell without a stored value comes from its formula, here a call of an
    aggregate. -/
theorem formula?_aggregate {a b : Address} {key : String} {c : Cell}
    (hlibrary : w.library = .standard) (hfirst : Corner first a) (hlast : Corner last b)
    (hcell : w.cell? key = some (sheet, c)) (hvalue : c.value = .blank)
    (hformula : c.formula = some (g.formulaText first last)) :
    w.formula? key = some (sheet, .call g.name [.range ⟨a, b⟩]) := by
  have hneeds : w.needsEvaluation c = true := by
    have htext : g.formulaText first last ≠ "" := by
      rw [Aggregate.formulaText, ne_eq, ← String.toList_inj]
      simp
    have hhas : c.hasFormula = true := by
      rw [Cell.hasFormula, hformula]
      exact decide_eq_true htext
    rw [Workbook.needsEvaluation, hhas, hvalue]
    rfl
  have htree : w.tree c = .call g.name [.range ⟨a, b⟩] := by
    rw [Workbook.tree, Workbook.parse, hlibrary, Cell.formulaText, hformula]
    exact ofText_formulaText g hfirst hlast
  rw [Workbook.formula?_of_needs hcell hneeds, htree]

end Agreement

/-- **The formula of an aggregate and the query for it give the same value.** The workbook has the
    standard functions and no number beyond the floats; a cell has no stored value and the formula
    of a sum, a largest or a smallest number over the range between two corners. If the cell leads
    to no circle, it has the value that the query over the same corners gives, whatever is settled
    already. -/
theorem Evaluator.answer_aggregate (e : Evaluator) (g : Aggregate)
    (hlibrary : e.workbook.library = .standard)
    (hfit : ∀ s ∈ e.workbook.snapshot.sheets, ∀ c ∈ s.2.cells,
      c.2.value.fitsFloat = true ∧ (e.workbook.tree c.2).fitsFloat = true)
    {first last : String} {a b : Address} (hfirst : Corner first a) (hlast : Corner last b)
    {origin ref key sheet : String} {c : Cell} (hkey : refKey? origin ref = some key)
    (hcell : e.workbook.cell? key = some (sheet, c)) (hvalue : c.value = .blank)
    (hformula : c.formula = some (g.formulaText first last)) (hacyclic : e.workbook.Acyclic key)
    {cache cache' : Cache} (hs : e.workbook.Sound cache) (hs' : e.workbook.Sound cache') :
    ∃ v, ((e.answer (.cell origin ref)).run cache).1 = .ok (.value v) ∧
      ((e.answer (g.query sheet first last)).run cache').1 = .ok (.value v) := by
  have hf := formula?_aggregate hlibrary hfirst hlast hcell hvalue hformula
  have hfits : e.workbook.FitsFloat :=
    ⟨hfit, by rw [hlibrary]; exact Library.standard_keepsFloats⟩
  -- the cell is worth something, and so are the cells of the range
  obtain ⟨v, hv⟩ := hfits.exists_worth hacyclic
  obtain ⟨value, hr, hval⟩ := hv.exists_value
  have hcells : ∀ x ∈ (CellRange.mk a b).addresses,
      e.workbook.Worth (x.key sheet) (value (x.key sheet)) := by
    intro x hx
    refine hr _ ?_
    rw [Workbook.reads_of_formula? hf, Tree.mem_references_iff]
    exact List.mem_flatMap.mpr ⟨_, List.mem_singleton_self _, List.mem_map_of_mem hx⟩
  have hall : ∀ u ∈ valuesOn value sheet ⟨a, b⟩, u.fitsFloat = true := by
    intro u hu
    obtain ⟨x, hx, rfl⟩ := List.mem_map.mp hu
    exact (hcells x hx).fitsFloat hfits
  obtain ⟨u, hu⟩ := exists_apply g hall
  have huv : v = u := by
    rw [Workbook.keyValue, hf] at hval
    have hcall : e.workbook.treeValue value sheet (.call g.name [.range ⟨a, b⟩]) = .ok u := by
      rw [Workbook.treeValue_aggregate (offers_standard hlibrary g), hu]
      rfl
    exact Except.ok.inj (hval.symm.trans hcall)
  have hrange : e.workbook.Gives (e.workbook.rangeValues sheet first last)
      (.ok (valuesOn value sheet ⟨a, b⟩)) := by
    rw [Workbook.rangeValues, readRange?_corners hfirst hlast]
    exact Workbook.Gives.mapM fun x hx => (hcells x hx).gives_resolve
  refine ⟨u, ?_, (gives_query hrange hu cache' hs').1⟩
  rw [e.run_answer_cell hkey cache, (hv.gives_resolve cache hs).1, huv]
  rfl

theorem Workbook.stacked_not_onCircle (key : String) : ¬ stacked.OnCircle key :=
  not_onCircle_of_rank ["S!A1", "S!B1", "S!A2", "S!B2", "S!A3", "S!B3", "S!D1"].idxOf
    (by decide +kernel) key

theorem Evaluator.answer_aggregate_stacked :
    let e : Evaluator := ⟨Workbook.stacked, {}⟩
    Corner "$B$3" ⟨none, 2, 3, true, true⟩ ∧ Corner "A1" (unmarked none 1 1) ∧
      refKey? "S" "d$1" = some "S!D1" ∧ e.workbook.Acyclic "S!D1" ∧
      ∃ v, ((e.answer (.cell "S" "d$1")).run []).1 = .ok (.value v) ∧
        ((e.answer (.sum "S" "$B$3" "A1")).run []).1 = .ok (.value v) := by
  intro e
  have hfirst : Corner "$B$3" ⟨none, 2, 3, true, true⟩ := ⟨by decide, by decide, rfl⟩
  have hlast : Corner "A1" (unmarked none 1 1) := ⟨by decide, by decide, rfl⟩
  have hkey : refKey? "S" "d$1" = some "S!D1" := by decide +kernel
  have hcell : e.workbook.cell? "S!D1" =
      some ("S", ⟨"D1", .blank, some (Aggregate.sum.formulaText "$B$3" "A1")⟩) := by
    decide +kernel
  have hacyclic : e.workbook.Acyclic "S!D1" := fun k _ => Workbook.stacked_not_onCircle k
  exact ⟨hfirst, hlast, hkey, hacyclic, answer_aggregate e .sum rfl (by decide +kernel) hfirst hlast
    hkey hcell rfl rfl hacyclic Workbook.sound_nil Workbook.sound_nil⟩

end Appraisal
