import Appraisal.Proofs.Evaluation.Calculate
import Appraisal.Proofs.Evaluation.History
import Appraisal.Proofs.Evaluation.Lookup

/-!
# What all formula cells are worth

All formula cells are settled one after the other, over whatever cache there is. What comes out is
a value for each of them: the one that the cell has by itself, on a new desk.

* `Workbook.calculate_gives` — **all formula cells are settled with their worths**, or with the
  fault of the order, or with one that a formula cell leads to;
* `Evaluator.answer_calculate`, `Evaluator.answer_cell` — the answers for all formula cells and for
  one of them;
* `Desk.ask_calculate` — **each formula cell has the value that it has by itself**, whatever was
  asked before, whatever is stored beside it, and whether its formula is within the grammar or not.
-/

namespace Appraisal

namespace Workbook

variable {w : Workbook}

/-! ## 1. Values -/

/-- Keys with their worths, one after the other. -/
theorem worths_of_forall₂ {keys : List String} {vs : List (String × Value)}
    (h : List.Forall₂ (fun key entry => entry.1 = key ∧ w.Worth key entry.2) keys vs) :
    vs.map (·.1) = keys ∧ ∀ entry ∈ vs, w.Worth entry.1 entry.2 := by
  induction h with
  | nil => exact ⟨rfl, nofun⟩
  | cons hfirst _ ih =>
    obtain ⟨rfl, hv⟩ := hfirst
    exact ⟨by rw [List.map_cons, ih.1], List.forall_mem_cons.mpr ⟨hv, ih.2⟩⟩

/-- **All formula cells are settled with their worths**, in order, or with the fault of the order,
    or with one that a formula cell leads to. -/
theorem calculate_gives (w : Workbook) :
    (∃ vs, w.evaluationOrder = .ok (vs.map (·.1)) ∧ (∀ entry ∈ vs, w.Worth entry.1 entry.2) ∧
        w.Gives w.calculate (.ok vs)) ∨
      ∃ fault, (w.evaluationOrder = .error fault ∨ ∃ order, w.evaluationOrder = .ok order ∧
        ∃ key ∈ order, w.Surfaces key fault) ∧ w.Gives w.calculate (.error fault) := by
  cases ho : w.evaluationOrder with
  | error fault => exact Or.inr ⟨fault, Or.inl rfl, gives_calculate_error ho⟩
  | ok order =>
    have horder : w.Gives (ExceptT.mk (pure w.evaluationOrder)) (.ok order) := by
      rw [ho]
      exact gives_lift _
    have hkey : ∀ key, (∃ entry : String × Value, (entry.1 = key ∧ w.Worth key entry.2) ∧
          w.Gives (w.resolve key >>= fun v => pure (key, v)) (.ok entry)) ∨
        ∃ fault, w.Surfaces key fault ∧
          w.Gives (w.resolve key >>= fun v => pure (key, v)) (.error fault) := by
      intro key
      rcases w.resolve_gives key with ⟨v, hv, hgives⟩ | ⟨fault, hs, hgives⟩
      · exact Or.inl ⟨(key, v), ⟨rfl, hv⟩, hgives.bind_ok (gives_pure (key, v))⟩
      · exact Or.inr ⟨fault, hs, hgives.bind_error⟩
    rcases mapM_gives hkey order with ⟨vs, hvs, hgives⟩ | ⟨key, hmem, fault, hs, hgives⟩
    · obtain ⟨rfl, hworth⟩ := worths_of_forall₂ hvs
      exact Or.inl ⟨vs, rfl, hworth, horder.bind_ok hgives⟩
    · exact Or.inr ⟨fault, Or.inr ⟨order, rfl, key, hmem, hs⟩, horder.bind_ok hgives⟩

end Workbook

/-! ## 2. Answers -/

namespace Evaluator

variable {e : Evaluator}

theorem gives_answer {vs : List (String × Value)}
    (h : e.workbook.Gives e.workbook.calculate (.ok vs)) :
    e.workbook.Gives (e.answer .calculate) (.ok (.values vs)) :=
  h.bind_ok (Workbook.gives_pure (Answer.values vs))

/-- Asking for all formula cells gives values only as settling them does. -/
theorem answer_calculate {cache : Cache} (hs : e.workbook.Sound cache)
    {vs : List (String × Value)} (h : ((e.answer .calculate).run cache).1 = .ok (.values vs)) :
    e.workbook.evaluationOrder = .ok (vs.map (·.1)) ∧
      ∀ entry ∈ vs, e.workbook.Worth entry.1 entry.2 := by
  rcases e.workbook.calculate_gives with ⟨us, ho, hworth, hgives⟩ | ⟨fault, -, hgives⟩
  · rw [(gives_answer hgives cache hs).1] at h
    cases h
    exact ⟨ho, hworth⟩
  · have hanswer : e.workbook.Gives (e.answer .calculate) (.error fault) := hgives.bind_error
    rw [(hanswer cache hs).1] at h
    cases h

/-- Asking for a key that has a worth under its own reference gives the worth. -/
theorem answer_cell {p : String × Cell} (hp : Canonical p.2.address) {v : Value}
    (hv : e.workbook.Worth (Graph.keyOf p) v) {cache : Cache} (hs : e.workbook.Sound cache) :
    ((e.answer (.cell p.1 p.2.address)).run cache).1 = .ok (.value v) := by
  have hgives : e.workbook.Gives (e.workbook.cellValue p.1 p.2.address) (.ok v) := by
    rw [Workbook.cellValue_eq_resolve e.workbook hp]
    exact hv.gives_resolve
  exact ((hgives.bind_ok (Workbook.gives_pure (Answer.value v))) cache hs).1

end Evaluator

/-! ## 3. At a desk -/

namespace Desk

open Appraisal.Graph

/-- A new desk answers over an empty cache. -/
theorem ask_start (e : Evaluator) (q : Query) :
    ((start e).ask q).1 = ((e.answer q).run []).1 :=
  rfl

/-- **Each formula cell has the value that it has by itself.** When all formula cells are asked for
    and have values, after any series of acts, these are the formula cells of the snapshot, each
    once and after those that it reads in the graph, and each with the value that a new desk gives
    for it alone. -/
theorem ask_calculate (e : Evaluator) (hw : e.workbook.snapshot.WellFormed)
    (hc : ∀ p ∈ e.workbook.formulas, Canonical p.2.address) (acts : List Act)
    {vs : List (String × Value)}
    (h : (((start e).after acts).ask .calculate).1 = .ok (.values vs)) :
    (vs.map (·.1)).Nodup ∧ (vs.map (·.1)).Perm (e.workbook.formulas.map keyOf) ∧
      (∃ g, Graph.ofSnapshot e.workbook.snapshot = .ok g ∧
        ∀ before x after, vs.map (·.1) = before ++ x :: after →
          ∀ y ∈ g.reads x, y ∈ e.workbook.formulas.map keyOf → y ∈ before) ∧
      ∀ p ∈ e.workbook.formulas, ∃ v, (keyOf p, v) ∈ vs ∧
        ((start e).ask (.cell p.1 p.2.address)).1 = .ok (.value v) := by
  have htrusted : Trusted e.workbook ((start e).after acts) := (trusted_start e).after acts
  have hsame := htrusted.workbook_eq
  have hsound := htrusted.sound_cache
  generalize (start e).after acts = d at h hsame hsound
  obtain ⟨ho, hworth⟩ := Evaluator.answer_calculate (hsame.symm ▸ hsound) h
  rw [hsame] at ho hworth
  have hn := Workbook.nodup_keys hw hc
  obtain ⟨hperm, hordered⟩ := Workbook.evaluationOrder_spec hn ho
  refine ⟨hperm.nodup_iff.mpr hn, hperm, hordered, fun p hp => ?_⟩
  obtain ⟨⟨key, v⟩, hentry, rfl⟩ :=
    List.mem_map.mp (hperm.mem_iff.mpr (List.mem_map_of_mem (f := keyOf) hp))
  refine ⟨v, hentry, ?_⟩
  rw [ask_start]
  exact Evaluator.answer_cell (hc p hp) (hworth _ hentry) Workbook.sound_nil

end Desk

namespace Workbook

open Appraisal.Graph

/-- Two sheets with values alone, a value stored beside a formula, formulas without a value, and a
    formula beyond the grammar. -/
def mixed : Workbook where
  snapshot := ⟨[("S", ⟨"S", [("A1", ⟨"A1", .number (.whole 2), none⟩),
      ("B1", ⟨"B1", .blank, some "=A1*T!A1"⟩), ("C1", ⟨"C1", .number (.whole 5), some "=B1+1"⟩)]⟩),
    ("T", ⟨"T", [("A1", ⟨"A1", .blank, some "=SUM(A2:A3)"⟩),
      ("A2", ⟨"A2", .number (.whole 3), none⟩), ("B1", ⟨"B1", .blank, some "=S!B1^2"⟩)]⟩)]⟩
  library := .standard
  recompute := false

/-- A look-up, a new evaluator that shares the cache, and a sum that it asks for. -/
def browsing : List Desk.Act :=
  [.ask (.cell "S" "C1"), .join {} true, .ask (.sum "T" "A1" "B1")]

theorem mixed_orderly : mixed.Orderly where
  snapshot := by decide +kernel
  canonical := by decide +kernel
  fits := ⟨by decide +kernel, Function.Library.standard_keepsFloats⟩
  acyclic := not_onCircle_of_rank
    ["S!A1", "T!A2", "T!A3", "T!A1", "S!B1", "S!C1", "T!B1"].idxOf (by decide +kernel)

theorem mixed_mentionsClear : mixed.MentionsClear := by
  have hcheck : ∀ p ∈ mixed.formulas, ∃ refs ∈ (registrationOf p).mentions.toOption,
      ∀ other ∈ refs, other ∈ mixed.formulas.map keyOf →
        ["T!A1", "S!B1", "S!C1", "T!B1"].idxOf other <
          ["T!A1", "S!B1", "S!C1", "T!B1"].idxOf (keyOf p) := by decide +kernel
  refine mentionsClear_of_rank ["T!A1", "S!B1", "S!C1", "T!B1"].idxOf fun p hp => ?_
  obtain ⟨refs, hrefs, hdown⟩ := hcheck p hp
  exact ⟨refs, eq_ok_of_toOption hrefs, hdown⟩

theorem ask_calculate_mixed :
    mixed.snapshot.WellFormed ∧ (∀ p ∈ mixed.formulas, Canonical p.2.address) ∧
      ∃ vs, (((Desk.start ⟨mixed, {}⟩).after browsing).ask .calculate).1 = .ok (.values vs) ∧
        (vs.map (·.1)).Perm ["S!B1", "S!C1", "T!A1", "T!B1"] := by
  have hw : mixed.snapshot.WellFormed := mixed_orderly.snapshot
  have hc : ∀ p ∈ mixed.formulas, Canonical p.2.address := mixed_orderly.canonical
  obtain ⟨order, ho⟩ :=
    (evaluationOrder_exists_iff mixed_orderly.nodup_keys).mpr mixed_mentionsClear
  choose value hvalue using mixed_orderly.exists_worth
  have hnew : ((Desk.start ⟨mixed, {}⟩).ask .calculate).1 =
      .ok (.values (order.map fun key => (key, value key))) := by
    rw [Desk.ask_start]
    exact (Evaluator.gives_answer (gives_calculate ho fun key _ => hvalue key) [] sound_nil).1
  have htrusted := Desk.trusted_start ⟨mixed, {}⟩
  have hvs := ((htrusted.after browsing).ask_eq htrusted rfl .calculate).trans hnew
  have hkeys : mixed.formulas.map keyOf = ["S!B1", "S!C1", "T!A1", "T!B1"] := by decide +kernel
  obtain ⟨-, hperm, -, -⟩ := Desk.ask_calculate ⟨mixed, {}⟩ hw hc browsing hvs
  exact ⟨hw, hc, _, hvs, hkeys ▸ hperm⟩

end Workbook

end Appraisal
