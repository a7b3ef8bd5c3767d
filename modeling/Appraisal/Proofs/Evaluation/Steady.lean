import Appraisal.Evaluation.Query
import Appraisal.Proofs.Evaluation.Settling

/-!
# Steady computations

What is settled already changes how much there is to do, and not what comes out of it: a
computation has the same outcome, be it a value or a fault, over any two caches that hold worths.

* `Workbook.Gives` — the outcome over all sound caches; `Gives.bind_ok`, `Gives.mapM`, `mapM_gives`;
* `Workbook.Steady` — a computation that has one; `Steady.bind`, `Steady.mapM`;
* `Worth.gives_resolve`, `Sound.resolve_ok_iff`, `steady_resolve` — the value of a key;
* `gives_calculate` — the values of all formula cells;
* `Evaluator.steady_answer` — **every question has one answer over all sound caches**.
-/

namespace Appraisal

namespace Workbook

variable {w : Workbook} {α β : Type}

/-! ## 1. Outcomes -/

/-- Over every sound cache, the computation has the outcome and leaves the cache sound. -/
def Gives (w : Workbook) (m : Evaluation α) (outcome : Except Fault α) : Prop :=
  ∀ cache, w.Sound cache → (m.run cache).1 = outcome ∧ w.Sound (m.run cache).2

/-- A computation that has one outcome over all sound caches, and leaves them sound. -/
def Steady (w : Workbook) (m : Evaluation α) : Prop :=
  ∃ outcome, w.Gives m outcome

theorem run_bind_ok {m : Evaluation α} {f : α → Evaluation β} {cache : Cache} {a : α}
    (h : (m.run cache).1 = .ok a) : (m >>= f).run cache = (f a).run (m.run cache).2 := by
  show (ExceptT.bindCont f (m.run cache).1) (m.run cache).2 = _
  rw [h]
  rfl

theorem run_bind_error {m : Evaluation α} {f : α → Evaluation β} {cache : Cache} {fault : Fault}
    (h : (m.run cache).1 = .error fault) :
    (m >>= f).run cache = (.error fault, (m.run cache).2) := by
  show (ExceptT.bindCont f (m.run cache).1) (m.run cache).2 = _
  rw [h]
  rfl

theorem gives_pure (a : α) : w.Gives (pure a) (.ok a) :=
  fun _ hs => ⟨rfl, hs⟩

theorem gives_lift (x : Except Fault α) : w.Gives (ExceptT.mk (pure x)) x :=
  fun _ hs => ⟨rfl, hs⟩

theorem Gives.bind_ok {m : Evaluation α} {f : α → Evaluation β} {a : α} {outcome : Except Fault β}
    (hm : w.Gives m (.ok a)) (hf : w.Gives (f a) outcome) : w.Gives (m >>= f) outcome := by
  intro cache hs
  obtain ⟨hout, hsound⟩ := hm cache hs
  rw [run_bind_ok hout]
  exact hf _ hsound

theorem Gives.bind_error {m : Evaluation α} {f : α → Evaluation β} {fault : Fault}
    (hm : w.Gives m (.error fault)) : w.Gives (m >>= f) (.error fault) := by
  intro cache hs
  obtain ⟨hout, hsound⟩ := hm cache hs
  rw [run_bind_error hout]
  exact ⟨rfl, hsound⟩

theorem Gives.mapM {f : α → Evaluation β} {g : α → β} {l : List α}
    (h : ∀ a ∈ l, w.Gives (f a) (.ok (g a))) : w.Gives (l.mapM f) (.ok (l.map g)) := by
  induction l with
  | nil =>
    rw [List.mapM_nil]
    exact gives_pure []
  | cons a l ih =>
    obtain ⟨ha, hl⟩ := List.forall_mem_cons.mp h
    rw [List.mapM_cons]
    exact ha.bind_ok ((ih hl).bind_ok (gives_pure (g a :: l.map g)))

/-- Where each computation gives a value of its kind or a fault of its kind, a list of them gives
    the values, or the first fault. -/
theorem mapM_gives {f : α → Evaluation β} {P : α → β → Prop} {Q : α → Fault → Prop}
    (h : ∀ a, (∃ b, P a b ∧ w.Gives (f a) (.ok b)) ∨
      ∃ fault, Q a fault ∧ w.Gives (f a) (.error fault)) (l : List α) :
    (∃ bs, List.Forall₂ P l bs ∧ w.Gives (l.mapM f) (.ok bs)) ∨
      ∃ a ∈ l, ∃ fault, Q a fault ∧ w.Gives (l.mapM f) (.error fault) := by
  induction l with
  | nil =>
    rw [List.mapM_nil]
    exact Or.inl ⟨[], .nil, gives_pure []⟩
  | cons a l ih =>
    rw [List.mapM_cons]
    rcases h a with ⟨b, hb, hgives⟩ | ⟨fault, hfault, hgives⟩
    · rcases ih with ⟨bs, hbs, hall⟩ | ⟨x, hx, fault, hfault, hall⟩
      · exact Or.inl ⟨b :: bs, .cons hb hbs, hgives.bind_ok (hall.bind_ok (gives_pure (b :: bs)))⟩
      · exact Or.inr
          ⟨x, List.mem_cons_of_mem a hx, fault, hfault, hgives.bind_ok hall.bind_error⟩
    · exact Or.inr ⟨a, List.mem_cons_self, fault, hfault, hgives.bind_error⟩

theorem steady_pure (a : α) : w.Steady (pure a) :=
  ⟨.ok a, gives_pure a⟩

theorem steady_lift (x : Except Fault α) : w.Steady (ExceptT.mk (pure x)) :=
  ⟨x, gives_lift x⟩

theorem Steady.bind {m : Evaluation α} {f : α → Evaluation β} (hm : w.Steady m)
    (hf : ∀ a, w.Steady (f a)) : w.Steady (m >>= f) := by
  obtain ⟨outcome, hm⟩ := hm
  cases outcome with
  | ok a =>
    obtain ⟨outcome, hf⟩ := hf a
    exact ⟨outcome, hm.bind_ok hf⟩
  | error fault => exact ⟨.error fault, hm.bind_error⟩

theorem Steady.mapM {f : α → Evaluation β} (hf : ∀ a, w.Steady (f a)) (l : List α) :
    w.Steady (l.mapM f) := by
  induction l with
  | nil =>
    rw [List.mapM_nil]
    exact steady_pure []
  | cons a l ih =>
    rw [List.mapM_cons]
    exact (hf a).bind fun b => ih.bind fun bs => steady_pure (b :: bs)

/-! ## 2. Values of keys -/

/-- A key of some worth is settled with it. -/
theorem Worth.gives_resolve {key : String} {v : Value} (h : w.Worth key v) :
    w.Gives (w.resolve key) (.ok v) := by
  intro cache hs
  obtain ⟨hsound, ⟨u, hu, hrun⟩ | ⟨fault, hstops, -⟩⟩ := w.resolve_cases key hs
  · rw [hrun, hu.unique h]
    exact ⟨rfl, hsound⟩
  · exact absurd hstops (h.not_stops (List.isChain_singleton key))

/-- A key whose visit stops is not settled, and meets the same fault each time. -/
theorem Stops.gives_resolve {key : String} {fault : Fault} (h : w.Stops [] key fault) :
    w.Gives (w.resolve key) (.error fault) := by
  have hd : w.Descends [key] := List.isChain_singleton key
  intro cache hs
  obtain ⟨hsound, ⟨u, hu, -⟩ | ⟨fault', hstops', hrun⟩⟩ := w.resolve_cases key hs
  · exact absurd h (hu.not_stops hd)
  · rw [hrun, hstops'.unique h hd]
    exact ⟨rfl, hsound⟩

/-- **What a key is settled with over a sound cache is its worth.** -/
theorem Sound.resolve_ok_iff {cache : Cache} (hs : w.Sound cache) {key : String} {v : Value} :
    ((w.resolve key).run cache).1 = .ok v ↔ w.Worth key v := by
  refine ⟨fun h => ?_, fun h => (h.gives_resolve cache hs).1⟩
  obtain ⟨-, ⟨u, hu, hrun⟩ | ⟨fault, -, hrun⟩⟩ := w.resolve_cases key hs
  · rw [hrun] at h
    cases h
    exact hu
  · rw [hrun] at h
    cases h

/-- What a key is settled with over an empty cache is its worth. -/
theorem worth_iff_resolve {key : String} {v : Value} :
    w.Worth key v ↔ ((w.resolve key).run []).1 = .ok v :=
  sound_nil.resolve_ok_iff.symm

/-- **The value of a key is the same over all sound caches**, and so is the fault met in its
    place. -/
theorem steady_resolve (w : Workbook) (key : String) : w.Steady (w.resolve key) := by
  obtain ⟨-, ⟨v, hv, -⟩ | ⟨fault, hstops, -⟩⟩ := w.resolve_cases key sound_nil
  · exact ⟨.ok v, hv.gives_resolve⟩
  · exact ⟨.error fault, hstops.gives_resolve⟩

theorem steady_cellValue (w : Workbook) (sheet ref : String) :
    w.Steady (w.cellValue sheet ref) := by
  unfold cellValue
  split
  split
  · exact w.steady_resolve _
  · exact steady_pure Value.blank

theorem steady_rangeValues (w : Workbook) (sheet first last : String) :
    w.Steady (w.rangeValues sheet first last) := by
  unfold rangeValues
  cases readRange? (first ++ ":" ++ last) with
  | none => exact steady_pure []
  | some addresses => exact Steady.mapM (fun a => w.steady_resolve _) addresses

/-! ## 3. Values of all formula cells -/

/-- Where there is an order and each key of it has a worth, all formula cells have values. -/
theorem gives_calculate {order : List String} {value : String → Value}
    (ho : w.evaluationOrder = .ok order) (hv : ∀ key ∈ order, w.Worth key (value key)) :
    w.Gives w.calculate (.ok (order.map fun key => (key, value key))) := by
  have horder : w.Gives (ExceptT.mk (pure w.evaluationOrder)) (.ok order) := by
    rw [ho]
    exact gives_lift _
  exact horder.bind_ok (Gives.mapM fun key hkey =>
    (hv key hkey).gives_resolve.bind_ok (gives_pure (key, value key)))

/-- Without an order, no formula cell has a value. -/
theorem gives_calculate_error {fault : Fault} (h : w.evaluationOrder = .error fault) :
    w.Gives w.calculate (.error fault) := by
  have horder : w.Gives (ExceptT.mk (pure w.evaluationOrder)) (.error fault) := by
    rw [h]
    exact gives_lift _
  exact horder.bind_error

theorem steady_calculate (w : Workbook) : w.Steady w.calculate :=
  (steady_lift _).bind fun order =>
    Steady.mapM (fun key => (w.steady_resolve key).bind fun v => steady_pure (key, v)) order

/-! ## 4. Answers -/

theorem steady_earthFigures (w : Workbook) (m : FigureMap) (column : String) :
    w.Steady (w.earthFigures m column) :=
  (w.steady_cellValue _ _).bind fun _ => (w.steady_cellValue _ _).bind fun _ =>
    (w.steady_cellValue _ _).bind fun _ => (w.steady_cellValue _ _).bind fun _ => steady_pure _

theorem steady_marsFigures (w : Workbook) (m : FigureMap) (column : String) :
    w.Steady (w.marsFigures m column) :=
  (w.steady_cellValue _ _).bind fun _ => (w.steady_cellValue _ _).bind fun _ =>
    (w.steady_cellValue _ _).bind fun _ => steady_pure _

theorem steady_keyFigures (w : Workbook) (m : FigureMap) : w.Steady (w.keyFigures m) :=
  (w.steady_earthFigures m _).bind fun _ => (w.steady_earthFigures m _).bind fun _ =>
    (w.steady_marsFigures m _).bind fun _ => (w.steady_marsFigures m _).bind fun _ =>
      steady_pure _

end Workbook

/-- **Every question has one answer over all sound caches.** -/
theorem Evaluator.steady_answer (e : Evaluator) (q : Query) : e.workbook.Steady (e.answer q) := by
  cases q with
  | cell sheet ref =>
    exact (e.workbook.steady_cellValue sheet ref).bind fun _ => Workbook.steady_pure _
  | sum sheet first last =>
    exact ((e.workbook.steady_rangeValues sheet first last).bind fun _ =>
      Workbook.steady_lift _).bind fun _ => Workbook.steady_pure _
  | max sheet first last =>
    exact ((e.workbook.steady_rangeValues sheet first last).bind fun _ =>
      Workbook.steady_lift _).bind fun _ => Workbook.steady_pure _
  | min sheet first last =>
    exact ((e.workbook.steady_rangeValues sheet first last).bind fun _ =>
      Workbook.steady_lift _).bind fun _ => Workbook.steady_pure _
  | calculate => exact e.workbook.steady_calculate.bind fun _ => Workbook.steady_pure _
  | coverage key => exact (Workbook.steady_lift _).bind fun _ => Workbook.steady_pure _
  | keyFigures =>
    exact (e.workbook.steady_keyFigures e.figures).bind fun _ => Workbook.steady_pure _

end Appraisal
