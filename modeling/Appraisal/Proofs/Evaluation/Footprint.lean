import Appraisal.Proofs.Evaluation.History
import Appraisal.Proofs.Evaluation.Lookup
import Appraisal.Proofs.Evaluation.Turn

/-!
# What a look-up leaves behind

A walk passes over what is settled, and so relies on the cache: what a settled key reads has to be
settled too. Every evaluator keeps its cache so, also where a question meets a fault; and what a
look-up adds to the cache is then known exactly.

* `Workbook.Closed` — what a settled key reads is settled; `Closed.reaches`;
* `Workbook.Footprint` — a closed cache with nothing lost, and nothing new that the root does not
  lead to;
* `Walk.Traced`, `Traced.next`, `Traced.run` — what holds at the start of a walk, **after each turn
  and at its end**;
* `Workbook.Preserves`, `Evaluator.preserves_answer` — what settling a key preserves, every answer
  preserves;
* `Desk.closed_after` — **every cache at a desk is closed, whatever happened there**;
* `Desk.ask_footprint` — **what a look-up leaves in the cache**.
-/

namespace Appraisal

/-! ## 1. Closed caches -/

namespace Workbook

variable {w : Workbook} {cache before : Cache} {root key : String}

/-- What a settled key reads is settled. -/
def Closed (w : Workbook) (cache : Cache) : Prop :=
  ∀ key, cache.has key = true → ∀ read ∈ w.reads key, cache.has read = true

theorem closed_nil : w.Closed [] :=
  fun _ h => by cases h

/-- What a settled key leads to is settled. -/
theorem Closed.reaches (h : w.Closed cache) (hkey : cache.has key = true) {other : String}
    (hr : w.Reaches key other) : cache.has other = true := by
  induction hr with
  | refl => exact hkey
  | tail _ hread ih => exact h _ ih _ (mem_reads_iff.mpr hread)

/-- A key is settled after what it reads. -/
theorem Closed.put (h : w.Closed cache) (hreads : ∀ read ∈ w.reads key, cache.has read = true)
    (v : Value) : w.Closed (cache.put key v) := by
  intro other hother read hread
  refine Listing.has_put_of_has v ?_
  by_cases heq : other = key
  · exact hreads read (heq ▸ hread)
  · rw [Listing.has, Listing.get?_put_of_ne v heq] at hother
    exact h other hother read hread

/-- What the settling of a root makes of a cache: a closed one with nothing lost, and nothing new
    that the root does not lead to. -/
structure Footprint (w : Workbook) (root : String) (before after : Cache) : Prop where
  closed : w.Closed after
  kept : ∀ key, before.has key = true → after.has key = true
  within : ∀ key, after.has key = true → before.has key = true ∨ w.Reaches root key

theorem Footprint.refl (h : w.Closed cache) (root : String) : w.Footprint root cache cache :=
  ⟨h, fun _ hkey => hkey, fun _ hkey => Or.inl hkey⟩

theorem Footprint.put (h : w.Footprint root before cache)
    (hreads : ∀ read ∈ w.reads key, cache.has read = true) (hkey : w.Reaches root key)
    (v : Value) : w.Footprint root before (cache.put key v) where
  closed := h.closed.put hreads v
  kept other hother := Listing.has_put_of_has v (h.kept other hother)
  within other hother := by
    by_cases heq : other = key
    · exact Or.inr (heq ▸ hkey)
    · rw [Listing.has, Listing.get?_put_of_ne v heq] at hother
      exact h.within other hother

end Workbook

/-! ## 2. Along a walk -/

namespace Walk

variable {w : Workbook} {root key : String} {s : Walk w root} {before : Cache} {tasks : List Task}

/-- Where a walk stands that began over a cache: all that it has settled, is about to settle or has
    in progress is what the root leads to. -/
structure Traced (before : Cache) (s : Walk w root) : Prop where
  covered : Covered w s.cache s.path s.tasks
  footprint : w.Footprint root before s.cache
  path : ∀ key ∈ s.path, w.Reaches root key
  visits : ∀ key, .visit key ∈ s.tasks → w.Reaches root key

theorem traced_start (h : w.Closed before) (root : String) :
    Traced before (start w root before) where
  covered := covered_start w root before
  footprint := .refl h root
  path := nofun
  visits key hkey := by
    cases List.mem_singleton.mp hkey
    exact .refl

/-- The tasks after the first one are visits of the same kind. -/
theorem Traced.rest (h : Traced before s) {s' : Walk w root} {task : Task}
    (ht : s.tasks = task :: tasks) (ht' : s'.tasks = tasks) :
    ∀ key, .visit key ∈ s'.tasks → w.Reaches root key :=
  fun key hkey => h.visits key (ht ▸ List.mem_cons_of_mem task (ht' ▸ hkey))

theorem Traced.settle {path : List String} {v : Value} (h : Traced before s)
    (ht : s.tasks = .leave :: tasks) (hp : s.path = key :: path)
    (hreads : ∀ read ∈ w.reads key, s.cache.has read = true)
    (hgoes : Goes s none (s.settle key v)) : Traced before (s.settle key v) where
  covered := hgoes.covered
  footprint := h.footprint.put hreads (h.path key (hp ▸ List.mem_cons_self)) v
  path other hother := by
    rw [settle_path hp] at hother
    exact h.path other (hp ▸ List.mem_cons_of_mem key hother)
  visits := h.rest ht (skip_tasks ht)

theorem Traced.skip (h : Traced before s) (ht : s.tasks = .visit key :: tasks)
    (hgoes : Goes s none s.skip) : Traced before s.skip where
  covered := hgoes.covered
  footprint := h.footprint
  path := h.path
  visits := h.rest ht (skip_tasks ht)

theorem Traced.keep (h : Traced before s) (ht : s.tasks = .visit key :: tasks)
    (hf : w.formula? key = none) (hgoes : Goes s none (s.keep key)) :
    Traced before (s.keep key) where
  covered := hgoes.covered
  footprint := by
    have hreads : w.reads key = [] := by rw [Workbook.reads, hf]
    exact h.footprint.put (fun read hread => absurd (hreads ▸ hread) List.not_mem_nil)
      (h.visits key (ht ▸ List.mem_cons_self)) _
  path := h.path
  visits := h.rest ht (skip_tasks ht)

theorem Traced.enter (h : Traced before s) (ht : s.tasks = .visit key :: tasks)
    (hgoes : Goes s (some key) (s.enter key)) : Traced before (s.enter key) where
  covered := hgoes.covered
  footprint := h.footprint
  path := List.forall_mem_cons.mpr ⟨h.visits key (ht ▸ List.mem_cons_self), h.path⟩
  visits read hread := by
    have hkey : w.Reaches root key := h.visits key (ht ▸ List.mem_cons_self)
    rw [enter_tasks ht] at hread
    rcases List.mem_append.mp hread with hread | hread
    · obtain ⟨other, hawaited, heq⟩ := List.mem_map.mp hread
      cases heq
      exact hkey.tail (Workbook.mem_reads_iff.mp (List.mem_filter.mp hawaited).1)
    · rcases List.mem_cons.mp hread with hleave | hread
      · cases hleave
      · exact h.visits read (ht ▸ List.mem_cons_of_mem _ hread)

/-- **What one turn does**: the walk ends and leaves its cache as it is, or goes on. -/
theorem Traced.next (h : Traced before s) :
    s.run.2 = s.cache ∨ ∃ entered s', Goes s entered s' ∧ Traced before s' := by
  have hs := h.covered
  cases ht : s.tasks with
  | nil => exact Or.inl (by rw [run_done ht])
  | cons task tasks =>
    rw [ht] at hs
    cases task with
    | leave =>
      obtain ⟨key, path, hp, hreads, hbelow⟩ := hs.leave
      cases hv : w.keyValue s.cache.value key with
      | ok v =>
        have hgoes := goes_settle ht hp hv hbelow
        exact Or.inr ⟨none, _, hgoes, h.settle ht hp hreads hgoes⟩
      | error fault => exact Or.inl (by rw [run_fault ht hp hv])
    | visit key =>
      cases hc : s.cache.has key with
      | true =>
        have hgoes := goes_skip ht hc hs
        exact Or.inr ⟨none, _, hgoes, h.skip ht hgoes⟩
      | false =>
        by_cases hp : key ∈ s.path
        · exact Or.inl (by rw [run_circle ht hc hp])
        cases hf : w.formula? key with
        | none =>
          have hgoes := goes_keep ht hc hp hf hs
          exact Or.inr ⟨none, _, hgoes, h.keep ht hf hgoes⟩
        | some p =>
          have hgoes := goes_enter ht hc hp (by rw [hf]; rfl) hs
          exact Or.inr ⟨some key, _, hgoes, h.enter ht hgoes⟩

/-- **What is left at the end of a walk**, whether it settled the root or met a fault: by induction
    on what there is still to do. -/
theorem Traced.run (h : Traced before s) : w.Footprint root before s.run.2 := by
  induction hm : (s.fresh, s.tasks.length) using
    (Prod.lex Nat.lt_wfRel Nat.lt_wfRel).wf.induction generalizing s with
  | _ measure ih =>
    subst hm
    rcases h.next with hend | ⟨entered, s', hgoes, hs'⟩
    · rw [hend]
      exact h.footprint
    · rw [hgoes.run]
      exact ih _ hgoes.shorter hs' rfl

end Walk

namespace Workbook

variable {w : Workbook} {cache : Cache} {key : String}

/-- What settling a key makes of a closed cache. -/
theorem footprint_resolve (h : w.Closed cache) (key : String) :
    w.Footprint key cache ((w.resolve key).run cache).2 := by
  cases hc : cache.get? key with
  | some v =>
    rw [resolve_of_get? hc]
    exact .refl h key
  | none =>
    rw [resolve_of_missing hc]
    exact (Walk.traced_start h key).run

/-- A key that has been settled is in the cache. -/
theorem has_of_resolve_ok (hs : w.Sound cache) {v : Value}
    (h : ((w.resolve key).run cache).1 = .ok v) :
    ((w.resolve key).run cache).2.has key = true := by
  cases hc : cache.get? key with
  | some u =>
    rw [resolve_of_get? hc, Listing.has, hc]
    rfl
  | none =>
    rw [resolve_of_missing hc] at h ⊢
    rcases Walk.visits (Walk.start w key cache) [key] [] rfl hs with
      ⟨s', hsettles⟩ | ⟨-, -, -, fault, -, -, -, hfault, -⟩
    · rw [hsettles.run, Walk.run_done hsettles.tasks]
      exact hsettles.settled key List.mem_cons_self
    · rw [hfault] at h
      cases h

end Workbook

/-! ## 3. Along computations -/

namespace Workbook

section Preserves

variable {w : Workbook} {P : Cache → Prop} {α β : Type}

/-- The computation leaves behind a cache with the property, if it begins over one. -/
def Preserves (P : Cache → Prop) (m : Evaluation α) : Prop :=
  ∀ cache, P cache → P (m.run cache).2

theorem preserves_pure (a : α) : Preserves P (pure a) :=
  fun _ h => h

theorem preserves_lift (x : Except Fault α) : Preserves P (ExceptT.mk (pure x)) :=
  fun _ h => h

theorem Preserves.bind {m : Evaluation α} {f : α → Evaluation β} (hm : Preserves P m)
    (hf : ∀ a, Preserves P (f a)) : Preserves P (m >>= f) := by
  intro cache h
  cases hout : (m.run cache).1 with
  | ok a =>
    rw [run_bind_ok hout]
    exact hf a _ (hm cache h)
  | error fault =>
    rw [run_bind_error hout]
    exact hm cache h

theorem Preserves.mapM {f : α → Evaluation β} (hf : ∀ a, Preserves P (f a)) (l : List α) :
    Preserves P (l.mapM f) := by
  induction l with
  | nil =>
    rw [List.mapM_nil]
    exact preserves_pure []
  | cons a l ih =>
    rw [List.mapM_cons]
    exact (hf a).bind fun b => ih.bind fun bs => preserves_pure (b :: bs)

theorem preserves_cellValue (h : ∀ key, Preserves P (w.resolve key)) (sheet ref : String) :
    Preserves P (w.cellValue sheet ref) := by
  rw [cellValue_eq]
  cases refKey? sheet ref with
  | none => exact preserves_pure _
  | some key => exact h key

theorem preserves_rangeValues (h : ∀ key, Preserves P (w.resolve key))
    (sheet first last : String) : Preserves P (w.rangeValues sheet first last) := by
  rw [rangeValues_eq]
  exact Preserves.mapM h _

theorem preserves_calculate (h : ∀ key, Preserves P (w.resolve key)) :
    Preserves P w.calculate :=
  (preserves_lift _).bind fun order =>
    Preserves.mapM (fun key => (h key).bind fun v => preserves_pure (key, v)) order

theorem preserves_keyFigures (h : ∀ key, Preserves P (w.resolve key)) (m : FigureMap) :
    Preserves P (w.keyFigures m) := by
  have hcell := preserves_cellValue h
  have hearth : ∀ column, Preserves P (w.earthFigures m column) := fun column =>
    (hcell _ _).bind fun _ => (hcell _ _).bind fun _ => (hcell _ _).bind fun _ =>
      (hcell _ _).bind fun _ => preserves_pure _
  have hmars : ∀ column, Preserves P (w.marsFigures m column) := fun column =>
    (hcell _ _).bind fun _ => (hcell _ _).bind fun _ => (hcell _ _).bind fun _ =>
      preserves_pure _
  exact (hearth _).bind fun _ => (hearth _).bind fun _ => (hmars _).bind fun _ =>
    (hmars _).bind fun _ => preserves_pure _

end Preserves

end Workbook

/-- **What settling a key preserves, every answer preserves**, whether it is a value or a fault. -/
theorem Evaluator.preserves_answer {e : Evaluator} {P : Cache → Prop}
    (h : ∀ key, Workbook.Preserves P (e.workbook.resolve key)) (q : Query) :
    Workbook.Preserves P (e.answer q) := by
  have hrange := Workbook.preserves_rangeValues h
  cases q with
  | cell sheet ref =>
    exact (Workbook.preserves_cellValue h sheet ref).bind fun _ => Workbook.preserves_pure _
  | sum sheet first last =>
    exact ((hrange sheet first last).bind fun _ => Workbook.preserves_lift _).bind fun _ =>
      Workbook.preserves_pure _
  | max sheet first last =>
    exact ((hrange sheet first last).bind fun _ => Workbook.preserves_lift _).bind fun _ =>
      Workbook.preserves_pure _
  | min sheet first last =>
    exact ((hrange sheet first last).bind fun _ => Workbook.preserves_lift _).bind fun _ =>
      Workbook.preserves_pure _
  | calculate => exact (Workbook.preserves_calculate h).bind fun _ => Workbook.preserves_pure _
  | coverage key => exact (Workbook.preserves_lift _).bind fun _ => Workbook.preserves_pure _
  | keyFigures =>
    exact (Workbook.preserves_keyFigures h e.figures).bind fun _ => Workbook.preserves_pure _

/-! ## 4. At a desk -/

namespace Desk

variable {w : Workbook} {d : Desk} {P : Cache → Prop}

/-- Every cache at the desk has the property. -/
def Holds (P : Cache → Prop) (d : Desk) : Prop :=
  ∀ cache ∈ d.caches, P cache

theorem Holds.present (h : Holds P d) (hnil : P []) : P d.cache := by
  unfold cache
  cases hc : d.caches[d.session.cache]? with
  | none => exact hnil
  | some cache => exact h cache (List.mem_of_getElem? hc)

theorem Holds.write (h : Holds P d) {cache : Cache} (hc : P cache) (number : Nat) :
    Holds P { d with caches := d.caches.set number cache } := by
  intro other ho
  rcases List.mem_or_eq_of_mem_set ho with ho | rfl
  · exact h other ho
  · exact hc

theorem Holds.append (h : Holds P d) (hnil : P []) : ∀ cache ∈ d.caches ++ [[]], P cache := by
  intro cache hc
  rcases List.mem_append.mp hc with hc | hc
  · exact h cache hc
  · rw [List.mem_singleton.mp hc]
    exact hnil

theorem Holds.join (h : Holds P d) (hnil : P []) (e : Evaluator) (share : Bool) :
    Holds P (d.join e share) := by
  cases share with
  | true => exact h
  | false => exact h.append hnil

theorem Holds.use (h : Holds P d) (index : Nat) : Holds P (d.use index) := by
  unfold Desk.use
  split
  · exact h
  · exact h

/-- A property of an empty cache that settling a key preserves holds after every act. -/
theorem Holds.perform (h : Holds P d) (ht : Trusted w d) (hnil : P [])
    (hresolve : ∀ key, Workbook.Preserves P (w.resolve key)) (act : Act) :
    Holds P (d.perform act) := by
  cases act with
  | ask q =>
    have hanswer := Evaluator.preserves_answer (e := d.session.evaluator) (P := P)
      (by rw [ht.workbook_eq]; exact hresolve) q
    exact h.write (hanswer _ (h.present hnil)) _
  | renewCache => exact h.append hnil
  | forget number => exact h.write hnil number
  | openSession => exact h.join hnil _ false
  | join figures share => exact h.join hnil _ share
  | adopt figures number => exact h
  | use index => exact h.use index

/-- … and after every series of acts. -/
theorem Holds.after (h : Holds P d) (ht : Trusted w d) (hnil : P [])
    (hresolve : ∀ key, Workbook.Preserves P (w.resolve key)) (acts : List Act) :
    Holds P (d.after acts) := by
  induction acts generalizing d with
  | nil => exact h
  | cons act acts ih => exact ih (h.perform ht hnil hresolve act) (ht.perform act)

/-- **Every cache at a desk is closed**, whatever was asked, met a fault or was forgotten. -/
theorem closed_after (e : Evaluator) (acts : List Act) :
    Holds e.workbook.Closed ((start e).after acts) := by
  have hstart : Holds e.workbook.Closed (start e) := fun cache hc => by
    rw [List.mem_singleton.mp hc]
    exact Workbook.closed_nil
  exact hstart.after (trusted_start e) Workbook.closed_nil
    (fun key cache h => (Workbook.footprint_resolve h key).closed) acts

end Desk

namespace Workbook

variable {w : Workbook} {cache : Cache} {key : String}

/-- A key that was settled keeps its value. -/
theorem Footprint.get? {after : Cache} (h : w.Footprint key cache after) (hs : w.Sound cache)
    (hs' : w.Sound after) {k : String} {v : Value} (hk : cache.get? k = some v) :
    after.get? k = some v := by
  have hhas : cache.has k = true := by rw [Listing.has, hk]; rfl
  obtain ⟨u, hu⟩ := Option.isSome_iff_exists.mp (h.kept k hhas)
  rw [hu, (hs' k u hu).unique (hs k v hk)]

/-- A new key of a sound cache leads to no circle. -/
theorem Sound.acyclic (hs : w.Sound cache) (hk : cache.has key = true) : w.Acyclic key := by
  intro k hreach
  obtain ⟨u, hu⟩ := (hs.value hk).reaches hreach
  exact hu.not_onCircle

end Workbook

/-- To look up a cell at a trusted desk is to settle its key. -/
theorem Desk.Trusted.answered_cell {w : Workbook} {d : Desk} (h : Trusted w d)
    {sheet ref key : String} (hkey : refKey? sheet ref = some key) :
    (d.session.evaluator.answer (.cell sheet ref)).run d.cache =
      (((w.resolve key).run d.cache).1.map .value, ((w.resolve key).run d.cache).2) := by
  rw [← h.workbook_eq]
  exact d.session.evaluator.run_answer_cell hkey d.cache

/-- What is said to a question is the evaluator's answer. -/
theorem Desk.ask_fst (d : Desk) (q : Query) :
    (d.ask q).1 = ((d.session.evaluator.answer q).run d.cache).1 :=
  rfl

/-- … and what the answer leaves is the present cache from then on. -/
theorem Desk.cache_ask {d : Desk} (h : d.session.cache < d.caches.length) (q : Query) :
    (d.ask q).2.cache = ((d.session.evaluator.answer q).run d.cache).2 := by
  show (d.caches.set d.session.cache _)[d.session.cache]?.getD [] = _
  rw [List.getElem?_set_self h]
  rfl

/-- **A look-up caches exactly what it reads**, whatever happened at the desk before. What was
    settled stays as it was. If there is a value, then what the key leads to is settled besides, and
    nothing else; if there is a fault, then only some of that, none of which leads to a circle. -/
theorem Desk.ask_footprint (e : Evaluator) (acts : List Act) {sheet ref key : String}
    (hkey : refKey? sheet ref = some key) :
    let d := (start e).after acts
    let answered := (d.session.evaluator.answer (.cell sheet ref)).run d.cache
    (d.ask (.cell sheet ref)).1 = answered.1 ∧
      (d.session.cache < d.caches.length → (d.ask (.cell sheet ref)).2.cache = answered.2) ∧
      (∀ k v, d.cache.get? k = some v → answered.2.get? k = some v) ∧
      (∀ a, answered.1 = .ok a → ∀ k, answered.2.has k = true ↔
        d.cache.has k = true ∨ e.workbook.Reaches key k) ∧
      ∀ fault, answered.1 = .error fault → ∀ k, answered.2.has k = true →
        d.cache.has k = false → e.workbook.Reaches key k ∧ e.workbook.Acyclic k := by
  intro d answered
  have ht : Trusted e.workbook d := (trusted_start e).after acts
  have hclosed : Holds e.workbook.Closed d := closed_after e acts
  -- from here on it does not matter what was done at the desk
  clear_value d
  have hs : e.workbook.Sound d.cache := ht.sound_cache
  have hs' : e.workbook.Sound answered.2 := ht.answered (.cell sheet ref)
  have hanswered := ht.answered_cell hkey
  have hcache : answered.2 = ((e.workbook.resolve key).run d.cache).2 := congrArg Prod.snd hanswered
  have hfootprint : e.workbook.Footprint key d.cache answered.2 := by
    rw [hcache]
    exact Workbook.footprint_resolve (hclosed.present Workbook.closed_nil) key
  refine ⟨d.ask_fst _, fun hin => cache_ask hin _, fun k v => hfootprint.get? hs hs',
    fun a hok k => ⟨hfootprint.within k, fun hk => ?_⟩, fun fault _ k hk hnew => ?_⟩
  · rcases hk with hk | hk
    · exact hfootprint.kept k hk
    · obtain ⟨v, hv, -⟩ := exists_of_map_ok ((congrArg Prod.fst hanswered).symm.trans hok)
      have hsettled : answered.2.has key = true := by
        rw [hcache]
        exact Workbook.has_of_resolve_ok hs hv
      exact hfootprint.closed.reaches hsettled hk
  · rcases hfootprint.within k hk with hold | hreach
    · rw [hnew] at hold
      cases hold
    · exact ⟨hreach, hs'.acyclic hk⟩

/-- After another look-up and a sum, a cell is looked up that adds a number to itself. -/
theorem Desk.ask_footprint_ladder :
    let d := (start ⟨Workbook.ladder, {}⟩).after
      [.ask (.cell "S" "A1"), .forget 0, .ask (.sum "S" "A1" "A1"), .openSession]
    let answered := (d.session.evaluator.answer (.cell "S" "$B$1")).run d.cache
    refKey? "S" "$B$1" = some "S!B1" ∧ ∃ v, answered.1 = .ok (.value v) ∧
      ∀ k, answered.2.has k = true ↔ d.cache.has k = true ∨ Workbook.ladder.Reaches "S!B1" k := by
  intro d answered
  have hkey : refKey? "S" "$B$1" = some "S!B1" := by decide +kernel
  have hacyclic : Workbook.ladder.Acyclic "S!B1" := fun k _ => Workbook.ladder_not_onCircle k
  obtain ⟨v, hv⟩ := Workbook.ladder_fitsFloat.exists_worth hacyclic
  have ht : Trusted Workbook.ladder d := (trusted_start ⟨Workbook.ladder, {}⟩).after _
  have hok : answered.1 = .ok (.value v) := by
    show ((d.session.evaluator.answer (.cell "S" "$B$1")).run d.cache).1 = _
    rw [ht.answered_cell hkey, (hv.gives_resolve d.cache ht.sound_cache).1]
    rfl
  obtain ⟨-, -, -, hvalue, -⟩ := ask_footprint ⟨Workbook.ladder, {}⟩
    [.ask (.cell "S" "A1"), .forget 0, .ask (.sum "S" "A1" "A1"), .openSession] hkey
  exact ⟨hkey, v, hok, hvalue _ hok⟩

end Appraisal
