import Appraisal.Evaluation.Desk
import Appraisal.Proofs.Evaluation.Steady

/-!
# Answers do not depend on what was asked before

Evaluators of one workbook answer each question as if it were the first one. Whatever was asked at
the desk, and whatever was forgotten, a cache holds worths and nothing else; and over any two such
caches a computation has the same outcome, be it a value or a fault.

* `Desk.Act`, `Desk.after` — what can happen at a desk, and the desk after a series of it;
* `Desk.Trusted` — every cache sound and every evaluator of one workbook; `Trusted.perform`,
  `Trusted.after`;
* `Desk.ask_after` — **every question is answered as on a new desk**.
-/

namespace Appraisal

/-! ## 1. What can happen at a desk -/

namespace Desk

variable {w : Workbook} {d : Desk}

/-- What can happen at a desk of evaluators of one workbook, short of writing values into a
    cache. -/
inductive Act where
  /-- A question to the evaluator whose turn it is. -/
  | ask (q : Query)
  /-- A new cache for the evaluator whose turn it is. -/
  | renewCache
  /-- A cache emptied, whether anyone works over it or not. -/
  | forget (number : Nat)
  /-- One more evaluator like the present one, over a cache of its own. -/
  | openSession
  /-- One more evaluator of the present workbook, over the present cache or over one of its own;
      its headline figures may stand elsewhere. -/
  | join (figures : FigureMap) (share : Bool)
  /-- The same over any cache, also one that the others have given up. -/
  | adopt (figures : FigureMap) (number : Nat)
  /-- The turn given to another evaluator. -/
  | use (index : Nat)

/-- The desk with a cache emptied. -/
def forget (d : Desk) (number : Nat) : Desk :=
  { d with caches := d.caches.set number [] }

theorem emptyCache_eq (d : Desk) : d.emptyCache = d.forget d.session.cache := rfl

/-- The desk with one more evaluator of the present workbook, whose turn it then is, over any
    cache. -/
def adopt (d : Desk) (figures : FigureMap) (number : Nat) : Desk where
  caches := d.caches
  sessions := d.sessions ++ [⟨⟨d.session.evaluator.workbook, figures⟩, number⟩]
  current := ⟨d.sessions.length, by simp⟩

theorem join_shared_eq (d : Desk) (figures : FigureMap) :
    d.join ⟨d.session.evaluator.workbook, figures⟩ true = d.adopt figures d.session.cache := rfl

/-- The desk after an act, whether a question was answered or met a fault. -/
def perform (d : Desk) : Act → Desk
  | .ask q => (d.ask q).2
  | .renewCache => d.renewCache
  | .forget number => d.forget number
  | .openSession => d.openSession
  | .join figures share => d.join ⟨d.session.evaluator.workbook, figures⟩ share
  | .adopt figures number => d.adopt figures number
  | .use index => d.use index

/-- The desk after a series of acts. -/
def after (d : Desk) (acts : List Act) : Desk :=
  acts.foldl perform d

/-- A desk where each cache holds worths and each evaluator has the same workbook. -/
structure Trusted (w : Workbook) (d : Desk) : Prop where
  sound : ∀ cache ∈ d.caches, w.Sound cache
  same : ∀ s ∈ d.sessions, s.evaluator.workbook = w

/-! ## 2. A desk stays trusted -/

theorem trusted_start (e : Evaluator) : Trusted e.workbook (start e) where
  sound cache h := by
    rw [List.mem_singleton.mp h]
    exact Workbook.sound_nil
  same s h := by rw [List.mem_singleton.mp h]

theorem Trusted.workbook_eq (h : Trusted w d) : d.session.evaluator.workbook = w :=
  h.same _ (List.getElem_mem _)

theorem Trusted.sound_cache (h : Trusted w d) : w.Sound d.cache := by
  unfold cache
  cases hc : d.caches[d.session.cache]? with
  | none => exact Workbook.sound_nil
  | some cache => exact h.sound cache (List.mem_of_getElem? hc)

theorem Trusted.write {cache : Cache} (h : Trusted w d) (hc : w.Sound cache) (number : Nat) :
    Trusted w { d with caches := d.caches.set number cache } where
  sound other ho := by
    rcases List.mem_or_eq_of_mem_set ho with ho | rfl
    · exact h.sound other ho
    · exact hc
  same := h.same

theorem Trusted.answered (h : Trusted w d) (q : Query) :
    w.Sound ((d.session.evaluator.answer q).run d.cache).2 := by
  obtain ⟨outcome, hm⟩ := d.session.evaluator.steady_answer q
  rw [h.workbook_eq] at hm
  exact (hm d.cache h.sound_cache).2

/-- A new cache is empty, and an empty cache is sound. -/
theorem Trusted.sound_opened (h : Trusted w d) : ∀ cache ∈ d.caches ++ [[]], w.Sound cache :=
  List.forall_mem_append.mpr ⟨h.sound, List.forall_mem_singleton.mpr Workbook.sound_nil⟩

/-- A new session with an evaluator of the workbook. -/
theorem Trusted.same_joined (h : Trusted w d) {s : Session} (hs : s.evaluator.workbook = w) :
    ∀ s' ∈ d.sessions ++ [s], s'.evaluator.workbook = w :=
  List.forall_mem_append.mpr ⟨h.same, List.forall_mem_singleton.mpr hs⟩

theorem Trusted.renewCache (h : Trusted w d) : Trusted w d.renewCache where
  sound := h.sound_opened
  same s hs := by
    rcases List.mem_or_eq_of_mem_set hs with hs | rfl
    · exact h.same s hs
    · exact h.workbook_eq

theorem Trusted.join (h : Trusted w d) {e : Evaluator} (he : e.workbook = w) (share : Bool) :
    Trusted w (d.join e share) where
  sound := by
    cases share with
    | true => exact h.sound
    | false => exact h.sound_opened
  same := h.same_joined he

theorem Trusted.adopt (h : Trusted w d) (figures : FigureMap) (number : Nat) :
    Trusted w (d.adopt figures number) where
  sound := h.sound
  same := h.same_joined h.workbook_eq

theorem Trusted.use (h : Trusted w d) (index : Nat) : Trusted w (d.use index) := by
  unfold Desk.use
  split
  · exact ⟨h.sound, h.same⟩
  · exact h

/-- **Every act leaves a trusted desk trusted.** -/
theorem Trusted.perform (h : Trusted w d) (act : Act) : Trusted w (d.perform act) := by
  cases act with
  | ask q => exact h.write (h.answered q) _
  | renewCache => exact h.renewCache
  | forget number => exact h.write Workbook.sound_nil number
  | openSession => exact h.join h.workbook_eq false
  | join figures share =>
    exact h.join (e := ⟨d.session.evaluator.workbook, figures⟩) h.workbook_eq share
  | adopt figures number => exact h.adopt figures number
  | use index => exact h.use index

theorem Trusted.after (h : Trusted w d) (acts : List Act) : Trusted w (d.after acts) := by
  induction acts generalizing d with
  | nil => exact h
  | cons act acts ih => exact ih (h.perform act)

/-! ## 3. Answers -/

/-- On two trusted desks, evaluators with the same headline figures answer alike. -/
theorem Trusted.ask_eq {d' : Desk} (h : Trusted w d) (h' : Trusted w d')
    (he : d.session.evaluator = d'.session.evaluator) (q : Query) :
    (d.ask q).1 = (d'.ask q).1 := by
  obtain ⟨outcome, hm⟩ := d.session.evaluator.steady_answer q
  rw [h.workbook_eq] at hm
  show ((d.session.evaluator.answer q).run d.cache).1 =
    ((d'.session.evaluator.answer q).run d'.cache).1
  rw [← he, (hm d.cache h.sound_cache).1, (hm d'.cache h'.sound_cache).1]

/-- **After any series of acts, every question is answered as on a new desk.** The evaluators that
    have joined are of the first one's workbook throughout. -/
theorem ask_after (e : Evaluator) (acts : List Act) (q : Query) :
    ((start e).after acts).session.evaluator.workbook = e.workbook ∧
      (((start e).after acts).ask q).1 =
        ((start ((start e).after acts).session.evaluator).ask q).1 := by
  have h : Trusted e.workbook ((start e).after acts) := (trusted_start e).after acts
  have hnew := trusted_start ((start e).after acts).session.evaluator
  rw [h.workbook_eq] at hnew
  exact ⟨h.workbook_eq, h.ask_eq hnew rfl q⟩

end Desk

end Appraisal
