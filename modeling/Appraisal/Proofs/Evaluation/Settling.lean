import Appraisal.Evaluation.Walk
import Appraisal.Proofs.Evaluation.Worth
import Appraisal.Proofs.Listing
import Mathlib.Data.List.Chain

/-!
# Settling is recursion

A walk over tasks settles a key exactly if the recursion gives it a worth, and with that worth;
else it meets the fault that a depth-first visit of the key meets. What the cache holds beforehand
makes no difference, as long as it holds worths.

* `Workbook.Sound` — a cache in which each key has its worth;
* `Workbook.Stops` — the fault that a visit of a key meets below a path of keys in progress;
  `Stops.unique`, `Worth.not_stops` — **a visit has at most one outcome**;
* `Walk.visits` — the tasks that visit keys are worked off before anything after them is touched;
* `Workbook.resolve_cases` — **the two outcomes of settling a key**.
-/

namespace Appraisal

open Appraisal.Formula

/-! ## 1. Sound caches -/

namespace Workbook

variable {w : Workbook} {cache : Cache} {key : String}

/-- A cache in which each settled key has its worth. -/
def Sound (w : Workbook) (cache : Cache) : Prop :=
  ∀ key v, cache.get? key = some v → w.Worth key v

theorem sound_nil : w.Sound [] :=
  fun _ _ h => by cases h

theorem Sound.put {v : Value} (h : w.Sound cache) (hv : w.Worth key v) :
    w.Sound (cache.put key v) := by
  intro other u hu
  by_cases ho : other = key
  · subst ho
    rw [Listing.get?_put_self] at hu
    cases hu
    exact hv
  · rw [Listing.get?_put_of_ne v ho] at hu
    exact h other u hu

/-- The value that a sound cache gives for a settled key is its worth. -/
theorem Sound.value (h : w.Sound cache) (hk : cache.has key = true) :
    w.Worth key (Cache.value cache key) := by
  obtain ⟨v, hv⟩ := Option.isSome_iff_exists.mp hk
  rw [Cache.value, hv]
  exact h key v hv

end Workbook

/-! ## 2. Where a visit stops -/

namespace Workbook

variable {w : Workbook}

/-- The fault that a depth-first visit of a key meets below a path of keys in progress, deepest
    first. -/
inductive Stops (w : Workbook) : List String → String → Fault → Prop where
  | circle {path : List String} {key : String} (hp : key ∈ path) :
      Stops w path key (.circular (closedPath path key))
  | own {path : List String} {key : String} {fault : Fault} (value : String → Value)
      (hp : key ∉ path) (hr : ∀ read ∈ w.reads key, w.Worth read (value read))
      (hv : w.keyValue value key = .error fault) : Stops w path key fault
  | deeper {path : List String} {key read : String} {fault : Fault} {before after : List String}
      (hp : key ∉ path) (hs : w.reads key = before ++ read :: after)
      (hb : ∀ r ∈ before, ∃ v, w.Worth r v) (h : Stops w (key :: path) read fault) :
      Stops w path key fault

/-- A path of keys in progress, deepest first: each is read by the one after it. -/
abbrev Descends (w : Workbook) (path : List String) : Prop :=
  path.IsChain fun lower upper => w.Reads upper lower

/-- Each key in progress leads to the deepest one. -/
theorem Descends.leads {key upper : String} {path : List String} (h : w.Descends (key :: path))
    (hu : upper ∈ path) : Relation.TransGen w.Reads upper key := by
  induction path generalizing key with
  | nil => cases hu
  | cons next path ih =>
    obtain ⟨hread, hrest⟩ := List.isChain_cons_cons.mp h
    rcases List.mem_cons.mp hu with rfl | hu
    · exact .single hread
    · exact .tail (ih hrest hu) hread

theorem Descends.onCircle {key : String} {path : List String} (h : w.Descends (key :: path))
    (hk : key ∈ path) : w.OnCircle key :=
  h.leads hk

theorem Descends.cons {key read : String} {path : List String} (h : w.Descends (key :: path))
    (hr : read ∈ w.reads key) : w.Descends (read :: key :: path) :=
  List.isChain_cons_cons.mpr ⟨mem_reads_iff.mp hr, h⟩

/-- A visit of a key of some worth does not stop. -/
theorem Worth.not_stops {key : String} {v : Value} {path : List String} {fault : Fault}
    (h : w.Worth key v) (hd : w.Descends (key :: path)) : ¬ w.Stops path key fault := by
  induction h using Worth.byReads generalizing path with
  | step key v value hr hv ih =>
    intro hs
    cases hs with
    | circle hp => exact (Worth.of_keyValue value hr hv).not_onCircle (hd.onCircle hp)
    | own value' hp hr' hv' =>
      rw [keyValue_of_worths hr hr', hv'] at hv
      cases hv
    | deeper hp hreads hb hbelow =>
      have hmem : _ ∈ w.reads key := hreads ▸ List.mem_append_right _ List.mem_cons_self
      exact ih _ hmem (hd.cons hmem) hbelow

/-- Two places in one list: they hold the same, or one is before the other. -/
theorem eq_or_mem_of_split {a b : String} {before after before' after' : List String}
    (h : before ++ a :: after = before' ++ b :: after') : a = b ∨ a ∈ before' ∨ b ∈ before := by
  rcases List.append_eq_append_iff.mp h with ⟨more, rfl, hmore⟩ | ⟨more, rfl, hmore⟩
  · cases more with
    | nil => exact Or.inl (List.head_eq_of_cons_eq hmore)
    | cons first more =>
      cases hmore
      exact Or.inr (Or.inl (List.mem_append_right _ List.mem_cons_self))
  · cases more with
    | nil => exact Or.inl (List.head_eq_of_cons_eq hmore).symm
    | cons first more =>
      cases hmore
      exact Or.inr (Or.inr (List.mem_append_right _ List.mem_cons_self))

/-- **The fault that a visit meets is unique.** -/
theorem Stops.unique {key : String} {path : List String} {fault fault' : Fault}
    (h : w.Stops path key fault) (h' : w.Stops path key fault') (hd : w.Descends (key :: path)) :
    fault = fault' := by
  induction h generalizing fault' with
  | circle hp =>
    cases h' with
    | circle => rfl
    | own _ hp' => exact absurd hp hp'
    | deeper hp' => exact absurd hp hp'
  | @own path key fault value hp hr hv =>
    cases h' with
    | circle hp' => exact absurd hp' hp
    | own value' _ hr' hv' =>
      rw [keyValue_of_worths hr hr', hv'] at hv
      exact (Except.error.inj hv).symm
    | deeper _ hreads _ hbelow =>
      have hmem : _ ∈ w.reads key := hreads ▸ List.mem_append_right _ List.mem_cons_self
      exact absurd hbelow ((hr _ hmem).not_stops (hd.cons hmem))
  | @deeper path key read fault before after hp hreads hb hbelow ih =>
    have hmem : read ∈ w.reads key := hreads ▸ List.mem_append_right _ List.mem_cons_self
    cases h' with
    | circle hp' => exact absurd hp' hp
    | own value _ hr _ => exact absurd hbelow ((hr _ hmem).not_stops (hd.cons hmem))
    | @deeper _ _ read' _ before' after' _ hreads' hb' hbelow' =>
      have hmem' : read' ∈ w.reads key := hreads' ▸ List.mem_append_right _ List.mem_cons_self
      -- neither visit can have stopped at a key that the other has left with a worth
      rcases eq_or_mem_of_split (hreads.symm.trans hreads') with rfl | hin | hin'
      · exact ih hbelow' (hd.cons hmem)
      · obtain ⟨v, hv⟩ := hb' read hin
        exact absurd hbelow (hv.not_stops (hd.cons hmem))
      · obtain ⟨v, hv⟩ := hb read' hin'
        exact absurd hbelow' (hv.not_stops (hd.cons hmem'))

end Workbook

/-! ## 3. One task -/

namespace Walk

variable {w : Workbook} {root key : String} {s : Walk w root} {tasks : List Task} {task : Task}

theorem skip_tasks (ht : s.tasks = task :: tasks) : s.skip.tasks = tasks := by
  show s.tasks.tail = tasks
  rw [ht]
  rfl

theorem enter_tasks (ht : s.tasks = task :: tasks) :
    (s.enter key).tasks = (s.awaited key).map .visit ++ .leave :: tasks := by
  show (s.awaited key).map .visit ++ .leave :: s.tasks.tail = _
  rw [ht]
  rfl

theorem settle_path {path : List String} {v : Value} (hp : s.path = key :: path) :
    (s.settle key v).path = path := by
  show s.path.tail = path
  rw [hp]
  rfl

theorem run_done (ht : s.tasks = []) : s.run = (.ok (), s.cache) := by
  rw [run]
  split
  all_goals simp_all

theorem run_settled (ht : s.tasks = .visit key :: tasks) (hc : s.cache.has key = true) :
    s.run = s.skip.run := by
  rw [run]
  split
  all_goals simp_all

theorem run_circle (ht : s.tasks = .visit key :: tasks) (hc : s.cache.has key = false)
    (hp : key ∈ s.path) : s.run = (.error (.circular (closedPath s.path key)), s.cache) := by
  rw [run]
  split
  all_goals simp_all

theorem run_enter (ht : s.tasks = .visit key :: tasks) (hc : s.cache.has key = false)
    (hp : key ∉ s.path) (hf : (w.formula? key).isSome = true) : s.run = (s.enter key).run := by
  rw [run]
  split
  all_goals simp_all

theorem run_keep (ht : s.tasks = .visit key :: tasks) (hc : s.cache.has key = false)
    (hp : key ∉ s.path) (hf : w.formula? key = none) : s.run = (s.keep key).run := by
  rw [run]
  split
  all_goals simp_all

theorem run_settle {path : List String} {v : Value} (ht : s.tasks = .leave :: tasks)
    (hp : s.path = key :: path) (hv : w.keyValue s.cache.value key = .ok v) :
    s.run = (s.settle key v).run := by
  rw [run]
  split
  · simp_all
  · split
    · simp_all
    · split
      all_goals simp_all
  · simp_all

theorem run_fault {path : List String} {fault : Fault} (ht : s.tasks = .leave :: tasks)
    (hp : s.path = key :: path) (hv : w.keyValue s.cache.value key = .error fault) :
    s.run = (.error fault, s.cache) := by
  rw [run]
  split
  · simp_all
  · split
    · simp_all
    · split
      all_goals simp_all
  · simp_all

/-! ## 4. A series of visits -/

/-- One walk goes on as another in which the keys are settled and the tasks are next. -/
structure Settles (s s' : Walk w root) (keys : List String) (tasks : List Task) : Prop where
  run : s.run = s'.run
  tasks : s'.tasks = tasks
  path : s'.path = s.path
  sound : w.Sound s'.cache
  grows : ∀ key, s.cache.has key = true → s'.cache.has key = true
  settled : ∀ key ∈ keys, s'.cache.has key = true

/-- A walk ends with the fault that the visit of one of the keys meets, after visits of the keys
    before it that meet none. -/
def Fails (s : Walk w root) (keys : List String) : Prop :=
  ∃ before key after fault, keys = before ++ key :: after ∧ (∀ r ∈ before, ∃ v, w.Worth r v) ∧
    w.Stops s.path key fault ∧ s.run.1 = .error fault ∧ w.Sound s.run.2

/-- What has to be shown of a walk: visits that come next are worked off one by one. -/
def Visits (s : Walk w root) : Prop :=
  ∀ keys tasks, s.tasks = keys.map .visit ++ tasks → w.Sound s.cache →
    (∃ s', Settles s s' keys tasks) ∨ Fails s keys

/-- The more is settled, the fewer keys are left to enter. -/
theorem fresh_le_of_grows {s' : Walk w root} (hp : s'.path = s.path)
    (hg : ∀ key, s.cache.has key = true → s'.cache.has key = true) : s'.fresh ≤ s.fresh := by
  refine List.countP_mono_left fun other _ h => ?_
  rw [isFresh_iff, hp] at h
  rw [isFresh_iff]
  refine ⟨Bool.eq_false_iff.mpr fun hc => ?_, h.2⟩
  rw [hg other hc] at h
  cases h.1

theorem reads_settled {s' : Walk w root}
    (h : Settles (s.enter key) s' (s.awaited key) tasks) :
    ∀ read ∈ w.reads key, s'.cache.has read = true := by
  intro read hread
  cases hc : s.cache.has read with
  | true => exact h.grows read hc
  | false =>
    have hawaited : read ∈ s.awaited key :=
      List.mem_filter.mpr ⟨hread, by rw [hc]; rfl⟩
    exact h.settled read hawaited

/-- Visits below a key that fail make the visit of the key fail. -/
theorem fails_of_enter (ht : s.tasks = .visit key :: tasks) (hs : w.Sound s.cache)
    (hc : s.cache.has key = false) (hp : key ∉ s.path) (hf : (w.formula? key).isSome = true)
    (h : Fails (s.enter key) (s.awaited key)) : Fails s [key] := by
  obtain ⟨before, read, after, fault, hsplit, hworth, hstops, hrun, hsound⟩ := h
  rw [← run_enter ht hc hp hf] at hrun hsound
  refine ⟨[], key, [], fault, rfl, nofun, ?_, hrun, hsound⟩
  -- what the key reads, but for what was settled before: the first part has its worth all the same
  obtain ⟨first, rest, hreads, hfirst, hrest⟩ := List.filter_eq_append_iff.mp hsplit
  obtain ⟨more, last, hmore, hskip, -, -⟩ := List.filter_eq_cons_iff.mp hrest
  have hall : w.reads key = (first ++ more) ++ read :: last := by
    rw [hreads, hmore, List.append_assoc]
  refine .deeper hp hall ?_ hstops
  intro r hr
  cases hcr : s.cache.has r with
  | true => exact ⟨_, hs.value hcr⟩
  | false =>
    rcases List.mem_append.mp hr with hr | hr
    · exact hworth r (hfirst ▸ List.mem_filter.mpr ⟨hr, by rw [hcr]; rfl⟩)
    · exact absurd (by rw [hcr]; rfl) (hskip r hr)

/-- The visit of one key, given that walks with fewer keys to enter work off theirs. -/
theorem visit_one (hless : ∀ s' : Walk w root, s'.fresh < s.fresh → Visits s')
    (ht : s.tasks = .visit key :: tasks) (hs : w.Sound s.cache) :
    (∃ s', Settles s s' [key] tasks) ∨ Fails s [key] := by
  by_cases hc : s.cache.has key = true
  · refine Or.inl ⟨s.skip, run_settled ht hc, skip_tasks ht, rfl, hs, fun _ h => h, fun k hk => ?_⟩
    rw [List.mem_singleton.mp hk]
    exact hc
  rw [Bool.not_eq_true] at hc
  by_cases hp : key ∈ s.path
  · refine Or.inr ⟨[], key, [], _, rfl, nofun, .circle hp, ?_, ?_⟩
    all_goals rw [run_circle ht hc hp]
    exact hs
  cases hf : w.formula? key with
  | none =>
    refine Or.inl ⟨s.keep key, run_keep ht hc hp hf, skip_tasks ht, rfl,
      hs.put (.of_formula?_eq_none hf), fun _ h => Listing.has_put_of_has _ h, fun k hk => ?_⟩
    rw [List.mem_singleton.mp hk]
    exact Listing.has_put_self _ _ _
  | some p =>
    have hsome : (w.formula? key).isSome = true := by rw [hf]; rfl
    have hknown : key ∈ root :: w.allReads := s.known key (ht ▸ List.mem_cons_self)
    have hfresh : s.isFresh key = true := isFresh_iff.mpr ⟨hc, hp⟩
    rcases hless (s.enter key) (fresh_enter_lt hknown hfresh) _ _ (enter_tasks ht) hs with
      ⟨s', h⟩ | h
    · -- everything that the key reads is settled: its formula can be evaluated
      have hreads := reads_settled h
      have hpath : s'.path = key :: s.path := h.path
      have hworth : ∀ read ∈ w.reads key, w.Worth read (s'.cache.value read) :=
        fun read hread => h.sound.value (hreads read hread)
      have hgrows : ∀ k, s.cache.has k = true → s'.cache.has k = true := h.grows
      cases hv : w.keyValue s'.cache.value key with
      | ok v =>
        refine Or.inl ⟨s'.settle key v, ?_, skip_tasks h.tasks, settle_path hpath,
          h.sound.put (.of_keyValue _ hworth hv),
          fun k hk => Listing.has_put_of_has _ (hgrows k hk), fun k hk => ?_⟩
        · rw [run_enter ht hc hp hsome, h.run, run_settle h.tasks hpath hv]
        · rw [List.mem_singleton.mp hk]
          exact Listing.has_put_self _ _ _
      | error fault =>
        refine Or.inr ⟨[], key, [], fault, rfl, nofun, .own _ hp hworth hv, ?_, ?_⟩
        all_goals rw [run_enter ht hc hp hsome, h.run, run_fault h.tasks hpath hv]
        exact h.sound
    · exact Or.inr (fails_of_enter ht hs hc hp hsome h)

/-- **Every walk works off the visits that come next**: by induction on the number of keys that it
    can still enter, and for walks that can enter as many, along the visits. -/
theorem visits (s : Walk w root) : Visits s := by
  induction hn : s.fresh using Nat.strong_induction_on generalizing s with
  | _ n ih =>
    subst hn
    intro keys
    -- the walk changes along the visits, but the number of keys to enter does not grow
    suffices h : ∀ keys tasks (t : Walk w root), t.fresh ≤ s.fresh →
        t.tasks = keys.map .visit ++ tasks → w.Sound t.cache →
        (∃ s', Settles t s' keys tasks) ∨ Fails t keys from
      fun tasks => h keys tasks s (Nat.le_refl _)
    intro keys tasks
    induction keys with
    | nil =>
      intro t _ ht hs
      exact Or.inl ⟨t, rfl, ht, rfl, hs, fun _ h => h, nofun⟩
    | cons key keys ihk =>
      intro t hle ht hs
      have hless : ∀ s' : Walk w root, s'.fresh < t.fresh → Visits s' :=
        fun s' hlt => ih s'.fresh (Nat.lt_of_lt_of_le hlt hle) s' rfl
      rcases visit_one hless ht hs with ⟨t₁, h₁⟩ | ⟨before, k, after, fault, hsplit, h⟩
      · have hle₁ : t₁.fresh ≤ s.fresh :=
          Nat.le_trans (fresh_le_of_grows h₁.path h₁.grows) hle
        have hkey : t₁.cache.has key = true := h₁.settled key List.mem_cons_self
        rcases ihk t₁ hle₁ h₁.tasks h₁.sound with
          ⟨t₂, h₂⟩ | ⟨before, k, after, fault, hsplit, hb, hstops, hrun, hsound⟩
        · refine Or.inl ⟨t₂, h₁.run.trans h₂.run, h₂.tasks, h₂.path.trans h₁.path, h₂.sound,
            fun k hk => h₂.grows k (h₁.grows k hk), fun k hk => ?_⟩
          rcases List.mem_cons.mp hk with rfl | hk
          · exact h₂.grows k hkey
          · exact h₂.settled k hk
        · refine Or.inr ⟨key :: before, k, after, fault, by rw [hsplit]; rfl, fun r hr => ?_,
            h₁.path ▸ hstops, h₁.run ▸ hrun, h₁.run ▸ hsound⟩
          rcases List.mem_cons.mp hr with rfl | hr
          · exact ⟨_, h₁.sound.value hkey⟩
          · exact hb r hr
      · obtain ⟨hb, hstops, hrun, hsound⟩ := h
        obtain ⟨rfl, hk⟩ | ⟨-, hnone⟩ := List.singleton_eq_append_iff.mp hsplit
        · cases hk
          exact Or.inr ⟨[], key, keys, fault, rfl, nofun, hstops, hrun, hsound⟩
        · cases hnone

end Walk

/-! ## 5. The outcomes of settling -/

namespace Workbook

/-- A key that is in the cache is settled as it stands there. -/
theorem resolve_of_get? {w : Workbook} {key : String} {cache : Cache} {v : Value}
    (h : cache.get? key = some v) : (w.resolve key).run cache = (.ok v, cache) := by
  simp only [resolve, ExceptT.run_mk, h]

/-- A key that is not in the cache is settled by a walk, which leaves its value in the cache. -/
theorem resolve_of_missing {w : Workbook} {key : String} {cache : Cache}
    (h : cache.get? key = none) : (w.resolve key).run cache =
      ((Walk.start w key cache).run.1.map fun _ => (Walk.start w key cache).run.2.value key,
        (Walk.start w key cache).run.2) := by
  simp only [resolve, ExceptT.run_mk, h]

/-- **Settling a key over a sound cache** gives the worth of the key; or, where a visit of the key
    stops, the fault that it stops with. Either way the cache stays sound. -/
theorem resolve_cases (w : Workbook) (key : String) {cache : Cache} (hs : w.Sound cache) :
    w.Sound ((w.resolve key).run cache).2 ∧
      ((∃ v, w.Worth key v ∧ ((w.resolve key).run cache).1 = .ok v) ∨
        ∃ fault, w.Stops [] key fault ∧ ((w.resolve key).run cache).1 = .error fault) := by
  cases hc : cache.get? key with
  | some v =>
    rw [resolve_of_get? hc]
    exact ⟨hs, Or.inl ⟨v, hs key v hc, rfl⟩⟩
  | none =>
    rw [resolve_of_missing hc]
    rcases Walk.visits (Walk.start w key cache) [key] [] rfl hs with
      ⟨s', h⟩ | ⟨before, k, after, fault, hsplit, -, hstops, hfault, hsound⟩
    · rw [h.run, Walk.run_done h.tasks]
      have hkey : s'.cache.has key = true := h.settled key List.mem_cons_self
      exact ⟨h.sound, Or.inl ⟨_, h.sound.value hkey, rfl⟩⟩
    · obtain ⟨rfl, hk⟩ | ⟨-, hnone⟩ := List.singleton_eq_append_iff.mp hsplit
      · cases hk
        rw [hfault]
        exact ⟨hsound, Or.inr ⟨fault, hstops, rfl⟩⟩
      · cases hnone

end Workbook

end Appraisal
