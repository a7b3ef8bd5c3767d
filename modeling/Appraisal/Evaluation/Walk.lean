import Appraisal.DepthFirst
import Appraisal.Evaluation.Workbook

/-!
# Settling a key

The value of a key is settled together with the keys it is computed from, deepest first. What is
settled is kept in a cache; it stays there also when the walk meets a circle or a fault further on.

* `Cache` — the settled keys with their values;
* `Walk` — where the settling of a key stands; `Walk.run` — the walk to its end;
* `Evaluation`, `resolve` — computations that read and extend a cache, and the value of a key.
-/

namespace Appraisal

/-- The keys settled so far, with their values. -/
abbrev Cache := Listing Value

/-- The settled value of a key; nothing if it is not settled. -/
def Cache.value (c : Cache) (key : String) : Value :=
  (c.get? key).getD .blank

/-- Where the settling of a root key stands. -/
structure Walk (w : Workbook) (root : String) where
  /-- What is settled. -/
  cache : Cache
  /-- The keys in progress, deepest first. -/
  path : List String
  /-- The tasks to come. -/
  tasks : List Task
  /-- Only the root and what formulas read is ever visited. -/
  known : ∀ key, .visit key ∈ tasks → key ∈ root :: w.allReads

namespace Walk

variable {w : Workbook} {root : String}

/-! ## 1. Moves -/

/-- The walk of a root before its first task. -/
def start (w : Workbook) (root : String) (cache : Cache) : Walk w root where
  cache := cache
  path := []
  tasks := [.visit root]
  known := by simp

/-- The walk with its first task done and nothing changed. -/
def skip (s : Walk w root) : Walk w root where
  cache := s.cache
  path := s.path
  tasks := s.tasks.tail
  known := fun key h => s.known key (List.mem_of_mem_tail h)

/-- The walk with a key settled whose value is stored. -/
def keep (s : Walk w root) (key : String) : Walk w root :=
  { s.skip with cache := s.cache.put key (w.stored key) }

/-- The walk with the deepest key of its path settled. -/
def settle (s : Walk w root) (key : String) (v : Value) : Walk w root :=
  { s.skip with cache := s.cache.put key v, path := s.path.tail }

/-- The keys that are visited before a key is settled: what it reads and is not settled yet. -/
def awaited (s : Walk w root) (key : String) : List String :=
  (w.reads key).filter fun read => !s.cache.has read

/-- The walk with a key entered. -/
def enter (s : Walk w root) (key : String) : Walk w root where
  cache := s.cache
  path := key :: s.path
  tasks := (s.awaited key).map .visit ++ .leave :: s.tasks.tail
  known := by
    intro read h
    simp only [List.mem_append, List.mem_map, Task.visit.injEq, exists_eq_right, List.mem_cons,
      reduceCtorEq, false_or] at h
    rcases h with h | h
    · exact List.mem_cons_of_mem _ (Workbook.mem_allReads_of_reads (List.mem_filter.1 h).1)
    · exact s.known read (List.mem_of_mem_tail h)

/-! ## 2. Why a walk ends -/

/-- Whether a key is neither settled nor in progress. -/
def isFresh (s : Walk w root) (key : String) : Bool :=
  !s.cache.has key && decide (key ∉ s.path)

theorem isFresh_iff {s : Walk w root} {key : String} :
    s.isFresh key = true ↔ s.cache.has key = false ∧ key ∉ s.path := by
  simp [isFresh]

/-- The number of keys that the walk can still enter. -/
def fresh (s : Walk w root) : Nat :=
  (root :: w.allReads).countP s.isFresh

theorem isFresh_of_put {s : Walk w root} {key other : String} {v : Value}
    (h : (Listing.has (s.cache.put key v) other) = false) : s.cache.has other = false := by
  by_cases ho : other = key
  · subst ho
    simp [Listing.has] at h
  · simpa [Listing.has, Listing.get?_put_of_ne v ho] using h

theorem fresh_keep_le (s : Walk w root) (key : String) : (s.keep key).fresh ≤ s.fresh := by
  refine List.countP_mono_left fun other _ h => ?_
  rw [isFresh_iff] at h ⊢
  exact ⟨isFresh_of_put h.1, h.2⟩

theorem fresh_settle_le {s : Walk w root} {key : String} {path : List String} {v : Value}
    (hp : s.path = key :: path) : (s.settle key v).fresh ≤ s.fresh := by
  refine List.countP_mono_left fun other _ h => ?_
  rw [isFresh_iff] at h ⊢
  simp only [settle, hp, List.tail_cons] at h
  refine ⟨isFresh_of_put h.1, fun hm => ?_⟩
  rw [hp] at hm
  rcases List.mem_cons.1 hm with rfl | hm
  · simp [Listing.has] at h
  · exact h.2 hm

theorem fresh_enter_lt {s : Walk w root} {key : String} (hk : key ∈ root :: w.allReads)
    (hs : s.isFresh key = true) : (s.enter key).fresh < s.fresh := by
  refine countP_lt_countP hk hs (by simp [isFresh, enter]) fun other h => ?_
  rw [isFresh_iff] at h ⊢
  exact ⟨h.1, fun hm => h.2 (List.mem_cons_of_mem _ hm)⟩

/-! ## 3. The walk -/

/-- The walk to its end: whether the root could be settled, and what is settled then. -/
def run (s : Walk w root) : Except Fault Unit × Cache :=
  match _ht : s.tasks with
  | [] => (.ok (), s.cache)
  | .leave :: _ =>
    match _hp : s.path with
    | [] => run s.skip
    | key :: _ =>
      match w.keyValue s.cache.value key with
      | .ok v => run (s.settle key v)
      | .error fault => (.error fault, s.cache)
  | .visit key :: _ =>
    if _hc : s.cache.has key then run s.skip
    else if _hp : key ∈ s.path then (.error (.circular (closedPath s.path key)), s.cache)
    else if (w.formula? key).isSome then run (s.enter key)
    else run (s.keep key)
termination_by (s.fresh, s.tasks.length)
decreasing_by
  · exact Prod.Lex.right' _ (Nat.le_refl _) (by simp [skip, _ht])
  · exact Prod.Lex.right' _ (fresh_settle_le _hp) (by simp [settle, skip, _ht])
  · exact Prod.Lex.right' _ (Nat.le_refl _) (by simp [skip, _ht])
  · refine Prod.Lex.left _ _ (fresh_enter_lt (s.known key (by simp [_ht])) ?_)
    simp_all [isFresh]
  · exact Prod.Lex.right' _ (fresh_keep_le s key) (by simp [keep, skip, _ht])

end Walk

/-! ## 4. Computations over a cache -/

/-- A computation that reads and extends a cache. A fault leaves in the cache what was settled
    before it. -/
abbrev Evaluation := ExceptT Fault (StateM Cache)

/-- The value of a key: the settled one, or the one that its walk settles. -/
def Workbook.resolve (w : Workbook) (key : String) : Evaluation Value :=
  ExceptT.mk fun cache =>
    match cache.get? key with
    | some v => (.ok v, cache)
    | none =>
      let walked := (Walk.start w key cache).run
      (walked.1.map fun _ => walked.2.value key, walked.2)

end Appraisal
