import Appraisal.Proofs.Evaluation.Outcome
import Appraisal.Proofs.Evaluation.Steady

/-!
# Turns of a walk

The evaluation of a formula asks for each key that the formula reads. A settled key is looked up,
and another would have to be walked in its turn, so that walks would nest. They never do: when a
walk leaves a key, all that the key reads is settled.

* `Workbook.keyAsked`, `settledOr` — the value of a key by asking for others, and asking for what is
  settled, or else something deeper; `resolve_eq_settledOr` — this is how a key is settled;
* `keyAsked_settledOr` — **where all that a key reads is settled, nothing deeper is asked**;
* `Walk.turn`, `Walk.Runs` — one turn of a walk, and a walk to its end with the keys it enters;
* `Walk.Covered` — what a key in progress reads is settled, or to be visited before it is left;
* `Covered.turn` — **what one turn does**; `Covered.exists_runs`, `Runs.nodup`, `Covered.follows` —
  what all turns do;
* `runs_start` — **every walk ends, enters no key twice and never begins another walk**.
-/

namespace Appraisal

open Appraisal.Formula

/-! ## 1. Asking for keys -/

namespace Workbook

section Asking

variable (w : Workbook) (ask : String → Evaluation Value) (sheet : String)

/-- The value of an operand, where keys are asked for. A cell of a sheet that is not there is
    not. -/
def leafAsked : Leaf → Evaluation Value
  | .literal s => pure (.scalar s)
  | .cell a => if a.sheet.all w.snapshot.sheets.has then ask (a.key sheet) else pure .blank

/-- The value of an argument, where keys are asked for. -/
def argumentAsked : Argument → Evaluation Value
  | .leaf l => w.leafAsked ask sheet l
  | .range r => do
    let values ← r.addresses.mapM fun a => ask (a.key sheet)
    pure (.list values)

/-- The value of a formula, where keys are asked for. The arguments of a function that is not there
    are not. -/
def treeAsked : Tree → Evaluation Value
  | .leaf l => w.leafAsked ask sheet l
  | .binary op l r => do
    let x ← w.leafAsked ask sheet l
    let y ← w.leafAsked ask sheet r
    ExceptT.mk (pure (Function.arithmetic op x y))
  | .call name args =>
    match w.library.find? name with
    | some function => do
      let values ← args.mapM (w.argumentAsked ask sheet)
      pure ((function.apply values).toOption.getD .blank)
    | none => pure .blank
  | .unsupported _ _ => pure .blank

/-- The value of a key, where the keys that it is computed from are asked for. -/
def keyAsked (key : String) : Evaluation Value :=
  match w.formula? key with
  | some (sheet, tree) => w.treeAsked ask sheet tree
  | none => pure (w.stored key)

end Asking

/-- The settled value of a key; where it is not settled, what something deeper makes of it. -/
def settledOr (deeper : String → Evaluation Value) (key : String) : Evaluation Value :=
  ExceptT.mk fun cache =>
    match cache.get? key with
    | some v => (.ok v, cache)
    | none => (deeper key).run cache

/-- A key is settled by looking it up, or else by its walk. -/
theorem resolve_eq_settledOr (w : Workbook) :
    w.resolve = settledOr fun key => ExceptT.mk fun cache =>
      let walked := (Walk.start w key cache).run
      (walked.1.map fun _ => walked.2.value key, walked.2) := rfl

section Settled

variable {w : Workbook} {cache : Cache} {sheet : String} (deeper : String → Evaluation Value)

theorem settledOr_settled {key : String} (h : cache.has key = true) :
    (settledOr deeper key).run cache = (.ok (cache.value key), cache) := by
  obtain ⟨v, hv⟩ := Option.isSome_iff_exists.mp h
  have hlooked : (settledOr deeper key).run cache =
      ((cache.get? key).elim ((deeper key).run cache) fun v => (.ok v, cache)) := by
    show (match cache.get? key with
      | some v => (Except.ok v, cache)
      | none => (deeper key).run cache) = _
    rw [hv]
    rfl
  rw [hlooked, Cache.value, hv]
  rfl

theorem run_bind_of {α β : Type} {m : Evaluation α} {f : α → Evaluation β} {a : α}
    (h : m.run cache = (.ok a, cache)) : (m >>= f).run cache = (f a).run cache := by
  rw [run_bind_ok (congrArg Prod.fst h), h]

theorem run_mapM {α β : Type} {f : α → Evaluation β} {g : α → β} {l : List α}
    (h : ∀ a ∈ l, (f a).run cache = (.ok (g a), cache)) :
    (l.mapM f).run cache = (.ok (l.map g), cache) := by
  induction l with
  | nil =>
    rw [List.mapM_nil]
    rfl
  | cons a l ih =>
    obtain ⟨ha, hl⟩ := List.forall_mem_cons.mp h
    rw [List.mapM_cons, run_bind_of ha, run_bind_of (ih hl)]
    rfl

theorem leafAsked_settledOr {l : Leaf} (h : ∀ read ∈ l.keys sheet, cache.has read = true) :
    (w.leafAsked (settledOr deeper) sheet l).run cache =
      (.ok (w.leafValue cache.value sheet l), cache) := by
  cases l with
  | literal s => rfl
  | cell a =>
    rw [leafAsked, leafValue]
    by_cases hsheet : a.sheet.all w.snapshot.sheets.has = true
    · rw [if_pos hsheet, if_pos hsheet]
      exact settledOr_settled deeper (h _ List.mem_cons_self)
    · rw [if_neg hsheet, if_neg hsheet]
      rfl

theorem argumentAsked_settledOr {a : Argument} (h : ∀ read ∈ a.keys sheet, cache.has read = true) :
    (w.argumentAsked (settledOr deeper) sheet a).run cache =
      (.ok (w.argumentValue cache.value sheet a), cache) := by
  cases a with
  | leaf l => exact leafAsked_settledOr deeper h
  | range r =>
    have hcells : ∀ a ∈ r.addresses, (settledOr deeper (a.key sheet)).run cache =
        (.ok (cache.value (a.key sheet)), cache) :=
      fun a ha => settledOr_settled deeper (h _ (List.mem_map_of_mem ha))
    rw [argumentAsked, run_bind_of (run_mapM hcells)]
    rfl

theorem treeAsked_settledOr {t : Tree} (h : ∀ read ∈ t.references sheet, cache.has read = true) :
    (w.treeAsked (settledOr deeper) sheet t).run cache =
      (w.treeValue cache.value sheet t, cache) := by
  have hk : ∀ read ∈ t.keys sheet, cache.has read = true :=
    fun read hr => h read (Tree.mem_references_iff.mpr hr)
  cases t with
  | leaf l => exact leafAsked_settledOr deeper hk
  | binary op l r =>
    rw [treeAsked, run_bind_of (leafAsked_settledOr deeper fun read hr =>
      hk read (List.mem_append_left _ hr)), run_bind_of (leafAsked_settledOr deeper fun read hr =>
      hk read (List.mem_append_right _ hr))]
    rfl
  | call name args =>
    rw [treeAsked, treeValue, callValue]
    cases w.library.find? name with
    | none => rfl
    | some function =>
      have hargs : ∀ a ∈ args, (w.argumentAsked (settledOr deeper) sheet a).run cache =
          (.ok (w.argumentValue cache.value sheet a), cache) :=
        fun a ha => argumentAsked_settledOr deeper fun read hr =>
          hk read (List.mem_flatMap.mpr ⟨a, ha, hr⟩)
      show (args.mapM (w.argumentAsked (settledOr deeper) sheet) >>= _).run cache = _
      rw [run_bind_of (run_mapM hargs)]
      rfl
  | unsupported text fault => rfl

/-- **Where all that a key reads is settled, nothing deeper is asked** and the cache stays as it
    is. -/
theorem keyAsked_settledOr {key : String} (h : ∀ read ∈ w.reads key, cache.has read = true) :
    (w.keyAsked (settledOr deeper) key).run cache = (w.keyValue cache.value key, cache) := by
  unfold keyAsked keyValue
  cases hf : w.formula? key with
  | none => rfl
  | some p =>
    obtain ⟨sheet, tree⟩ := p
    rw [reads_of_formula? hf] at h
    exact treeAsked_settledOr deeper h

end Settled

end Workbook

/-! ## 2. Turns -/

namespace Walk

variable {w : Workbook} {root key : String}

/-- What a turn of a walk leads to. -/
inductive Turn (w : Workbook) (root : String) where
  /-- The walk goes on; it may have entered a key. -/
  | on (entered : Option String) (s : Walk w root)
  /-- The walk has come to its end. -/
  | ended (result : Except Fault Unit × Cache)

/-- The walk with what its evaluation has left in the cache. -/
def withCache (s : Walk w root) (cache : Cache) : Walk w root :=
  { s with cache := cache }

/-- One turn of a walk, where a key is evaluated when it is left. -/
def turn (evaluate : String → Evaluation Value) (s : Walk w root) : Turn w root :=
  match s.tasks with
  | [] => .ended (.ok (), s.cache)
  | .leave :: _ =>
    match s.path with
    | [] => .on none s.skip
    | key :: _ =>
      match (evaluate key).run s.cache with
      | (.ok v, cache) => .on none ((s.withCache cache).settle key v)
      | (.error fault, cache) => .ended (.error fault, cache)
  | .visit key :: _ =>
    if s.cache.has key then .on none s.skip
    else if key ∈ s.path then .ended (.error (.circular (closedPath s.path key)), s.cache)
    else if (w.formula? key).isSome then .on (some key) (s.enter key)
    else .on none (s.keep key)

/-- One turn of a walk leads to another place of it. -/
def Follows (evaluate : String → Evaluation Value) (s s' : Walk w root) : Prop :=
  ∃ entered, s.turn evaluate = .on entered s'

/-- A walk to its end, turn by turn, with the keys that it enters. -/
inductive Runs (evaluate : String → Evaluation Value) :
    Walk w root → List String → Except Fault Unit × Cache → Prop where
  | ended {s : Walk w root} {result : Except Fault Unit × Cache}
      (h : s.turn evaluate = .ended result) : Runs evaluate s [] result
  | on {s s' : Walk w root} {entered : Option String} {keys : List String}
      {result : Except Fault Unit × Cache} (h : s.turn evaluate = .on entered s')
      (hrest : Runs evaluate s' keys result) : Runs evaluate s (entered.toList ++ keys) result

/-- A walk goes one way only. -/
theorem Runs.unique {evaluate : String → Evaluation Value} {s : Walk w root}
    {keys keys' : List String} {result result' : Except Fault Unit × Cache}
    (h : Runs evaluate s keys result) (h' : Runs evaluate s keys' result') :
    keys = keys' ∧ result = result' := by
  induction h generalizing keys' result' with
  | ended h =>
    cases h' with
    | ended h' =>
      rw [h] at h'
      cases h'
      exact ⟨rfl, rfl⟩
    | on h' _ =>
      rw [h] at h'
      cases h'
  | on h _ ih =>
    cases h' with
    | ended h' =>
      rw [h] at h'
      cases h'
    | on h' hrest' =>
      rw [h] at h'
      cases h'
      obtain ⟨hkeys, hresult⟩ := ih hrest'
      exact ⟨congrArg _ hkeys, hresult⟩

/-! ## 3. Covered keys -/

/-- What each key in progress reads is settled, or is to be visited before the key is left. The
    tasks are laid over one another as the keys are: each key in progress was a visit of the layer
    below it. -/
inductive Covered (w : Workbook) (cache : Cache) : List String → List Task → Prop where
  | bottom (visits : List String) : Covered w cache [] (visits.map .visit)
  | layer {key : String} {path visits : List String} {tasks : List Task}
      (h : ∀ read ∈ w.reads key, cache.has read = true ∨ read ∈ visits)
      (hrest : Covered w cache path (.visit key :: tasks)) :
      Covered w cache (key :: path) (visits.map .visit ++ .leave :: tasks)

namespace Covered

variable {cache cache' : Cache} {path : List String} {tasks : List Task}

theorem mono (h : Covered w cache path tasks)
    (hg : ∀ key, cache.has key = true → cache'.has key = true) :
    Covered w cache' path tasks := by
  induction h with
  | bottom visits => exact .bottom visits
  | layer h _ ih => exact .layer (fun read hread => (h read hread).imp (hg read) id) ih

/-- The visit of a settled key is no longer needed. -/
theorem done (h : Covered w cache path (.visit key :: tasks)) (hk : cache.has key = true) :
    Covered w cache path tasks := by
  generalize ht : Task.visit key :: tasks = all at h
  cases h with
  | bottom visits =>
    cases visits with
    | nil => cases ht
    | cons visit visits =>
      cases ht
      exact .bottom visits
  | @layer upper path visits rest h hrest =>
    cases visits with
    | nil => cases ht
    | cons visit visits =>
      cases ht
      refine .layer (fun read hread => (h read hread).elim Or.inl fun hin => ?_) hrest
      rcases List.mem_cons.mp hin with rfl | hin
      · exact Or.inl hk
      · exact Or.inr hin

/-- **All that a key reads is settled when the key is left**, and then it is a visit below that is
    done. -/
theorem leave (h : Covered w cache path (.leave :: tasks)) :
    ∃ key above, path = key :: above ∧ (∀ read ∈ w.reads key, cache.has read = true) ∧
      Covered w cache above (.visit key :: tasks) := by
  generalize ht : Task.leave :: tasks = all at h
  cases h with
  | bottom visits =>
    cases visits with
    | nil => cases ht
    | cons visit visits => cases ht
  | @layer key path visits rest h hrest =>
    cases visits with
    | nil =>
      cases ht
      exact ⟨key, path, rfl, fun read hread => (h read hread).resolve_right List.not_mem_nil,
        hrest⟩
    | cons visit visits => cases ht

end Covered

/-! ## 4. What a turn does -/

section Turns

variable {evaluate : String → Evaluation Value} {s s' : Walk w root} {tasks : List Task}

theorem turn_done (ht : s.tasks = []) : s.turn evaluate = .ended (.ok (), s.cache) := by
  rw [turn, ht]

theorem turn_settled (ht : s.tasks = .visit key :: tasks) (hc : s.cache.has key = true) :
    s.turn evaluate = .on none s.skip := by
  rw [turn, ht]
  exact if_pos hc

theorem turn_circle (ht : s.tasks = .visit key :: tasks) (hc : s.cache.has key = false)
    (hp : key ∈ s.path) :
    s.turn evaluate = .ended (.error (.circular (closedPath s.path key)), s.cache) := by
  rw [turn, ht]
  exact (if_neg (by rw [hc]; exact Bool.false_ne_true)).trans (if_pos hp)

theorem turn_enter (ht : s.tasks = .visit key :: tasks) (hc : s.cache.has key = false)
    (hp : key ∉ s.path) (hf : (w.formula? key).isSome = true) :
    s.turn evaluate = .on (some key) (s.enter key) := by
  rw [turn, ht]
  exact (if_neg (by rw [hc]; exact Bool.false_ne_true)).trans ((if_neg hp).trans (if_pos hf))

theorem turn_keep (ht : s.tasks = .visit key :: tasks) (hc : s.cache.has key = false)
    (hp : key ∉ s.path) (hf : w.formula? key = none) :
    s.turn evaluate = .on none (s.keep key) := by
  rw [turn, ht]
  refine (if_neg (by rw [hc]; exact Bool.false_ne_true)).trans ((if_neg hp).trans (if_neg ?_))
  rw [hf]
  exact Bool.false_ne_true

theorem turn_settle {path : List String} {cache : Cache} {v : Value}
    (ht : s.tasks = .leave :: tasks) (hp : s.path = key :: path)
    (hv : (evaluate key).run s.cache = (.ok v, cache)) :
    s.turn evaluate = .on none ((s.withCache cache).settle key v) := by
  rw [turn, ht, hp]
  show (match (evaluate key).run s.cache with
    | (.ok v, cache) => Turn.on none ((s.withCache cache).settle key v)
    | (.error fault, cache) => .ended (.error fault, cache)) = _
  rw [hv]

theorem turn_fault {path : List String} {cache : Cache} {fault : Fault}
    (ht : s.tasks = .leave :: tasks) (hp : s.path = key :: path)
    (hv : (evaluate key).run s.cache = (.error fault, cache)) :
    s.turn evaluate = .ended (.error fault, cache) := by
  rw [turn, ht, hp]
  show (match (evaluate key).run s.cache with
    | (.ok v, cache) => Turn.on none ((s.withCache cache).settle key v)
    | (.error fault, cache) => .ended (.error fault, cache)) = _
  rw [hv]

/-- What a turn changes that leads from one place of a walk to another. -/
structure Goes (s : Walk w root) (entered : Option String) (s' : Walk w root) : Prop where
  run : s.run = s'.run
  covered : Covered w s'.cache s'.path s'.tasks
  shorter : Prod.Lex (· < ·) (· < ·) (s'.fresh, s'.tasks.length) (s.fresh, s.tasks.length)
  fresh : ∀ key, s'.isFresh key = true → s.isFresh key = true
  entered : ∀ key ∈ entered, s.isFresh key = true ∧ s'.isFresh key = false

/-- An evaluation that only looks up what is settled. -/
def LooksUp (w : Workbook) (evaluate : String → Evaluation Value) : Prop :=
  ∀ (key : String) (cache : Cache), (∀ read ∈ w.reads key, cache.has read = true) →
    (evaluate key).run cache = (w.keyValue cache.value key, cache)

/-- Fewer keys may be fresh after a turn, and one task is done. -/
theorem shorter_of_skip {task : Task} (ht : s.tasks = task :: tasks) (ht' : s'.tasks = tasks)
    (h : ∀ key, s'.isFresh key = true → s.isFresh key = true) :
    Prod.Lex (· < ·) (· < ·) (s'.fresh, s'.tasks.length) (s.fresh, s.tasks.length) := by
  refine Prod.Lex.right' _ (List.countP_mono_left fun key _ => h key) ?_
  rw [ht, ht']
  exact Nat.lt_succ_self _

/-- A turn that leaves the deepest key. -/
theorem goes_settle {path : List String} {v : Value} (ht : s.tasks = .leave :: tasks)
    (hp : s.path = key :: path) (hv : w.keyValue s.cache.value key = .ok v)
    (hs : Covered w s.cache path (.visit key :: tasks)) : Goes s none (s.settle key v) := by
  have hpath : (s.settle key v).path = path := settle_path hp
  have htasks : (s.settle key v).tasks = tasks := skip_tasks ht
  have hfresh : ∀ other, (s.settle key v).isFresh other = true → s.isFresh other = true := by
    intro other h
    rw [isFresh_iff, hpath] at h
    rw [isFresh_iff, hp]
    refine ⟨isFresh_of_put h.1, fun hin => ?_⟩
    rcases List.mem_cons.mp hin with rfl | hin
    · have hself : (s.settle other v).cache.has other = true :=
        Listing.has_put_self s.cache other v
      rw [hself] at h
      cases h.1
    · exact h.2 hin
  refine ⟨run_settle ht hp hv, ?_, shorter_of_skip ht htasks hfresh, hfresh, nofun⟩
  rw [hpath, htasks]
  exact (hs.mono fun other => Listing.has_put_of_has v).done (Listing.has_put_self _ _ _)

/-- A turn that passes over a settled key. -/
theorem goes_skip (ht : s.tasks = .visit key :: tasks) (hc : s.cache.has key = true)
    (hs : Covered w s.cache s.path (.visit key :: tasks)) : Goes s none s.skip := by
  refine ⟨run_settled ht hc, ?_, shorter_of_skip ht (skip_tasks ht) fun _ h => h,
    fun _ h => h, nofun⟩
  rw [skip_tasks ht]
  exact hs.done hc

/-- A turn that settles a key with its stored value. -/
theorem goes_keep (ht : s.tasks = .visit key :: tasks) (hc : s.cache.has key = false)
    (hp : key ∉ s.path) (hf : w.formula? key = none)
    (hs : Covered w s.cache s.path (.visit key :: tasks)) : Goes s none (s.keep key) := by
  have htasks : (s.keep key).tasks = tasks := skip_tasks ht
  have hfresh : ∀ other, (s.keep key).isFresh other = true → s.isFresh other = true := by
    intro other h
    rw [isFresh_iff] at h ⊢
    exact ⟨isFresh_of_put h.1, h.2⟩
  refine ⟨run_keep ht hc hp hf, ?_, shorter_of_skip ht htasks hfresh, hfresh, nofun⟩
  rw [htasks]
  exact (hs.mono fun other => Listing.has_put_of_has _).done (Listing.has_put_self _ _ _)

/-- A turn that enters a key: what it reads and is not settled comes next. -/
theorem goes_enter (ht : s.tasks = .visit key :: tasks) (hc : s.cache.has key = false)
    (hp : key ∉ s.path) (hf : (w.formula? key).isSome = true)
    (hs : Covered w s.cache s.path (.visit key :: tasks)) :
    Goes s (some key) (s.enter key) := by
  have hknown : key ∈ root :: w.allReads := s.known key (ht ▸ List.mem_cons_self)
  have hkey : s.isFresh key = true := isFresh_iff.mpr ⟨hc, hp⟩
  refine ⟨run_enter ht hc hp hf, ?_, Prod.Lex.left _ _ (fresh_enter_lt hknown hkey),
    fun other h => ?_, fun other ho => ?_⟩
  · rw [enter_tasks ht]
    refine .layer (fun read hread => ?_) hs
    cases hr : s.cache.has read with
    | true => exact Or.inl hr
    | false => exact Or.inr (List.mem_filter.mpr ⟨hread, by rw [hr]; rfl⟩)
  · rw [isFresh_iff] at h ⊢
    exact ⟨h.1, fun hin => h.2 (List.mem_cons_of_mem key hin)⟩
  · cases ho
    refine ⟨hkey, Bool.eq_false_iff.mpr fun h => ?_⟩
    exact (isFresh_iff.mp h).2 List.mem_cons_self

/-- **What one turn does**: it ends the walk as the walk ends, or goes on with less to do. -/
theorem Covered.turn (he : LooksUp w evaluate) (hs : Covered w s.cache s.path s.tasks) :
    s.turn evaluate = .ended s.run ∨
      ∃ entered s', s.turn evaluate = .on entered s' ∧ Goes s entered s' := by
  cases ht : s.tasks with
  | nil => exact Or.inl ((turn_done ht).trans (by rw [run_done ht]))
  | cons task tasks =>
    rw [ht] at hs
    cases task with
    | leave =>
      obtain ⟨key, path, hp, hreads, hbelow⟩ := hs.leave
      have hrun := he key s.cache hreads
      cases hv : w.keyValue s.cache.value key with
      | ok v =>
        rw [hv] at hrun
        exact Or.inr ⟨none, _, turn_settle ht hp hrun, goes_settle ht hp hv hbelow⟩
      | error fault =>
        rw [hv] at hrun
        exact Or.inl ((turn_fault ht hp hrun).trans (by rw [run_fault ht hp hv]))
    | visit key =>
      cases hc : s.cache.has key with
      | true => exact Or.inr ⟨none, _, turn_settled ht hc, goes_skip ht hc hs⟩
      | false =>
        by_cases hp : key ∈ s.path
        · exact Or.inl ((turn_circle ht hc hp).trans (by rw [run_circle ht hc hp]))
        cases hf : w.formula? key with
        | none => exact Or.inr ⟨none, _, turn_keep ht hc hp hf, goes_keep ht hc hp hf hs⟩
        | some p =>
          have hsome : (w.formula? key).isSome = true := by
            rw [hf]
            rfl
          exact Or.inr ⟨some key, _, turn_enter ht hc hp hsome, goes_enter ht hc hp hsome hs⟩

/-! ## 5. What all turns do -/

theorem covered_start (w : Workbook) (root : String) (cache : Cache) :
    Covered w (start w root cache).cache (start w root cache).path (start w root cache).tasks :=
  .bottom [root]

/-- **A walk ends**, and as the listed walk does. -/
theorem Covered.exists_runs (he : LooksUp w evaluate) (hs : Covered w s.cache s.path s.tasks) :
    ∃ keys, Runs evaluate s keys s.run := by
  induction h : (s.fresh, s.tasks.length) using
    (Prod.lex Nat.lt_wfRel Nat.lt_wfRel).wf.induction generalizing s with
  | _ measure ih =>
    subst h
    rcases hs.turn he with hend | ⟨entered, s', hon, hgoes⟩
    · exact ⟨[], .ended hend⟩
    · obtain ⟨keys, hkeys⟩ := ih _ hgoes.shorter hgoes.covered rfl
      exact ⟨_, .on hon (hgoes.run ▸ hkeys)⟩

/-- **No key is entered twice**: one that is entered is settled or in progress ever after. -/
theorem Runs.nodup {keys : List String} {result : Except Fault Unit × Cache}
    (he : LooksUp w evaluate) (hs : Covered w s.cache s.path s.tasks)
    (h : Runs evaluate s keys result) :
    keys.Nodup ∧ ∀ key ∈ keys, s.isFresh key = true := by
  induction h with
  | ended => exact ⟨List.nodup_nil, nofun⟩
  | @on s s' entered keys result hon _ ih =>
    rcases hs.turn he with hend | ⟨entered', t, hon', hgoes⟩
    · rw [hon] at hend
      cases hend
    · rw [hon] at hon'
      cases hon'
      obtain ⟨hnodup, hfresh⟩ := ih hgoes.covered
      cases entered with
      | none => exact ⟨hnodup, fun key hk => hgoes.fresh key (hfresh key hk)⟩
      | some first =>
        obtain ⟨hnew, hold⟩ := hgoes.entered first rfl
        refine ⟨List.nodup_cons.mpr ⟨fun hin => ?_, hnodup⟩, List.forall_mem_cons.mpr
          ⟨hnew, fun key hk => hgoes.fresh key (hfresh key hk)⟩⟩
        rw [hfresh first hin] at hold
        cases hold

/-- Wherever a walk stands, its keys in progress are covered. -/
theorem Covered.follows (he : LooksUp w evaluate) (hs : Covered w s.cache s.path s.tasks)
    (h : Relation.ReflTransGen (Follows evaluate) s s') : Covered w s'.cache s'.path s'.tasks := by
  induction h with
  | refl => exact hs
  | tail _ hnext ih =>
    obtain ⟨entered, hon⟩ := hnext
    rcases ih.turn he with hend | ⟨entered', t, hon', hgoes⟩
    · rw [hon] at hend
      cases hend
    · rw [hon] at hon'
      cases hon'
      exact hgoes.covered

end Turns

/-- **Every walk ends, enters no key twice and never begins another walk**, whatever is in the
    cache. Evaluation asks for keys, and a key that is not settled would be left to something
    deeper; but wherever the walk is about to leave a key, all that the key reads is settled, so
    that its value comes of looking up and the cache stays as it is. -/
theorem runs_start (w : Workbook) (root : String) (cache : Cache)
    (deeper : String → Evaluation Value) :
    let evaluate := w.keyAsked (Workbook.settledOr deeper)
    let s := start w root cache
    (∃ keys, Runs evaluate s keys s.run) ∧
      (∀ keys result, Runs evaluate s keys result → result = s.run ∧ keys.Nodup) ∧
      ∀ s', Relation.ReflTransGen (Follows evaluate) s s' →
        ∀ key path tasks, s'.tasks = .leave :: tasks → s'.path = key :: path →
          (∀ read ∈ w.reads key, s'.cache.has read = true) ∧
            (evaluate key).run s'.cache = (w.keyValue s'.cache.value key, s'.cache) := by
  intro evaluate s
  have he : LooksUp w evaluate := fun _ _ h => Workbook.keyAsked_settledOr deeper h
  have hs := covered_start w root cache
  obtain ⟨keys, hkeys⟩ := hs.exists_runs he
  refine ⟨⟨keys, hkeys⟩, fun keys' result hruns => ?_, fun s' hs' key path tasks ht hp => ?_⟩
  · exact ⟨(hruns.unique hkeys).2, (hruns.nodup he hs).1⟩
  · have hcovered := hs.follows he hs'
    rw [ht] at hcovered
    obtain ⟨key', above, hpath, hreads, -⟩ := hcovered.leave
    rw [hp] at hpath
    cases hpath
    exact ⟨hreads, he key s'.cache hreads⟩

/-- The walk of a key that reads another. -/
def descent : Walk Workbook.ladder "S!B1" :=
  start Workbook.ladder "S!B1" []

theorem runs_start_descent :
    let evaluate := Workbook.ladder.keyAsked (Workbook.settledOr Workbook.ladder.resolve)
    (∃ keys, Runs evaluate descent keys descent.run ∧ keys.Nodup) ∧
      ∃ s', Relation.ReflTransGen (Follows evaluate) descent s' ∧ s'.tasks = [.leave] ∧
        s'.path = ["S!B1"] ∧ ∀ read ∈ Workbook.ladder.reads "S!B1", s'.cache.has read = true := by
  intro evaluate
  obtain ⟨⟨keys, hkeys⟩, hall, hleave⟩ :=
    runs_start Workbook.ladder "S!B1" [] Workbook.ladder.resolve
  refine ⟨⟨keys, hkeys, (hall keys _ hkeys).2⟩, ?_⟩
  have hformula : (Workbook.ladder.formula? "S!B1").isSome = true := by decide
  have hstored : Workbook.ladder.formula? "S!A1" = none := by decide
  have hawaited : descent.awaited "S!B1" = ["S!A1"] := by decide +kernel
  -- the key is entered, and the one that it reads is settled
  have henter : Follows evaluate descent (descent.enter "S!B1") :=
    ⟨_, turn_enter rfl rfl List.not_mem_nil hformula⟩
  have htasks : (descent.enter "S!B1").tasks = [.visit "S!A1", .leave] :=
    (enter_tasks rfl).trans (by rw [hawaited]; rfl)
  have hkeep : Follows evaluate (descent.enter "S!B1") ((descent.enter "S!B1").keep "S!A1") :=
    ⟨_, turn_keep htasks rfl (by decide) hstored⟩
  have hend : ((descent.enter "S!B1").keep "S!A1").tasks = [.leave] := skip_tasks htasks
  have hgoes := Relation.ReflTransGen.tail (.single henter) hkeep
  exact ⟨_, hgoes, hend, rfl, (hleave _ hgoes "S!B1" [] [] hend rfl).1⟩

end Walk

end Appraisal
