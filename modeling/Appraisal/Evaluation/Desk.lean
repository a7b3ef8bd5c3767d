import Appraisal.Evaluation.Query

/-!
# A desk of evaluators

Several evaluators can be in use side by side. Each works over one cache, and a cache may be shared.

* `Session`, `Desk` — an evaluator with its cache, and all those in use;
* `Desk.ask` — a question to the evaluator in use, which may extend its cache;
* `Desk.renewCache`, `Desk.emptyCache` — forget what was settled: alone, or for all who share;
* `Desk.join`, `Desk.use` — one more evaluator, and a change to another.
-/

namespace Appraisal

/-- An evaluator and the number of its cache. -/
structure Session where
  /-- The evaluator. -/
  evaluator : Evaluator
  /-- The number of the cache that it works over. -/
  cache : Nat

/-- The evaluators in use with their caches, and the one whose turn it is. -/
structure Desk where
  /-- The caches by number. -/
  caches : List Cache
  /-- The evaluators in the order of their joining. -/
  sessions : List Session
  /-- The one whose turn it is. -/
  current : Fin sessions.length

namespace Desk

/-- The desk of one evaluator with nothing settled. -/
def start (e : Evaluator) : Desk where
  caches := [[]]
  sessions := [⟨e, 0⟩]
  current := ⟨0, by simp⟩

/-- The session whose turn it is. -/
def session (d : Desk) : Session :=
  d.sessions[d.current]

/-- The cache of the session whose turn it is. -/
def cache (d : Desk) : Cache :=
  d.caches[d.session.cache]?.getD []

/-- The desk with the present cache replaced, for all who share it. -/
def writeCache (d : Desk) (c : Cache) : Desk :=
  { d with caches := d.caches.set d.session.cache c }

/-- The answer of the evaluator whose turn it is, and the desk afterwards. -/
def ask (d : Desk) (q : Query) : Except Fault Answer × Desk :=
  let answered := (d.session.evaluator.answer q).run d.cache
  (answered.1, d.writeCache answered.2)

/-- The desk with a new, empty cache for the evaluator whose turn it is. Those who shared its old
    cache keep that one. -/
def renewCache (d : Desk) : Desk where
  caches := d.caches ++ [[]]
  sessions := d.sessions.set d.current ⟨d.session.evaluator, d.caches.length⟩
  current := ⟨d.current, by simp⟩

/-- The desk with the present cache emptied, for all who share it. -/
def emptyCache (d : Desk) : Desk :=
  d.writeCache []

/-- The desk with a value written into the present cache. -/
def store (d : Desk) (key : String) (v : Value) : Desk :=
  d.writeCache (d.cache.put key v)

/-- The desk with one more evaluator, whose turn it then is; over the present cache or over a new,
    empty one. -/
def join (d : Desk) (e : Evaluator) (share : Bool) : Desk where
  caches := if share then d.caches else d.caches ++ [[]]
  sessions := d.sessions ++ [⟨e, if share then d.session.cache else d.caches.length⟩]
  current := ⟨d.sessions.length, by simp⟩

/-- The desk with one more evaluator like the present one, over a new, empty cache. -/
def openSession (d : Desk) : Desk :=
  d.join d.session.evaluator false

/-- The desk with one more evaluator of the present snapshot, with the standard functions and the
    usual places of the headline figures. -/
def fork (d : Desk) (share recompute : Bool) : Desk :=
  d.join ⟨⟨d.session.evaluator.workbook.snapshot, .standard, recompute⟩, {}⟩ share

/-- The desk with the turn given to the evaluator of the number, if there is one. -/
def use (d : Desk) (index : Nat) : Desk :=
  if h : index < d.sessions.length then { d with current := ⟨index, h⟩ } else d

end Desk

end Appraisal
