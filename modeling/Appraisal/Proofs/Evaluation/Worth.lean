import Appraisal.DepthFirst
import Appraisal.Evaluation.Workbook
import Mathlib.Logic.Relation

/-!
# What a key is worth

The value of a key by plain recursion: no cache, no stack. It is a relation, since a key that reads
itself in the end has no value by recursion.

* `Workbook.Reads`, `Workbook.Reaches`, `Workbook.OnCircle` — what a key is computed from, at once
  and in the end, and what it means to lie on a circle;
* `keyValue_congr` — **a value depends on what is read, and on nothing else**;
* `Workbook.Worth` — the value of a key by recursion; `Worth.unique`, `Worth.not_onCircle`.
-/

namespace Appraisal.Workbook

open Appraisal.Formula

variable {w : Workbook}

/-! ## 1. What a key reads -/

/-- A key reads another: its cell needs evaluation and the tree of its formula refers to the
    other. -/
def Reads (w : Workbook) (key read : String) : Prop :=
  ∃ sheet c, w.cell? key = some (sheet, c) ∧ w.needsEvaluation c = true ∧
    read ∈ (w.tree c).references sheet

/-- A key leads to another by any number of reads. -/
def Reaches (w : Workbook) : String → String → Prop :=
  Relation.ReflTransGen w.Reads

/-- A key leads back to itself by one or more reads. -/
def OnCircle (w : Workbook) (key : String) : Prop :=
  Relation.TransGen w.Reads key key

theorem formula?_of_needs {key sheet : String} {c : Cell} (hc : w.cell? key = some (sheet, c))
    (hn : w.needsEvaluation c = true) : w.formula? key = some (sheet, w.tree c) := by
  rw [formula?, hc, Option.bind_some, if_pos hn]

theorem formula?_of_kept {key sheet : String} {c : Cell} (hc : w.cell? key = some (sheet, c))
    (hn : w.needsEvaluation c = false) : w.formula? key = none := by
  rw [formula?, hc, Option.bind_some, if_neg (by rw [hn]; exact Bool.false_ne_true)]

theorem formula?_eq_some {key sheet : String} {tree : Tree}
    (h : w.formula? key = some (sheet, tree)) :
    ∃ c, w.cell? key = some (sheet, c) ∧ w.needsEvaluation c = true ∧ tree = w.tree c := by
  obtain ⟨⟨name, c⟩, hc, hif⟩ := Option.bind_eq_some_iff.mp h
  split at hif
  · rename_i hn
    cases hif
    exact ⟨c, hc, hn, rfl⟩
  · cases hif

theorem formula?_eq_none {key : String} (h : w.formula? key = none) :
    w.cell? key = none ∨ ∃ sheet c, w.cell? key = some (sheet, c) ∧
      w.needsEvaluation c = false := by
  cases hc : w.cell? key with
  | none => exact Or.inl rfl
  | some p =>
    obtain ⟨sheet, c⟩ := p
    refine Or.inr ⟨sheet, c, rfl, ?_⟩
    rw [formula?, hc, Option.bind_some] at h
    split at h
    · cases h
    · rename_i hn
      exact Bool.eq_false_iff.mpr hn

theorem mem_reads_iff {key read : String} : read ∈ w.reads key ↔ w.Reads key read := by
  constructor
  · intro h
    unfold reads at h
    split at h
    · rename_i sheet tree hf
      obtain ⟨c, hc, hn, rfl⟩ := formula?_eq_some hf
      exact ⟨sheet, c, hc, hn, h⟩
    · cases h
  · rintro ⟨sheet, c, hc, hn, h⟩
    rw [reads, formula?_of_needs hc hn]
    exact h

theorem reads_of_formula? {key sheet : String} {tree : Tree}
    (h : w.formula? key = some (sheet, tree)) : w.reads key = tree.references sheet := by
  rw [reads, h]

/-! ## 2. A value depends on what is read, and on nothing else -/

section Congruence

variable {f g : String → Value} {sheet : String}

theorem leafValue_congr {l : Leaf} (h : ∀ read ∈ l.keys sheet, f read = g read) :
    w.leafValue f sheet l = w.leafValue g sheet l := by
  cases l with
  | literal s => rfl
  | cell a => rw [leafValue, leafValue, h (a.key sheet) List.mem_cons_self]

theorem argumentValue_congr {a : Argument} (h : ∀ read ∈ a.keys sheet, f read = g read) :
    w.argumentValue f sheet a = w.argumentValue g sheet a := by
  cases a with
  | leaf l => exact leafValue_congr h
  | range r =>
    have hcells : r.addresses.map (fun a => f (a.key sheet)) =
        r.addresses.map fun a => g (a.key sheet) :=
      List.map_congr_left fun a ha => h (a.key sheet) (List.mem_map_of_mem ha)
    rw [argumentValue, argumentValue, hcells]

theorem treeValue_congr {t : Tree} (h : ∀ read ∈ t.references sheet, f read = g read) :
    w.treeValue f sheet t = w.treeValue g sheet t := by
  have hk : ∀ read ∈ t.keys sheet, f read = g read :=
    fun read hr => h read (Tree.mem_references_iff.mpr hr)
  cases t with
  | leaf l => rw [treeValue, treeValue, leafValue_congr hk]
  | binary op l r =>
    rw [treeValue, treeValue, leafValue_congr fun read hr => hk read (List.mem_append_left _ hr),
      leafValue_congr fun read hr => hk read (List.mem_append_right _ hr)]
  | call name args =>
    have hargs : args.map (w.argumentValue f sheet) = args.map (w.argumentValue g sheet) :=
      List.map_congr_left fun a ha => argumentValue_congr fun read hr =>
        hk read (List.mem_flatMap.mpr ⟨a, ha, hr⟩)
    rw [treeValue, treeValue, hargs]
  | unsupported text fault => rfl

end Congruence

theorem keyValue_congr {f g : String → Value} {key : String}
    (h : ∀ read ∈ w.reads key, f read = g read) : w.keyValue f key = w.keyValue g key := by
  unfold keyValue
  cases hf : w.formula? key with
  | none => rfl
  | some p =>
    obtain ⟨sheet, tree⟩ := p
    rw [reads_of_formula? hf] at h
    exact treeValue_congr h

/-! ## 3. Worth -/

/-- The value of a key by plain recursion: nothing for a missing cell, the stored value where it
    counts, nothing for a formula beyond the grammar; else the value of the formula with each
    reference standing for what its own key is worth. -/
inductive Worth (w : Workbook) : String → Value → Prop where
  | missing {key : String} (hc : w.cell? key = none) : Worth w key .blank
  | stored {key sheet : String} {c : Cell} (hc : w.cell? key = some (sheet, c))
      (hn : w.needsEvaluation c = false) : Worth w key (.scalar c.value)
  | unsupported {key sheet : String} {c : Cell} (hc : w.cell? key = some (sheet, c))
      (hn : w.needsEvaluation c = true) (hs : (w.tree c).isSupported = false) :
      Worth w key .blank
  | computed {key sheet : String} {c : Cell} {v : Value} (value : String → Value)
      (hc : w.cell? key = some (sheet, c)) (hn : w.needsEvaluation c = true)
      (hs : (w.tree c).isSupported = true)
      (hr : ∀ read ∈ (w.tree c).references sheet, Worth w read (value read))
      (hv : w.treeValue value sheet (w.tree c) = .ok v) : Worth w key v

/-- A formula beyond the grammar reads nothing and gives nothing. -/
theorem unsupported_reads {key sheet : String} {c : Cell} (hc : w.cell? key = some (sheet, c))
    (hn : w.needsEvaluation c = true) (hs : (w.tree c).isSupported = false) :
    w.reads key = [] ∧ ∀ value, w.keyValue value key = .ok .blank := by
  have hf := formula?_of_needs hc hn
  cases ht : w.tree c with
  | unsupported text fault =>
    rw [ht] at hf
    exact ⟨by rw [reads_of_formula? hf]; rfl, fun value => by rw [keyValue, hf]; rfl⟩
  | leaf | binary | call =>
    rw [ht] at hs
    cases hs

theorem Worth.of_formula?_eq_none {key : String} (h : w.formula? key = none) :
    w.Worth key (w.stored key) := by
  rcases formula?_eq_none h with hc | ⟨sheet, c, hc, hn⟩
  · rw [Workbook.stored, hc]
    exact .missing hc
  · rw [Workbook.stored, hc]
    exact .stored hc hn

/-- A key is worth what its formula, or its cell, makes of the worth of what it reads. -/
theorem Worth.of_keyValue {key : String} {v : Value} (value : String → Value)
    (hr : ∀ read ∈ w.reads key, w.Worth read (value read)) (hv : w.keyValue value key = .ok v) :
    w.Worth key v := by
  cases hf : w.formula? key with
  | none =>
    rw [keyValue, hf] at hv
    cases hv
    exact .of_formula?_eq_none hf
  | some p =>
    obtain ⟨sheet, tree⟩ := p
    obtain ⟨c, hc, hn, rfl⟩ := formula?_eq_some hf
    cases hs : (w.tree c).isSupported with
    | true =>
      rw [reads_of_formula? hf] at hr
      rw [keyValue, hf] at hv
      exact .computed value hc hn hs hr hv
    | false =>
      rw [(unsupported_reads hc hn hs).2] at hv
      cases hv
      exact .unsupported hc hn hs

/-- Induction over worth in one case: every rule computes a key from what it reads. -/
@[elab_as_elim]
theorem Worth.byReads {motive : (key : String) → (v : Value) → w.Worth key v → Prop}
    (step : ∀ (key : String) (v : Value) (value : String → Value)
      (hr : ∀ read ∈ w.reads key, w.Worth read (value read)) (hv : w.keyValue value key = .ok v),
      (∀ read (h : read ∈ w.reads key), motive read (value read) (hr read h)) →
      motive key v (.of_keyValue value hr hv))
    {key : String} {v : Value} (h : w.Worth key v) : motive key v h := by
  -- three of the rules read nothing, so that any assignment will do
  have alone : ∀ {key : String} {v : Value} (h : w.Worth key v), w.reads key = [] →
      w.keyValue (fun _ => .blank) key = .ok v → motive key v h := by
    intro key v h hreads hv
    have hnone : ∀ read, read ∉ w.reads key := by
      rw [hreads]
      exact fun _ => List.not_mem_nil
    exact step key v _ (fun read hr => absurd hr (hnone read)) hv
      fun read hr => absurd hr (hnone read)
  induction h with
  | @missing key hc =>
    have hf : w.formula? key = none := by rw [formula?, hc, Option.bind_none]
    exact alone _ (by rw [reads, hf]) (by rw [keyValue, hf, Workbook.stored, hc])
  | @stored key sheet c hc hn =>
    have hf := formula?_of_kept hc hn
    exact alone _ (by rw [reads, hf]) (by rw [keyValue, hf, Workbook.stored, hc])
  | @unsupported key sheet c hc hn hs =>
    obtain ⟨hreads, hv⟩ := unsupported_reads hc hn hs
    exact alone _ hreads (hv _)
  | @computed key sheet c v value hc hn hs hr hv ih =>
    have hf := formula?_of_needs hc hn
    have hreads := reads_of_formula? hf
    exact step key v value (fun read h => hr read (hreads ▸ h)) (by rw [keyValue, hf]; exact hv)
      fun read h => ih read (hreads ▸ h)

/-- A worth is computed from the worths of what the key reads. -/
theorem Worth.exists_value {key : String} {v : Value} (h : w.Worth key v) :
    ∃ value : String → Value, (∀ read ∈ w.reads key, w.Worth read (value read)) ∧
      w.keyValue value key = .ok v := by
  induction h using Worth.byReads with
  | step key v value hr hv _ => exact ⟨value, hr, hv⟩

/-- **A key has at most one worth.** -/
theorem Worth.unique {key : String} {u v : Value} (hu : w.Worth key u) (hv : w.Worth key v) :
    u = v := by
  induction hu using Worth.byReads generalizing v with
  | step key u value _ hval ih =>
    induction hv using Worth.byReads with
    | step key v value' hr' hval' _ =>
      rw [keyValue_congr fun read hread => ih read hread (hr' read hread), hval'] at hval
      exact (Except.ok.inj hval).symm

/-- A key is computed alike from any two readings of worths. -/
theorem keyValue_of_worths {w' : Workbook} {f g : String → Value} {key : String}
    (hf : ∀ read ∈ w.reads key, w'.Worth read (f read))
    (hg : ∀ read ∈ w.reads key, w'.Worth read (g read)) : w.keyValue f key = w.keyValue g key :=
  keyValue_congr fun read hread => (hf read hread).unique (hg read hread)

/-- What a key of some worth reads has a worth. -/
theorem Worth.reads {key read : String} {v : Value} (h : w.Worth key v) (hr : w.Reads key read) :
    ∃ u, w.Worth read u := by
  induction h using Worth.byReads with
  | step key v value hworth _ _ => exact ⟨value read, hworth read (mem_reads_iff.mpr hr)⟩

/-- What a key of some worth leads to has a worth. -/
theorem Worth.reaches {key other : String} {v : Value} (h : w.Worth key v)
    (hr : w.Reaches key other) : ∃ u, w.Worth other u := by
  induction hr with
  | refl => exact ⟨v, h⟩
  | tail _ hread ih =>
    obtain ⟨u, hu⟩ := ih
    exact hu.reads hread

/-- **A key on a circle is worth nothing at all:** the recursion would not end. -/
theorem Worth.not_onCircle {key : String} {v : Value} (h : w.Worth key v) : ¬ w.OnCircle key := by
  induction h using Worth.byReads with
  | step key v value _ _ ih =>
    intro hc
    -- the first key of the circle lies on it as well
    obtain ⟨read, hread, hback⟩ := Relation.TransGen.head'_iff.mp hc
    have hturned : w.OnCircle read := Relation.TransGen.tail' hback hread
    exact ih read (mem_reads_iff.mpr hread) hturned

end Appraisal.Workbook
