import Appraisal.Proofs.Evaluation.Lookup
import Appraisal.Proofs.Formula.Acceptance

/-!
# The value of a key stays local

What a key is worth, or the fault met in its place, is decided by the cells that it leads to. In
another snapshot that has the same cells there, whatever else it holds, the key has the same
outcome.

* `Tree.Named`, `Tree.ofText_named` — no operand of a formula that is read has an empty sheet name;
* `Workbook.withSnapshot`, `Workbook.SameCells` — the workbook over another snapshot, and a snapshot
  that has the same cells wherever a key leads to;
* `leafValue_withSnapshot`, `keyValue_withSnapshot` — **a formula has the same value over both**,
  since a sheet is there where one of its cells is;
* `SameCells.reaches_iff` — the key leads to the same keys over both;
* `Worth.withSnapshot`, `Stops.withSnapshot` — **the worth of a key, and the fault of its visit, are
  the same**;
* `Workbook.cellValue_withSnapshot` — **what lies beyond what a key leads to never matters**.
-/

namespace Appraisal

open Appraisal.Formula

/-! ## 1. Operands name sheets -/

theorem Address.read?_named {text : String} {a : Address} (h : Address.read? text = some a) :
    a.sheet ≠ some "" := by
  obtain ⟨s, hs, -, hspelled⟩ := Address.read?_iff.mp h
  rw [(Address.ofSpelling?_eq_some hspelled).2.1]
  exact hs.sheet.name_ne

namespace Formula

/-- The operand is no cell of a sheet without a name. -/
def Leaf.Named : Leaf → Prop
  | .literal _ => True
  | .cell a => a.sheet ≠ some ""

/-- So is the operand, where the argument is one. -/
def Argument.Named : Argument → Prop
  | .leaf l => l.Named
  | .range _ => True

/-- So are all operands of the formula. -/
def Tree.Named : Tree → Prop
  | .leaf l => l.Named
  | .binary _ l r => l.Named ∧ r.Named
  | .call _ args => ∀ a ∈ args, a.Named
  | .unsupported _ _ => True

section Derived

variable {table : Signatures} {acceptsRanges : Bool} {ts : List Token}

theorem DerivesLeaf.named {l : Leaf} (h : DerivesLeaf ts l) : l.Named := by
  cases h with
  | cell ht ha => exact Address.read?_named ha
  | numeral | plus | minus | text | yes | no => trivial

theorem DerivesArgument.named {a : Argument} (h : DerivesArgument acceptsRanges ts a) :
    a.Named := by
  cases h with
  | leaf hl => exact hl.named
  | range => trivial

theorem DerivesArguments.named {as : List Argument} (h : DerivesArguments acceptsRanges ts as) :
    ∀ a ∈ as, a.Named := by
  induction h with
  | one ha =>
    intro a hmem
    rw [List.mem_singleton.mp hmem]
    exact ha.named
  | more ha _ ih => exact List.forall_mem_cons.mpr ⟨ha.named, ih⟩

theorem Derives.named {tree : Tree} (h : Derives table ts tree) : tree.Named := by
  cases h with
  | leaf hl => exact hl.named
  | binary op hl hr => exact ⟨hl.named, hr.named⟩
  | call hname hsignature has hcount =>
    cases has with
    | nothing => exact fun a ha => absurd ha List.not_mem_nil
    | arguments has => exact has.named

end Derived

theorem Tree.ofText_named (table : Signatures) (text : String) :
    (Tree.ofText table text).Named := by
  unfold Tree.ofText
  split
  · next tree hparsed =>
    obtain ⟨ts, hts, htree⟩ := exists_of_bind_ok hparsed
    exact (derives_of_read (tokens_read hts) htree).named
  · trivial

end Formula

/-! ## 2. Another snapshot -/

namespace Workbook

variable {w : Workbook} {s : Snapshot} {key : String}

/-- The workbook over another snapshot. -/
def withSnapshot (w : Workbook) (s : Snapshot) : Workbook :=
  { w with snapshot := s }

/-- The snapshot has the same cell as the workbook, or none as well, at every key that the key leads
    to in the workbook. -/
def SameCells (w : Workbook) (s : Snapshot) (key : String) : Prop :=
  ∀ k, w.Reaches key k → (w.withSnapshot s).cell? k = w.cell? k

theorem SameCells.self (h : w.SameCells s key) : (w.withSnapshot s).cell? key = w.cell? key :=
  h key .refl

theorem SameCells.read {read : String} (h : w.SameCells s key) (hr : w.Reads key read) :
    w.SameCells s read :=
  fun k hk => h k (.head hr hk)

theorem formula?_withSnapshot (h : (w.withSnapshot s).cell? key = w.cell? key) :
    (w.withSnapshot s).formula? key = w.formula? key := by
  rw [formula?, formula?, h]
  rfl

theorem reads_withSnapshot (h : (w.withSnapshot s).cell? key = w.cell? key) :
    (w.withSnapshot s).reads key = w.reads key := by
  rw [reads, reads, formula?_withSnapshot h]

theorem reads_withSnapshot_iff {read : String} (h : (w.withSnapshot s).cell? key = w.cell? key) :
    (w.withSnapshot s).Reads key read ↔ w.Reads key read := by
  rw [← mem_reads_iff, ← mem_reads_iff, reads_withSnapshot h]

/-- The key leads to the same keys over both snapshots. -/
theorem SameCells.reaches_iff (h : w.SameCells s key) {k : String} :
    (w.withSnapshot s).Reaches key k ↔ w.Reaches key k := by
  constructor
  · intro hk
    induction hk with
    | refl => exact .refl
    | tail _ hread ih => exact ih.tail ((reads_withSnapshot_iff (h _ ih)).mp hread)
  · intro hk
    induction hk with
    | refl => exact .refl
    | tail hmid hread ih => exact ih.tail ((reads_withSnapshot_iff (h _ hmid)).mpr hread)

/-! ## 3. Values of formulas -/

section Values

variable {value : String → Value} {sheet : String}

/-- Where a sheet has a cell, the snapshot has the sheet. -/
theorem has_of_cell? {name : String} {column row : Int} {p : String × Cell}
    (h : w.cell? (name ++ "!" ++ plainReference column row) = some p) :
    w.snapshot.sheets.has name = true := by
  simp only [cell?, splitKey?_plain, Option.bind_eq_bind, Option.bind_some, Snapshot.cell?,
    Option.bind_eq_some_iff] at h
  obtain ⟨c, ⟨sh, hsheet, -⟩, -⟩ := h
  rw [Listing.has, hsheet]
  rfl

/-- What is read has the same cell over both snapshots, and counts for nothing where it has none. -/
def Agrees (w : Workbook) (s : Snapshot) (value : String → Value) (read : String) : Prop :=
  (w.withSnapshot s).cell? read = w.cell? read ∧ (w.cell? read = none → value read = .blank)

/-- An operand has the same value over both snapshots. Whether the sheet of a reference is there is
    asked of each by itself, but matters only where it has the cell. -/
theorem leafValue_withSnapshot {l : Leaf} (hnamed : l.Named)
    (h : ∀ read ∈ l.keys sheet, w.Agrees s value read) :
    (w.withSnapshot s).leafValue value sheet l = w.leafValue value sheet l := by
  cases l with
  | literal _ => rfl
  | cell a =>
    obtain ⟨hsame, hblank⟩ := h (a.key sheet) List.mem_cons_self
    rw [leafValue, leafValue]
    cases ha : a.sheet with
    | none => rfl
    | some name =>
      have hkey : a.key sheet = name ++ "!" ++ plainReference a.column a.row := by
        have hname : name ≠ "" := fun hempty => hnamed (hempty ▸ ha)
        rw [Address.key, Address.sheetOn, ha]
        simp only [if_neg hname]
        rfl
      cases hcell : w.cell? (a.key sheet) with
      | none =>
        rw [hblank hcell, ite_self, ite_self]
      | some p =>
        rw [hcell] at hsame
        rw [hkey] at hcell hsame
        have hhere : w.snapshot.sheets.has name = true := has_of_cell? hcell
        have hthere : (w.withSnapshot s).snapshot.sheets.has name = true := has_of_cell? hsame
        rw [Option.all_some, Option.all_some, hhere, hthere]

theorem argumentValue_withSnapshot {a : Argument} (hnamed : a.Named)
    (h : ∀ read ∈ a.keys sheet, w.Agrees s value read) :
    (w.withSnapshot s).argumentValue value sheet a = w.argumentValue value sheet a := by
  cases a with
  | leaf l => exact leafValue_withSnapshot hnamed h
  | range r => rfl

theorem treeValue_withSnapshot {t : Tree} (hnamed : t.Named)
    (h : ∀ read ∈ t.references sheet, w.Agrees s value read) :
    (w.withSnapshot s).treeValue value sheet t = w.treeValue value sheet t := by
  have hkeys : ∀ read ∈ t.keys sheet, w.Agrees s value read :=
    fun read hr => h read (Tree.mem_references_iff.mpr hr)
  cases t with
  | leaf l => rw [treeValue, treeValue, leafValue_withSnapshot hnamed hkeys]
  | binary op l r =>
    rw [treeValue, treeValue,
      leafValue_withSnapshot hnamed.1 fun read hr => hkeys read (List.mem_append_left _ hr),
      leafValue_withSnapshot hnamed.2 fun read hr => hkeys read (List.mem_append_right _ hr)]
  | call name args =>
    have hargs : args.map ((w.withSnapshot s).argumentValue value sheet) =
        args.map (w.argumentValue value sheet) :=
      List.map_congr_left fun a ha => argumentValue_withSnapshot (hnamed a ha) fun read hr =>
        hkeys read (List.mem_flatMap.mpr ⟨a, ha, hr⟩)
    rw [treeValue, treeValue, hargs]
    rfl
  | unsupported text fault => rfl

/-- **A key has the same value over both snapshots**, given the same values of what it reads. -/
theorem keyValue_withSnapshot (hkey : (w.withSnapshot s).cell? key = w.cell? key)
    (h : ∀ read ∈ w.reads key, w.Agrees s value read) :
    (w.withSnapshot s).keyValue value key = w.keyValue value key := by
  rw [keyValue, keyValue, formula?_withSnapshot hkey]
  cases hf : w.formula? key with
  | none =>
    rw [stored, stored, hkey]
  | some p =>
    obtain ⟨sheet, tree⟩ := p
    obtain ⟨c, -, -, rfl⟩ := formula?_eq_some hf
    rw [reads_of_formula? hf] at h
    exact treeValue_withSnapshot (Tree.ofText_named _ _) h

end Values

/-! ## 4. Outcomes -/

theorem Worth.eq_blank {v : Value} (h : w.Worth key v) (hc : w.cell? key = none) : v = .blank :=
  h.unique (.missing hc)

/-- What the key reads has the same cells over both snapshots, and its worth for its value. -/
theorem SameCells.agrees (h : w.SameCells s key) {value : String → Value}
    (hr : ∀ read ∈ w.reads key, w.Worth read (value read)) :
    ∀ read ∈ w.reads key, w.Agrees s value read :=
  fun read hread => ⟨(h.read (mem_reads_iff.mp hread)).self, (hr read hread).eq_blank⟩

/-- **The key is worth the same over the other snapshot.** -/
theorem Worth.withSnapshot {v : Value} (h : w.Worth key v) (hsame : w.SameCells s key) :
    (w.withSnapshot s).Worth key v := by
  induction h using Worth.byReads with
  | step key v value hr hv ih =>
    refine .of_keyValue value (fun read hread => ?_) ?_
    · rw [reads_withSnapshot hsame.self] at hread
      exact ih read hread (hsame.read (mem_reads_iff.mp hread))
    · rw [keyValue_withSnapshot hsame.self (hsame.agrees hr)]
      exact hv

/-- **A visit of the key stops with the same fault over the other snapshot.** -/
theorem Stops.withSnapshot {path : List String} {fault : Fault} (h : w.Stops path key fault)
    (hsame : w.SameCells s key) : (w.withSnapshot s).Stops path key fault := by
  induction h with
  | circle hp => exact .circle hp
  | own value hp hr hv =>
    refine .own value hp (fun read hread => ?_) ?_
    · rw [reads_withSnapshot hsame.self] at hread
      exact (hr read hread).withSnapshot (hsame.read (mem_reads_iff.mp hread))
    · rw [keyValue_withSnapshot hsame.self (hsame.agrees hr)]
      exact hv
  | @deeper path key read fault before after hp hs hb hbelow ih =>
    have hread : ∀ r ∈ before ++ [read], w.SameCells s r := by
      intro r hr
      refine hsame.read (mem_reads_iff.mp ?_)
      rw [hs]
      rcases List.mem_append.mp hr with hr | hr
      · exact List.mem_append_left _ hr
      · exact List.mem_append_right _ (List.mem_singleton.mp hr ▸ List.mem_cons_self)
    refine .deeper hp ((reads_withSnapshot hsame.self).trans hs) (fun r hr => ?_)
      (ih (hread read (List.mem_append_right _ (List.mem_singleton_self read))))
    obtain ⟨v, hv⟩ := hb r hr
    exact ⟨v, hv.withSnapshot (hread r (List.mem_append_left _ hr))⟩

theorem SameCells.resolve_eq (h : w.SameCells s key) :
    (((w.withSnapshot s).resolve key).run []).1 = ((w.resolve key).run []).1 := by
  obtain ⟨-, ⟨v, hv, hrun⟩ | ⟨fault, hstops, hrun⟩⟩ := w.resolve_cases key sound_nil
  · rw [hrun, ((hv.withSnapshot h).gives_resolve [] sound_nil).1]
  · rw [hrun, ((hstops.withSnapshot h).gives_resolve [] sound_nil).1]

/-- **What lies beyond what a reference leads to never matters.** Over two snapshots with the same
    cell, or none in both, at each key that the reference leads to in the first, asking for it has
    the same outcome, be it a value or a fault. -/
theorem cellValue_withSnapshot (w : Workbook) (s : Snapshot) (sheet ref : String)
    (h : ∀ key, refKey? sheet ref = some key → w.SameCells s key) :
    (((w.withSnapshot s).cellValue sheet ref).run []).1 = ((w.cellValue sheet ref).run []).1 := by
  rw [cellValue_eq, cellValue_eq]
  cases hkey : refKey? sheet ref with
  | none => rfl
  | some key => exact (h key hkey).resolve_eq

/-- Keys that are closed under reads hold all that any of them leads to. -/
theorem Reaches.mem {keys : List String} {k : String} (hk : w.Reaches key k) (hkey : key ∈ keys)
    (hclosed : ∀ k ∈ keys, ∀ read ∈ w.reads k, read ∈ keys) : k ∈ keys := by
  induction hk with
  | refl => exact hkey
  | tail _ hread ih => exact hclosed _ ih _ (mem_reads_iff.mpr hread)

/-- A sum over a stored value with a formula, a formula that reads a sheet that is not there, and
    one beyond the grammar. -/
def scattered : Workbook where
  snapshot := ⟨[("S", ⟨"S", [("A1", ⟨"A1", .number (.whole 2), some "=Z9"⟩),
    ("B1", ⟨"B1", .blank, some "=A1+Gone!A1"⟩), ("C1", ⟨"C1", .blank, some "=A1^2"⟩),
    ("D1", ⟨"D1", .blank, some "=SUM(A1:C1)"⟩)]⟩)]⟩
  library := .standard
  recompute := false

/-- The same cells in another order, among others, and the sheet with another cell. -/
def crowded : Snapshot :=
  ⟨[("Gone", ⟨"Gone", [("B9", ⟨"B9", .text "new", none⟩)]⟩),
    ("S", ⟨"S", [("Z9", ⟨"Z9", .number (.whole 7), none⟩),
      ("D1", ⟨"D1", .blank, some "=SUM(A1:C1)"⟩), ("C1", ⟨"C1", .blank, some "=A1^2"⟩),
      ("B1", ⟨"B1", .blank, some "=A1+Gone!A1"⟩),
      ("A1", ⟨"A1", .number (.whole 2), some "=Z9"⟩)]⟩)]⟩

theorem cellValue_withSnapshot_scattered :
    (∀ key, refKey? "S" "D1" = some key → scattered.SameCells crowded key) ∧
      (((scattered.withSnapshot crowded).cellValue "S" "D1").run []).1 =
        ((scattered.cellValue "S" "D1").run []).1 := by
  have hkey : refKey? "S" "D1" = some "S!D1" := by decide +kernel
  have hclosed : ∀ k ∈ ["S!D1", "S!A1", "S!B1", "S!C1", "Gone!A1"], ∀ read ∈ scattered.reads k,
      read ∈ ["S!D1", "S!A1", "S!B1", "S!C1", "Gone!A1"] := by decide +kernel
  have hcells : ∀ k ∈ ["S!D1", "S!A1", "S!B1", "S!C1", "Gone!A1"],
      (scattered.withSnapshot crowded).cell? k = scattered.cell? k := by decide +kernel
  have hsame : ∀ key, refKey? "S" "D1" = some key → scattered.SameCells crowded key := by
    intro key hroot k hk
    cases hkey.symm.trans hroot
    exact hcells k (hk.mem List.mem_cons_self hclosed)
  exact ⟨hsame, cellValue_withSnapshot scattered crowded "S" "D1" hsame⟩

end Workbook

end Appraisal
