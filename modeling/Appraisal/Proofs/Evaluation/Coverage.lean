import Appraisal.Evaluation.Coverage
import Appraisal.Proofs.Formula.Spreading
import Appraisal.Proofs.Graph.Reachability
import Appraisal.Proofs.Graph.Series
import Mathlib.Algebra.GroupWithZero.Nat
import Mathlib.Data.List.Dedup
import Mathlib.Data.List.Perm.Subperm

/-!
# What a coverage counts

The cells among one cell and all that it reads in the end are found by their keys, each key once. A
key that a formula mentions is in bare form, so that two of them name two cells. The given key may
be in another form and name one of those cells too; that cell is then counted twice.

* `Coverage.tally` — names counted one by one; `mem_tally`, `sum_tally`;
* `Workbook.foldl_cover` — **the coverage of formula cells in closed form**;
* `Coverage.Counts`, `Coverage.Attributed`, `Coverage.Within` — what a coverage says of cells, of
  the reasons that it names, and of a larger coverage;
* `BareKey`, `bareKey_of_mem_closure` — **what a cell reads in the end goes by bare keys**;
* `Workbook.below`, `Workbook.Alone` — the formula cells that are to be counted, each once, and
  when no other key names the given cell;
* `Workbook.coverage_below` — **what the coverage of a cell counts**.
-/

namespace Appraisal

open Appraisal.Text Appraisal.Formula

/-! ## 1. Tallies -/

namespace Coverage

section Tally

variable {gaps : Listing Nat} {name : String}

/-- The count of a name. -/
def countIn (gaps : Listing Nat) (name : String) : Nat :=
  (gaps.get? name).getD 0

/-- The names, each with the number of its occurrences. -/
def tally (names : List String) : Listing Nat :=
  names.foldl countGap []

theorem countIn_countGap (gaps : Listing Nat) (name other : String) :
    countIn (countGap gaps name) other = countIn gaps other + [name].count other := by
  unfold countIn countGap
  by_cases h : other = name
  · subst h
    rw [Listing.get?_put_self, List.count_singleton_self]
    rfl
  · rw [Listing.get?_put_of_ne _ h, List.count_singleton, if_neg (by simpa using Ne.symm h)]
    rfl

theorem countIn_foldl (gaps : Listing Nat) (names : List String) (name : String) :
    countIn (names.foldl countGap gaps) name = countIn gaps name + names.count name := by
  induction names generalizing gaps with
  | nil => rfl
  | cons first names ih =>
    rw [List.foldl_cons, ih, countIn_countGap, Nat.add_assoc, ← List.count_append]
    rfl

/-- A count that is written takes the place of the one before. -/
theorem sum_put (gaps : Listing Nat) (name : String) (n : Nat) :
    (gaps.put name n).entries.sum + countIn gaps name = gaps.entries.sum + n := by
  induction gaps with
  | nil => simp [Listing.put, Listing.entries, countIn]
  | cons e gaps ih =>
    obtain ⟨k, m⟩ := e
    simp only [Listing.entries, countIn] at ih
    by_cases hk : k = name
    · simp only [Listing.put, Listing.entries, countIn, Listing.get?, if_pos hk, List.map_cons,
        List.sum_cons, Option.getD_some]
      omega
    · simp only [Listing.put, Listing.entries, countIn, Listing.get?, if_neg hk, List.map_cons,
        List.sum_cons]
      omega

theorem sum_foldl (gaps : Listing Nat) (names : List String) :
    (names.foldl countGap gaps).entries.sum = gaps.entries.sum + names.length := by
  induction names generalizing gaps with
  | nil => rfl
  | cons name names ih =>
    have hput : (countGap gaps name).entries.sum + countIn gaps name =
        gaps.entries.sum + (countIn gaps name + 1) := sum_put gaps name _
    rw [List.foldl_cons, ih, List.length_cons]
    omega

theorem nodup_names_foldl (names : List String) (h : gaps.names.Nodup) :
    (names.foldl countGap gaps).names.Nodup := by
  induction names generalizing gaps with
  | nil => exact h
  | cons name names ih => exact ih (Listing.nodup_names_put h)

theorem countIn_tally (names : List String) (name : String) :
    countIn (tally names) name = names.count name := by
  rw [tally, countIn_foldl]
  exact Nat.zero_add _

theorem sum_tally (names : List String) : (tally names).entries.sum = names.length := by
  rw [tally, sum_foldl]
  exact Nat.zero_add _

/-- Each name is listed with the number of its occurrences. -/
theorem mem_tally {names : List String} {n : Nat} (h : (name, n) ∈ tally names) :
    n = names.count name := by
  have hnames : (tally names).names.Nodup := nodup_names_foldl names List.nodup_nil
  rw [← countIn_tally, countIn, Listing.get?_of_mem hnames h]
  rfl

theorem tally_eq_nil_iff {names : List String} : tally names = [] ↔ names = [] := by
  refine ⟨fun h => ?_, fun h => ?_⟩
  · have hsum := sum_tally names
    rw [h] at hsum
    exact List.length_eq_zero_iff.mp hsum.symm
  · rw [h]
    rfl

end Tally

/-! ## 2. Coverages of cells -/

/-- The counts of the reasons for formulas beyond the grammar: no reason if there is no such
    formula, some reason for each, and none counted more often than there are such formulas. -/
structure Attributed (c : Coverage) : Prop where
  nil_iff : c.gaps = [] ↔ c.supported = c.total
  le_sum : c.unsupported ≤ c.gaps.entries.sum
  le_unsupported : ∀ e ∈ c.gaps, e.2 ≤ c.unsupported

/-- No count of the first coverage exceeds that of the second. -/
structure Within (c d : Coverage) : Prop where
  total : c.total ≤ d.total
  supported : c.supported ≤ d.supported
  unsupported : c.unsupported ≤ d.unsupported
  gaps : ∀ name, countIn c.gaps name ≤ countIn d.gaps name

end Coverage

namespace Workbook

variable {w : Workbook} {key : String}

/-- The reasons for which a cell counts as beyond the grammar; none if it lies within. -/
def gapsOf (w : Workbook) (cell : Cell) : List String :=
  if (w.tree cell).isSupported then [] else w.gapNames cell.formulaText

theorem gapNames_ne_nil (w : Workbook) (formula : String) : w.gapNames formula ≠ [] := by
  unfold gapNames
  split
  · exact List.cons_ne_nil _ _
  · assumption

theorem nodup_gapNames (w : Workbook) (formula : String) : (w.gapNames formula).Nodup := by
  unfold gapNames
  split
  · exact List.nodup_singleton _
  · exact (Graph.nodup_eraseDups _).filter _

theorem gapsOf_eq_nil_iff {cell : Cell} :
    w.gapsOf cell = [] ↔ (w.tree cell).isSupported = true := by
  unfold gapsOf
  split
  · next h => exact ⟨fun _ => h, fun _ => rfl⟩
  · next h => exact ⟨fun hnil => absurd hnil (w.gapNames_ne_nil _), fun hin => absurd hin h⟩

theorem nodup_gapsOf (w : Workbook) (cell : Cell) : (w.gapsOf cell).Nodup := by
  unfold gapsOf
  split
  · exact List.nodup_nil
  · exact w.nodup_gapNames _

theorem cover_eq (w : Workbook) (c : Coverage) (cell : Cell) :
    w.cover c cell = ⟨c.total + 1, c.supported + [cell].countP fun x => (w.tree x).isSupported,
      (w.gapsOf cell).foldl Coverage.countGap c.gaps⟩ := by
  unfold cover gapsOf
  by_cases h : (w.tree cell).isSupported = true
  · rw [if_pos h, if_pos h, List.countP_singleton, if_pos h]
    rfl
  · rw [if_neg h, if_neg h, List.countP_singleton, if_neg h]
    rfl

/-- **The coverage of formula cells in closed form**: their number, the number of those within the
    grammar, and the tally of the reasons for the others. -/
theorem foldl_cover (w : Workbook) (c : Coverage) (cells : List Cell) :
    cells.foldl w.cover c =
      ⟨c.total + cells.length, c.supported + cells.countP fun x => (w.tree x).isSupported,
        (cells.flatMap w.gapsOf).foldl Coverage.countGap c.gaps⟩ := by
  induction cells generalizing c with
  | nil => rfl
  | cons cell cells ih =>
    rw [List.foldl_cons, ih, cover_eq, List.flatMap_cons, List.foldl_append, Nat.add_assoc,
      Nat.add_assoc, ← List.countP_append, List.length_cons, Nat.add_comm 1]
    rfl

/-- The coverage of some formula cells. -/
def covered (w : Workbook) (cells : List Cell) : Coverage :=
  cells.foldl w.cover Coverage.none

theorem covered_eq (w : Workbook) (cells : List Cell) :
    w.covered cells = ⟨cells.length, cells.countP fun x => (w.tree x).isSupported,
      Coverage.tally (cells.flatMap w.gapsOf)⟩ := by
  rw [covered, foldl_cover, Coverage.none, Nat.zero_add, Nat.zero_add]
  rfl

section Covered

variable {cells larger : List Cell}

/-- A reason is counted once for each cell that it is a reason for. -/
theorem count_gapsOf (w : Workbook) (cells : List Cell) (name : String) :
    (cells.flatMap w.gapsOf).count name = cells.countP fun x => decide (name ∈ w.gapsOf x) := by
  induction cells with
  | nil => rfl
  | cons cell cells ih =>
    rw [List.flatMap_cons, List.count_append, ih, (w.nodup_gapsOf cell).count, List.countP_cons,
      Nat.add_comm]
    simp only [decide_eq_true_eq]

theorem unsupported_covered (w : Workbook) (cells : List Cell) :
    (w.covered cells).unsupported = cells.countP fun x => !(w.tree x).isSupported := by
  have hsplit := List.length_eq_countP_add_countP (fun x => (w.tree x).isSupported) (l := cells)
  simp only [Bool.not_eq_true, Bool.decide_eq_false] at hsplit
  rw [covered_eq, Coverage.unsupported]
  exact Nat.sub_eq_of_eq_add' hsplit

theorem countIn_covered (w : Workbook) (cells : List Cell) (name : String) :
    Coverage.countIn (w.covered cells).gaps name =
      cells.countP fun x => decide (name ∈ w.gapsOf x) := by
  rw [covered_eq, Coverage.countIn_tally, count_gapsOf]

/-- Each cell beyond the grammar has a reason. -/
theorem countP_le_length_gapsOf (w : Workbook) (cells : List Cell) :
    (cells.countP fun x => !(w.tree x).isSupported) ≤ (cells.flatMap w.gapsOf).length := by
  induction cells with
  | nil => exact Nat.le_refl 0
  | cons cell cells ih =>
    rw [List.flatMap_cons, List.length_append, List.countP_cons, Nat.add_comm]
    refine Nat.add_le_add ?_ ih
    split
    · next h =>
      refine List.length_pos_iff.mpr fun hnil => ?_
      rw [gapsOf_eq_nil_iff.mp hnil] at h
      cases h
    · exact Nat.zero_le _

theorem covered_attributed (w : Workbook) (cells : List Cell) : (w.covered cells).Attributed where
  nil_iff := by
    rw [covered_eq]
    show Coverage.tally (cells.flatMap w.gapsOf) = [] ↔ cells.countP _ = cells.length
    rw [Coverage.tally_eq_nil_iff, List.flatMap_eq_nil_iff, List.countP_eq_length]
    exact forall₂_congr fun _ _ => gapsOf_eq_nil_iff
  le_sum := by
    rw [unsupported_covered, covered_eq, Coverage.sum_tally]
    exact countP_le_length_gapsOf w cells
  le_unsupported := by
    rintro ⟨name, n⟩ he
    rw [covered_eq] at he
    show n ≤ _
    rw [Coverage.mem_tally he, count_gapsOf, unsupported_covered]
    refine List.countP_mono_left fun cell _ hname => ?_
    rw [Bool.not_eq_true', ← Bool.not_eq_true, ← gapsOf_eq_nil_iff]
    exact List.ne_nil_of_mem (of_decide_eq_true hname)

/-- **More cells, larger counts.** -/
theorem covered_within (h : cells.Subperm larger) :
    (w.covered cells).Within (w.covered larger) where
  total := by
    rw [covered_eq, covered_eq]
    exact h.length_le
  supported := by
    rw [covered_eq, covered_eq]
    exact h.countP_le _
  unsupported := by
    rw [unsupported_covered, unsupported_covered]
    exact h.countP_le _
  gaps name := by
    rw [countIn_covered, countIn_covered]
    exact h.countP_le _

end Covered

end Workbook

/-- The counts of a coverage are those of the cells. -/
structure Coverage.Counts (w : Workbook) (c : Coverage) (cells : List Cell) : Prop where
  total : c.total = cells.length
  supported : c.supported = cells.countP fun x => (w.tree x).isSupported
  gaps : ∀ name, countIn c.gaps name = cells.countP fun x => decide (name ∈ w.gapsOf x)

theorem Workbook.covered_counts {w : Workbook} {cells others : List Cell}
    (h : cells.Perm others) : (w.covered cells).Counts w others where
  total := by
    rw [covered_eq]
    exact h.length_eq
  supported := by
    rw [covered_eq]
    exact h.countP_eq _
  gaps name := by
    rw [countIn_covered]
    exact h.countP_eq _

/-! ## 3. Bare keys -/

theorem eq_of_splitKey? {key sheet ref : String} (h : splitKey? key = some (sheet, ref)) :
    key = sheet ++ "!" ++ ref := by
  obtain ⟨⟨before, after⟩, hcut, heq⟩ := Option.map_eq_some_iff.mp h
  cases heq
  apply String.toList_inj.mp
  rw [(cutLast_eq_some_iff.mp hcut).1]
  simp

/-- A key whose reference is in bare form. -/
def BareKey (key : String) : Prop :=
  ∃ sheet ref, splitKey? key = some (sheet, ref) ∧ bareReference ref = ref

section BareKeys

variable {formula current key : String} {refs : List String} {g : Graph} {s : Snapshot}

theorem bareKey_cellKey {m : Spelling} (h : m.Sound isCaseLetter) :
    BareKey (cellKey current m) := by
  refine ⟨String.ofList (mentionedSheet m.sheet current), String.ofList (bareCell m.cell), ?_,
    bareReference_bareCell h.cell⟩
  have hcut : cutLast '!' (cellKey current m).toList =
      some (mentionedSheet m.sheet current, bareCell m.cell) := by
    rw [cutLast_eq_some_iff, cellKey, String.toList_ofList]
    exact ⟨rfl, not_mem_bareCell h.cell (by decide) (by decide)⟩
  rw [splitKey?, hcut]
  rfl

theorem bareKey_plain (sheet : String) (a : Address) : BareKey (sheet ++ "!" ++ a.plain) :=
  ⟨sheet, a.plain, splitKey?_plain sheet a.column a.row, bareReference_plain a.column a.row⟩

/-- The cells of a mentioned range go by bare keys. -/
theorem bareKey_of_mem_expandRange {m : Found (SheetPrefix × CellSpelling × CellSpelling)}
    (hm : m ∈ rangesIn (withoutTexts formula.toList))
    (h : expandRange (spanKey current m.item) = .ok refs) (hkey : key ∈ refs) : BareKey key := by
  obtain ⟨hfirst, hlast⟩ := corners_sound hm
  rw [expandRange_corners (p := m.item.1) hfirst hlast] at h
  obtain ⟨first, -, h⟩ := exists_of_bind_ok h
  obtain ⟨last, -, h⟩ := exists_of_bind_ok h
  cases h
  obtain ⟨a, -, rfl⟩ := List.mem_map.mp hkey
  exact bareKey_plain _ a

/-- **Formulas mention cells by bare keys.** -/
theorem bareKey_of_mem_allReferences (h : allReferences formula current = .ok refs)
    (hkey : key ∈ refs) : BareKey key := by
  obtain ⟨spread, hspread, h⟩ := exists_of_bind_ok h
  cases h
  rcases List.mem_append.mp (List.mem_eraseDups.mp hkey) with hcell | hrange
  · obtain ⟨m, hm, rfl⟩ := List.mem_map.mp (List.mem_eraseDups.mp hcell)
    obtain ⟨text, rest, hread⟩ := exists_read_of_mem_findAll (List.mem_filter.mp hm).1
    exact bareKey_cellKey (readMention?_sound hread)
  · obtain ⟨keys, hkeys, hkey⟩ := List.mem_flatten.mp hrange
    obtain ⟨span, hspan, hexpand⟩ := exists_of_mem_mapM hspread hkeys
    obtain ⟨m, hm, rfl⟩ := mem_mentionedRanges.mp hspan
    exact bareKey_of_mem_expandRange hm hexpand hkey

theorem bareKey_of_mem_reads (hg : Graph.ofSnapshot s = .ok g) {cell : String}
    (h : key ∈ g.reads cell) : BareKey key := by
  rw [Graph.ofSnapshot_eq] at hg
  obtain ⟨r, -, -, refs, hrefs, hkey⟩ := (Graph.mem_reads_of_empty hg).mp h
  exact bareKey_of_mem_allReferences hrefs hkey

/-- **What a cell reads in the end goes by bare keys.** -/
theorem bareKey_of_mem_closure (hg : Graph.ofSnapshot s = .ok g) {cell : String}
    (h : key ∈ g.closure cell) : BareKey key := by
  cases Graph.mem_closure_iff.mp h with
  | single hread => exact bareKey_of_mem_reads hg hread
  | tail _ hread => exact bareKey_of_mem_reads hg hread

end BareKeys

/-! ## 4. Placed cells -/

/-- A formula cell and where it is found. -/
structure Placed where
  /-- The name of its sheet. -/
  sheet : String
  /-- The bare reference that it is found under. -/
  ref : String
  /-- The cell. -/
  cell : Cell
deriving DecidableEq

namespace Workbook

variable {w : Workbook} {g : Graph} {key x y : String} {p : Placed}

/-- The formula cell that a key names, if there is one. -/
def placed? (w : Workbook) (key : String) : Option Placed := do
  let (sheet, ref) ← splitKey? key
  let cell ← (w.snapshot.cell? sheet ref).filter Cell.hasFormula
  some ⟨sheet, bareReference ref, cell⟩

/-- All formula cells of a workbook. -/
def placedCells (w : Workbook) : List Placed :=
  w.snapshot.sheets.flatMap fun s =>
    (s.2.cells.filter fun c => c.2.hasFormula).map fun c => ⟨s.1, c.1, c.2⟩

theorem map_cell_placedCells (w : Workbook) : w.placedCells.map (·.cell) = w.formulaCells := by
  unfold placedCells formulaCells Sheet.formulaCells Listing.entries
  rw [List.map_flatMap]
  refine List.flatMap_congr fun s _ => ?_
  rw [List.map_map, List.filter_map]
  rfl

/-- The place of a cell decides which cell it is. -/
theorem placed?_eq_some_iff : w.placed? key = some p ↔
    ∃ ref, splitKey? key = some (p.sheet, ref) ∧ bareReference ref = p.ref ∧
      ((w.snapshot.sheets.get? p.sheet).bind fun s => s.cells.get? p.ref) = some p.cell ∧
      p.cell.hasFormula = true := by
  unfold placed? Snapshot.cell?
  simp only [Option.bind_eq_bind, Option.bind_eq_some_iff, Option.filter_eq_some_iff, Prod.exists]
  constructor
  · rintro ⟨sheet, ref, hsplit, cell, ⟨hcell, hformula⟩, heq⟩
    cases heq
    exact ⟨ref, hsplit, rfl, hcell, hformula⟩
  · rintro ⟨ref, hsplit, hbare, hcell, hformula⟩
    rw [← hbare] at hcell
    refine ⟨p.sheet, ref, hsplit, p.cell, ⟨hcell, hformula⟩, ?_⟩
    rw [hbare]

theorem mem_placedCells (h : w.placed? key = some p) : p ∈ w.placedCells := by
  obtain ⟨-, -, -, hcell, hformula⟩ := placed?_eq_some_iff.mp h
  obtain ⟨s, hs, hcell⟩ := Option.bind_eq_some_iff.mp hcell
  refine List.mem_flatMap.mpr ⟨(p.sheet, s), Listing.mem_of_get? hs, List.mem_map.mpr ?_⟩
  exact ⟨(p.ref, p.cell), List.mem_filter.mpr ⟨Listing.mem_of_get? hcell, hformula⟩, rfl⟩

/-- **Two bare keys do not name one cell.** -/
theorem eq_of_placed? (hx : BareKey x) (hy : BareKey y) (hplaced : w.placed? x = some p)
    (hplaced' : w.placed? y = some p) : x = y := by
  have hkey : ∀ z, BareKey z → w.placed? z = some p → z = p.sheet ++ "!" ++ p.ref := by
    rintro z ⟨sheet, ref, hsplit, hbare⟩ hz
    obtain ⟨ref', hsplit', hbare', -⟩ := placed?_eq_some_iff.mp hz
    rw [hsplit] at hsplit'
    cases hsplit'
    rw [← hbare', hbare]
    exact eq_of_splitKey? hsplit
  rw [hkey x hx hplaced, hkey y hy hplaced']

theorem nodup_filterMap_placed? {keys : List String} (hkeys : keys.Nodup)
    (hbare : ∀ x ∈ keys, BareKey x) : (keys.filterMap w.placed?).Nodup := by
  refine List.pairwise_filterMap.mpr (hkeys.imp_of_mem fun hx hy hne p hp q hq heq => ?_)
  subst heq
  exact hne (eq_of_placed? (hbare _ hx) (hbare _ hy) hp hq)

theorem formulaCell_eq {part : String × String} (h : splitKey? key = some part) :
    w.formulaCell key = .ok ((w.placed? key).map (·.cell)) := by
  obtain ⟨sheet, ref⟩ := part
  unfold formulaCell placed?
  rw [h]
  simp only [Option.bind_eq_bind, Option.bind_some]
  cases (w.snapshot.cell? sheet ref).filter Cell.hasFormula with
  | none => rfl
  | some cell => rfl

/-! ## 5. The cells below a cell -/

/-- The formula cells among a cell and all that it reads in the end, each once. -/
def below (w : Workbook) (g : Graph) (key : String) : List Placed :=
  ((key :: g.closure key).filterMap w.placed?).dedup

/-- The formula cell that a key names is not read in the end by that key under another one. -/
def Alone (w : Workbook) (g : Graph) (key : String) : Prop :=
  ∀ x ∈ g.closure key, x ≠ key → ∀ p, w.placed? key = some p → w.placed? x ≠ some p

/-- The formula cells that a cell reads in the end by other keys than its own. -/
def others (w : Workbook) (g : Graph) (key : String) : List Placed :=
  ((g.closure key).filter (· ≠ key)).filterMap w.placed?

theorem nodup_others (hg : Graph.ofSnapshot w.snapshot = .ok g) : (w.others g key).Nodup :=
  nodup_filterMap_placed? ((Graph.nodup_closure g key).filter _) fun _ hx =>
    bareKey_of_mem_closure hg (List.mem_filter.mp hx).1

theorem mem_others : p ∈ w.others g key ↔
    ∃ x ∈ g.closure key, x ≠ key ∧ w.placed? x = some p := by
  unfold others
  simp only [List.mem_filterMap, List.mem_filter, decide_eq_true_eq, and_assoc]

theorem nodup_below (w : Workbook) (g : Graph) (key : String) : (w.below g key).Nodup :=
  List.nodup_dedup _

theorem mem_below : p ∈ w.below g key ↔ w.placed? key = some p ∨ p ∈ w.others g key := by
  rw [below, List.mem_dedup, List.mem_filterMap, List.exists_mem_cons_iff, mem_others]
  refine or_congr_right' fun hkey => exists_congr fun x => ?_
  refine and_congr_right fun _ => ⟨fun hx => ⟨?_, hx⟩, fun hx => hx.2⟩
  rintro rfl
  exact hkey hx

theorem alone_iff : w.Alone g key ↔ ∀ p, w.placed? key = some p → p ∉ w.others g key := by
  refine ⟨fun h p hp hin => ?_, fun h x hx hne p hp hplaced => ?_⟩
  · obtain ⟨x, hx, hne, hplaced⟩ := mem_others.mp hin
    exact h x hx hne p hp hplaced
  · exact h p hp (mem_others.mpr ⟨x, hx, hne, hplaced⟩)

/-- The formula cells that are counted: those of all keys, each key once. -/
def counted (w : Workbook) (g : Graph) (key : String) : List Placed :=
  (withReads g key).filterMap w.placed?

theorem counted_perm (w : Workbook) (g : Graph) (key : String) :
    (w.counted g key).Perm ((w.placed? key).toList ++ w.others g key) := by
  refine ((sorted_perm _).filterMap _).trans ?_
  rw [List.filterMap_cons]
  cases w.placed? key with
  | none => exact .refl _
  | some p => exact .refl _

/-- **The cells below a cell that no other key names are counted once each.** -/
theorem Alone.counted_perm (h : w.Alone g key) (hg : Graph.ofSnapshot w.snapshot = .ok g) :
    (w.counted g key).Perm (w.below g key) := by
  have hnodup : ((w.placed? key).toList ++ w.others g key).Nodup := by
    cases hp : w.placed? key with
    | none => exact nodup_others hg
    | some p => exact List.nodup_cons.mpr ⟨alone_iff.mp h p hp, nodup_others hg⟩
  refine (w.counted_perm g key).trans ?_
  refine (List.perm_ext_iff_of_nodup hnodup (nodup_below w g key)).mpr fun p => ?_
  rw [mem_below, List.mem_append, Option.mem_toList]

/-- **A cell that another key names too is counted twice.** -/
theorem counted_perm_of_not_alone (hg : Graph.ofSnapshot w.snapshot = .ok g)
    (h : ¬ w.Alone g key) : ∃ p ∈ w.below g key, w.placed? key = some p ∧
      (w.counted g key).Perm (p :: w.below g key) := by
  rw [alone_iff] at h
  push Not at h
  obtain ⟨p, hp, hin⟩ := h
  have hothers : (w.others g key).Perm (w.below g key) := by
    refine (List.perm_ext_iff_of_nodup (nodup_others hg) (nodup_below w g key)).mpr fun q => ?_
    refine ⟨fun hq => mem_below.mpr (Or.inr hq), fun hq => (mem_below.mp hq).elim ?_ id⟩
    intro hkey
    rw [hp] at hkey
    cases hkey
    exact hin
  have hcounted := w.counted_perm g key
  rw [hp] at hcounted
  exact ⟨p, mem_below.mpr (Or.inl hp), hp, hcounted.trans (hothers.cons p)⟩

/-- No other key names the cell of a bare key. -/
theorem alone_of_bareKey (hg : Graph.ofSnapshot w.snapshot = .ok g) (h : BareKey key) :
    w.Alone g key := fun _ hx hne _ hp hplaced =>
  hne (eq_of_placed? (bareKey_of_mem_closure hg hx) h hplaced hp)

/-- A key that is read from is that of a formula cell. -/
theorem exists_keyOf_eq (hg : Graph.ofSnapshot w.snapshot = .ok g) (hx : x ∈ g.closure key) :
    ∃ p ∈ Graph.formulaCells w.snapshot, Graph.keyOf p = key := by
  obtain ⟨y, hread⟩ : ∃ y, y ∈ g.reads key := by
    obtain ⟨y, hread, -⟩ := Relation.TransGen.head'_iff.mp (Graph.mem_closure_iff.mp hx)
    exact ⟨y, hread⟩
  rw [Graph.ofSnapshot_eq] at hg
  obtain ⟨r, hr, hcell, -⟩ := (Graph.mem_reads_of_empty hg).mp hread
  obtain ⟨p, hp, rfl⟩ := List.mem_map.mp (Graph.standing_subset _ r hr)
  exact ⟨p, hp, hcell⟩

/-- Each formula cell is noted under a bare reference. -/
def Bare (w : Workbook) : Prop :=
  ∀ p ∈ Graph.formulaCells w.snapshot,
    '!' ∉ p.2.address.toList ∧ bareReference p.2.address = p.2.address

/-- **Where all formula cells are noted under bare references, no key counts a cell twice.** -/
theorem Bare.alone (h : w.Bare) (hg : Graph.ofSnapshot w.snapshot = .ok g) (key : String) :
    w.Alone g key := by
  intro x hx
  obtain ⟨p, hp, rfl⟩ := exists_keyOf_eq hg hx
  obtain ⟨hmark, hbare⟩ := h p hp
  exact alone_of_bareKey hg ⟨p.1, p.2.address, splitKey?_append hmark, hbare⟩ x hx

/-- The cells below a cell are among all formula cells. -/
theorem below_subperm (w : Workbook) (g : Graph) (key : String) :
    ((w.below g key).map (·.cell)).Subperm w.formulaCells := by
  have hsubset : ∀ p ∈ w.below g key, p ∈ w.placedCells := by
    intro p hp
    obtain ⟨x, -, hx⟩ := List.mem_filterMap.mp (List.mem_dedup.mp hp)
    exact mem_placedCells hx
  obtain ⟨part, hperm, hpart⟩ := List.subperm_of_subset (nodup_below w g key) hsubset
  rw [← map_cell_placedCells]
  exact ⟨part.map (·.cell), hperm.map _, hpart.map _⟩

/-! ## 6. The coverage of a cell -/

/-- A key without a sheet has no coverage. -/
theorem exists_splitKey? {c : Coverage} (h : w.coverage (some key) = .ok c) :
    ∃ part, splitKey? key = some part := by
  obtain ⟨cells, hcells, -⟩ := exists_of_bind_ok h
  obtain ⟨g, -, hcells⟩ := exists_of_bind_ok hcells
  obtain ⟨found, hfound, -⟩ := exists_of_bind_ok hcells
  refine Option.ne_none_iff_exists'.mp fun hnone => ?_
  have hkey : key ∈ withReads g key := mem_sorted.mpr List.mem_cons_self
  have hfault : ¬ ∀ x ∈ withReads g key, ∃ cell, w.formulaCell x = .ok cell := by
    intro hall
    obtain ⟨cell, hcell⟩ := hall key hkey
    unfold formulaCell at hcell
    rw [hnone] at hcell
    cases hcell
  obtain ⟨-, -, fault, -, herror⟩ := exists_mapM_error hfault
  rw [herror] at hfound
  cases hfound

/-- The coverage of a cell is that of the cells that its keys find. -/
theorem coverage_eq (hg : Graph.ofSnapshot w.snapshot = .ok g) {part : String × String}
    (h : splitKey? key = some part) :
    w.coverage (some key) =
      .ok (w.covered ((w.counted g key).map (·.cell))) := by
  have hkeys : ∀ x ∈ withReads g key, w.formulaCell x = .ok ((w.placed? x).map (·.cell)) := by
    intro x hx
    rcases List.mem_cons.mp (mem_sorted.mp hx) with rfl | hx
    · exact formulaCell_eq h
    · obtain ⟨sheet, ref, hsplit, -⟩ := bareKey_of_mem_closure hg (List.mem_filter.mp hx).1
      exact formulaCell_eq hsplit
  unfold coverage formulaCellsBelow
  simp only [hg, bind, Except.bind, mapM_eq_ok_map hkeys]
  rw [List.filterMap_map, counted, List.map_filterMap]
  rfl

/-- **What the coverage of a cell counts.** The reasons that it names are counted as often as there
    are formulas beyond the grammar that they are a reason for. The formula cells among the cell and
    all that it reads in the end are counted once each exactly if the cell is read by no other key,
    and then no count exceeds that of all formula cells; else the cell is counted twice. A bare key
    is the only one of its cell, and any key is if all formula cells are noted under bare
    references. -/
theorem coverage_below {c : Coverage} (h : w.coverage (some key) = .ok c) :
    ∃ g whole, Graph.ofSnapshot w.snapshot = .ok g ∧ w.coverage none = .ok whole ∧
      c.Attributed ∧
      (c.total = (w.below g key).length ↔ w.Alone g key) ∧
      (w.Alone g key → c.Counts w ((w.below g key).map (·.cell)) ∧ c.Within whole) ∧
      (¬ w.Alone g key → ∃ p ∈ w.below g key, w.placed? key = some p ∧
        c.Counts w (p.cell :: (w.below g key).map (·.cell))) ∧
      (BareKey key ∨ w.Bare → w.Alone g key) := by
  obtain ⟨cells, hcells, -⟩ := exists_of_bind_ok h
  obtain ⟨g, hg, -⟩ := exists_of_bind_ok hcells
  obtain ⟨part, hpart⟩ := exists_splitKey? h
  rw [coverage_eq hg hpart] at h
  cases h
  refine ⟨g, w.covered w.formulaCells, hg, rfl, w.covered_attributed _, ⟨fun htotal => ?_,
    fun halone => ?_⟩, fun halone => ?_, fun hnot => ?_, fun hbare => ?_⟩
  · by_contra hnot
    obtain ⟨p, -, -, hperm⟩ := counted_perm_of_not_alone hg hnot
    have htwice := (covered_counts (w := w) (hperm.map (·.cell))).total
    rw [htotal, List.length_map, List.length_cons] at htwice
    exact absurd htwice (Nat.ne_of_lt (Nat.lt_succ_self _))
  · rw [covered_eq]
    exact (List.length_map _).trans (halone.counted_perm hg).length_eq
  · have hperm := (halone.counted_perm hg).map (·.cell)
    exact ⟨covered_counts hperm, covered_within (hperm.subperm.trans (below_subperm w g key))⟩
  · obtain ⟨p, hp, hplaced, hperm⟩ := counted_perm_of_not_alone hg hnot
    exact ⟨p, hp, hplaced, covered_counts (hperm.map (·.cell))⟩
  · exact hbare.elim (alone_of_bareKey hg) fun hbare => hbare.alone hg key

/-- A cell that reads another one, which reads it, and one that is not there. -/
def meshedCells : Workbook :=
  ⟨⟨[("S", ⟨"S", [("A1", ⟨"A1", .blank, some "=SUM(B1:C1)"⟩),
    ("B1", ⟨"B1", .blank, some "=FOO(A1)"⟩), ("D1", ⟨"D1", .blank, some "=BAR(A1)"⟩)]⟩)]⟩,
    .standard, false⟩

theorem coverage_below_meshedCells : ∃ g c whole,
    Graph.ofSnapshot meshedCells.snapshot = .ok g ∧
      meshedCells.coverage (some "S!A1") = .ok c ∧ meshedCells.coverage none = .ok whole ∧
      c.total = (meshedCells.below g "S!A1").length ∧ c.Within whole := by
  obtain ⟨g, hg⟩ := exists_of_toOption
    (show (Graph.ofSnapshot meshedCells.snapshot).toOption.isSome = true by decide +kernel)
  have hsplit : splitKey? "S!A1" = some ("S", "A1") := by decide
  have hbare : BareKey "S!A1" := ⟨"S", "A1", hsplit, by decide⟩
  have hc := coverage_eq hg hsplit
  obtain ⟨g', whole, hg', hwhole, -, htotal, hcounts, -, halone⟩ := coverage_below hc
  have hs := halone (Or.inl hbare)
  exact ⟨g', _, whole, hg', hc, hwhole, htotal.mpr hs, (hcounts hs).2⟩

/-- A cell noted under a reference with an exclamation mark, which reads a cell of a sheet whose
    name has one. -/
def marked : Workbook :=
  ⟨⟨[("S", ⟨"S", [("X! A1", ⟨"X! A1", .blank, some "='S!X'!A1"⟩)]⟩),
    ("S!X", ⟨"S!X", [("A1", ⟨"A1", .blank, some "=FOO(1)"⟩)]⟩)]⟩, .standard, false⟩

/-- **The key of the first cell names the second one too, which is counted twice**: there are more
    formulas beyond the grammar below it than in the workbook. -/
theorem coverage_marked : ∃ g c whole, Graph.ofSnapshot marked.snapshot = .ok g ∧
    marked.coverage (some "S!X! A1") = .ok c ∧ marked.coverage none = .ok whole ∧
      (marked.below g "S!X! A1").length < c.total ∧ whole.unsupported < c.unsupported ∧
      Coverage.countIn whole.gaps "FOO" < Coverage.countIn c.gaps "FOO" := by
  have hgraph : (Graph.ofSnapshot marked.snapshot).toOption.isSome = true ∧
      (Graph.ofSnapshot marked.snapshot).toOption.all
        (fun g => decide ("S!X!A1" ∈ g.reads "S!X! A1")) = true := by decide +kernel
  have hplaced : ∃ p, marked.placed? "S!X! A1" = some p ∧ marked.placed? "S!X!A1" = some p ∧
      (marked.tree p.cell).isSupported = false ∧ "FOO" ∈ marked.gapsOf p.cell :=
    ⟨⟨"S!X", "A1", ⟨"A1", .blank, some "=FOO(1)"⟩⟩, by decide +kernel⟩
  have hwhole : (marked.covered marked.formulaCells).unsupported < 2 ∧
      Coverage.countIn (marked.covered marked.formulaCells).gaps "FOO" < 2 := by decide +kernel
  obtain ⟨p, hp, hp', hbeyond, hgap⟩ := hplaced
  obtain ⟨g, hg⟩ := exists_of_toOption hgraph.1
  have hread := hgraph.2
  rw [hg] at hread
  have hnot : ¬ marked.Alone g "S!X! A1" := fun halone =>
    halone "S!X!A1" (Graph.mem_closure_iff.mpr (.single (of_decide_eq_true hread))) (by decide)
      p hp hp'
  obtain ⟨q, hq, hkey, hperm⟩ := counted_perm_of_not_alone hg hnot
  rw [hp] at hkey
  cases hkey
  have hcells := hperm.map (·.cell)
  have htwice : ∀ f : Cell → Bool, f p.cell = true →
      2 ≤ ((marked.counted g "S!X! A1").map (·.cell)).countP f := by
    intro f hf
    have hpos : 0 < ((marked.below g "S!X! A1").map (·.cell)).countP f :=
      List.countP_pos_iff.mpr ⟨p.cell, List.mem_map_of_mem hq, hf⟩
    rw [hcells.countP_eq, List.map_cons, List.countP_cons_of_pos hf]
    omega
  refine ⟨g, _, _, hg, coverage_eq hg (show _ = some ("S!X", " A1") by decide), rfl, ?_, ?_, ?_⟩
  · rw [covered_eq, hcells.length_eq]
    exact Nat.lt_succ_of_le (List.length_map _).ge
  · refine Nat.lt_of_lt_of_le hwhole.1 ?_
    rw [unsupported_covered]
    exact htwice _ (by rw [hbeyond]; rfl)
  · refine Nat.lt_of_lt_of_le hwhole.2 ?_
    rw [countIn_covered]
    exact htwice _ (decide_eq_true hgap)

end Workbook

end Appraisal
