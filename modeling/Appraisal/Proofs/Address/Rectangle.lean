import Appraisal.Proofs.Address.Named
import Appraisal.Proofs.Checked
import Mathlib.Data.List.Basic

/-!
# Rectangles cell by cell

The cells of a range come row by row, each once, and it makes no difference which two opposite
corners the range is given by. A text that spells a range can be spread out by way of the addresses
between its corners, or by way of the references between its ends, and both name the same cells in
the same order.

* `Address.Precedes`, `CellRange.pairwise_addresses` — **row by row, and from left to right**;
* `CellRange.Turned`, `Turned.addresses_eq` — a range by two other opposite corners;
* `CellRange.Spans`, `addresses_stack` — a rectangle is **its upper rows and then its lower rows**;
* `spelledRange`, `readRange?_spelled` — a spelled range, and the corners that it is read by;
* `expandRange_of_cells`, `mapM_written_addresses` — the references that it spreads to, and the
  texts of its addresses;
* `CellRange.addresses_enumerate` — **the cells between the corners, each once and row by row**, and
  a spelled range spreads to their texts.
-/

namespace Appraisal

open Appraisal.Text Appraisal.Formula

/-! ## 1. Row by row -/

/-- The order of reading: row by row, and from left to right within a row. -/
def Address.Precedes (a b : Address) : Prop :=
  a.row < b.row ∨ a.row = b.row ∧ a.column < b.column

theorem Address.Precedes.ne {a b : Address} (h : a.Precedes b) : a ≠ b := by
  rintro rfl
  rcases h with h | ⟨-, h⟩
  · exact Int.lt_irrefl _ h
  · exact Int.lt_irrefl _ h

theorem pairwise_between (low high : Int) : (between low high).Pairwise (· < ·) := by
  unfold between
  rw [List.pairwise_map]
  exact List.pairwise_lt_range.imp fun hlt => by omega

/-- Whole numbers up to a bound go on with those beyond it. -/
theorem between_append {low mid high : Int} (h₁ : low ≤ mid + 1) (h₂ : mid ≤ high) :
    between low high = between low mid ++ between (mid + 1) high := by
  have hcount : (high + 1 - low).toNat = (mid + 1 - low).toNat + (high + 1 - (mid + 1)).toNat := by
    omega
  unfold between
  rw [hcount, List.range_add, List.map_append, List.map_map]
  refine congrArg _ (List.map_congr_left fun i _ => ?_)
  show low + (((mid + 1 - low).toNat + i : Nat) : Int) = mid + 1 + (i : Int)
  omega

namespace CellRange

/-- **The cells of a range come row by row, and from left to right within a row.** -/
theorem pairwise_addresses (r : CellRange) : r.addresses.Pairwise Address.Precedes := by
  unfold addresses
  rw [List.pairwise_flatMap]
  refine ⟨fun row _ => ?_, (pairwise_between _ _).imp fun hrows a ha b hb => ?_⟩
  · rw [List.pairwise_map]
    exact (pairwise_between _ _).imp fun hcolumns => Or.inr ⟨rfl, hcolumns⟩
  · obtain ⟨column, -, rfl⟩ := List.mem_map.mp ha
    obtain ⟨column', -, rfl⟩ := List.mem_map.mp hb
    exact Or.inl hrows

theorem nodup_addresses (r : CellRange) : r.addresses.Nodup :=
  r.pairwise_addresses.imp Address.Precedes.ne

/-! ## 2. Corners -/

/-- The other range is on the same sheet, and between the same two columns and the same two rows,
    each pair in either order. -/
structure Turned (r r' : CellRange) : Prop where
  sheet : r'.first.sheet = r.first.sheet
  columns : (r'.first.column, r'.last.column) = (r.first.column, r.last.column) ∨
    (r'.first.column, r'.last.column) = (r.last.column, r.first.column)
  rows : (r'.first.row, r'.last.row) = (r.first.row, r.last.row) ∨
    (r'.first.row, r'.last.row) = (r.last.row, r.first.row)

theorem min_max_of_swapped {x y x' y' : Int} (h : (x', y') = (x, y) ∨ (x', y') = (y, x)) :
    min x' y' = min x y ∧ max x' y' = max x y := by
  rcases h with h | h
  · cases h
    exact ⟨rfl, rfl⟩
  · cases h
    exact ⟨Int.min_comm y x, Int.max_comm y x⟩

/-- **Any two opposite corners give the same cells.** -/
theorem Turned.addresses_eq {r r' : CellRange} (h : r.Turned r') : r'.addresses = r.addresses := by
  obtain ⟨hleft, hright⟩ := min_max_of_swapped h.columns
  obtain ⟨htop, hbottom⟩ := min_max_of_swapped h.rows
  have hnormalized : r'.normalized = r.normalized := by
    unfold normalized
    rw [h.sheet, hleft, hright, htop, hbottom]
  unfold addresses
  rw [hnormalized]

/-- The range is the rectangle between two columns and two rows on a sheet, by whichever corners. -/
def Spans (r : CellRange) (sheet : Option String) (left top right bottom : Int) : Prop :=
  r.normalized = ⟨unmarked sheet left top, unmarked sheet right bottom⟩

instance (r : CellRange) (sheet : Option String) (left top right bottom : Int) :
    Decidable (r.Spans sheet left top right bottom) :=
  inferInstanceAs (Decidable (_ = _))

theorem Spans.addresses_eq {r : CellRange} {sheet : Option String} {left top right bottom : Int}
    (h : r.Spans sheet left top right bottom) :
    r.addresses = (between top bottom).flatMap fun row =>
      (between left right).map fun column => unmarked sheet column row := by
  unfold addresses
  rw [h]
  rfl

theorem Spans.top_le {r : CellRange} {sheet : Option String} {left top right bottom : Int}
    (h : r.Spans sheet left top right bottom) : top ≤ bottom := by
  have htop : min r.first.row r.last.row = top := congrArg (·.first.row) h
  have hbottom : max r.first.row r.last.row = bottom := congrArg (·.last.row) h
  omega

/-- **A rectangle is its upper rows and then its lower rows.** -/
theorem addresses_stack {r upper lower : CellRange} {sheet : Option String}
    {left top right middle bottom : Int} (hr : r.Spans sheet left top right bottom)
    (hupper : upper.Spans sheet left top right middle)
    (hlower : lower.Spans sheet left (middle + 1) right bottom) :
    r.addresses = upper.addresses ++ lower.addresses := by
  have htop := hupper.top_le
  have hbottom := hlower.top_le
  rw [hr.addresses_eq, hupper.addresses_eq, hlower.addresses_eq,
    between_append (show top ≤ middle + 1 by omega) (show middle ≤ bottom by omega),
    List.flatMap_append]

end CellRange

/-! ## 3. Spelled ranges -/

section Spelled

variable {s : Spelling} {c : CellSpelling} {as : List Address}

/-- The text of a range that is spelled by a corner, which may have a sheet, and a corner
    without. -/
def spelledRange (s : Spelling) (c : CellSpelling) : String :=
  String.ofList (s.text ++ ':' :: c.text)

/-- **A spelled range is read by its corners.** -/
theorem readRange?_spelled (hs : s.Sound Char.isAlpha) (hc : c.Sound Char.isAlpha)
    (h : readRange? (spelledRange s c) = some as) :
    ∃ a b, Address.ofSpelling? s = some a ∧ Address.ofSpelling? ⟨.absent, c⟩ = some b ∧
      as = (CellRange.mk a { b with sheet := a.sheet }).addresses := by
  obtain ⟨r, hr, rfl⟩ := Option.map_eq_some_iff.mp h
  unfold CellRange.read? at hr
  simp only [Option.bind_eq_bind, Option.bind_eq_some_iff, Prod.exists] at hr
  obtain ⟨left, right, hcut, a, ha, b, hb, hcorners⟩ := hr
  rw [spelledRange, String.toList_ofList] at hcut
  obtain ⟨htext, hleft, hright⟩ := cutOnly_eq_some_iff.mp hcut
  -- the only colon of the text is the one between the corners
  obtain ⟨rfl, -, rfl⟩ := (List.append_cons_inj_of_notMem hleft hright).mp htext.symm
  have ha' := (Address.read?_text hs.mono ha).2
  have hb' := (Address.read?_text (s := ⟨.absent, c⟩) ⟨trivial, hc.mono⟩ hb).2
  have hsheet : b.sheet = none := (Address.ofSpelling?_eq_some hb').2.1
  refine ⟨a, b, ha', hb', ?_⟩
  unfold CellRange.ofCorners? at hcorners
  rw [if_neg (fun hdiffers => hdiffers.1 hsheet)] at hcorners
  cases hcorners
  rfl

/-- A name between apostrophes, without the apostrophes. -/
theorem trim_quoted {name : List Char} (hne : name ≠ []) (hfree : '\x27' ∉ name) :
    trim (· == '\x27') ('\x27' :: (name ++ ['\x27'])) = name := by
  have hclear : ∀ x ∈ name, (x == '\x27') = false := fun x hx =>
    beq_eq_false_iff_ne.mpr fun heq => hfree (heq ▸ hx)
  have hfirst : Free (· == '\x27') (name ++ ['\x27']) :=
    Free.append (fun x hx => hclear x (List.mem_of_head? hx)) hne
  have hlast : Free (· == '\x27') name.reverse := fun x hx =>
    hclear x (List.mem_reverse.mp (List.mem_of_head? hx))
  rw [trim, List.dropWhile_cons_of_pos rfl, hfirst.dropWhile, List.reverse_append,
    List.reverse_singleton, List.singleton_append, List.dropWhile_cons_of_pos rfl, hlast.dropWhile,
    List.reverse_reverse]

/-- The sheet of a spelled range is that of its first corner, and the span is spelled by the two
    cells. -/
theorem splitSpanSheet_spelled (hs : s.Sound isCaseLetter) (hc : c.Sound isCaseLetter) :
    splitSpanSheet (spelledRange s c) =
      (s.sheet.name?.map String.ofList, s.cell.text ++ ':' :: c.text) := by
  have hspan : '!' ∉ s.cell.text ++ ':' :: c.text := by
    have hleft : '!' ∉ s.cell.text := fun h => (hs.cell.word _ h).2.1 rfl
    have hright : '!' ∉ c.text := fun h => (hc.word _ h).2.1 rfl
    simp [hleft, hright]
  have hsheet := hs.sheet
  unfold splitSpanSheet spelledRange Spelling.text
  rw [String.toList_ofList]
  cases hp : s.sheet with
  | absent =>
    have hcut : cutLast '!' (s.cell.text ++ ':' :: c.text) = none := cutLast_eq_none_iff.mpr hspan
    simp only [SheetPrefix.text, List.nil_append, hcut]
    rfl
  | bare name =>
    rw [hp] at hsheet
    have hcut : cutLast '!' (name ++ ['!'] ++ s.cell.text ++ ':' :: c.text) =
        some (name, s.cell.text ++ ':' :: c.text) :=
      cutLast_eq_some_iff.mpr ⟨by simp, hspan⟩
    simp only [SheetPrefix.text, hcut, trim_free hsheet.not_mem_bare]
    rfl
  | quoted name =>
    rw [hp] at hsheet
    have hcut : cutLast '!' ('\x27' :: (name ++ ['\x27', '!']) ++ s.cell.text ++ ':' :: c.text) =
        some ('\x27' :: (name ++ ['\x27']), s.cell.text ++ ':' :: c.text) :=
      cutLast_eq_some_iff.mpr ⟨by simp, hspan⟩
    simp only [SheetPrefix.text, hcut, trim_quoted hsheet.1 hsheet.2]
    rfl

/-- A reference after its sheet, if it has one. -/
def onSheet (sheet : Option String) (ref : String) : String :=
  match sheet with
  | some name => name ++ "!" ++ ref
  | none => ref

/-- **A range of cells that exist spreads to their bare references**, each after the sheet. -/
theorem expandRange_of_cells (hs : s.Sound isCaseLetter) (hc : c.Sound isCaseLetter)
    (hfirst : s.cell.NamesCell) (hlast : c.NamesCell) :
    expandRange (spelledRange s c) = .ok
      ((CellRange.mk (unmarked none (Column.number s.cell.letters) (digitsValue s.cell.digits))
          (unmarked none (Column.number c.letters) (digitsValue c.digits))).addresses.map
        fun a => onSheet (s.sheet.name?.map String.ofList) a.plain) := by
  have hcut : cutOnly ':' (s.cell.text ++ ':' :: c.text) = some (s.cell.text, c.text) := by
    refine cutOnly_eq_some_iff.mpr ⟨rfl, fun h => ?_, fun h => ?_⟩
    · exact absurd (hs.cell.word _ h).1 (by decide)
    · exact absurd (hc.word _ h).1 (by decide)
  unfold expandRange
  simp only [splitSpanSheet_spelled hs hc, hcut, bareReference_text hs.cell,
    bareReference_text hc, a1ToRowColumn_bareCell hs.cell hfirst, a1ToRowColumn_bareCell hc hlast]
  rfl

/-- A spelling stands for a well-formed address. -/
theorem Address.proper_ofSpelling {a : Address} (hs : s.Sound Char.isAlpha)
    (h : Address.ofSpelling? s = some a) : a.Proper := by
  obtain ⟨hpositive, -, hcolumn, hrow⟩ := Address.ofSpelling?_eq_some h
  have hnumber := Column.one_le_number hs.cell.letters_ne hs.cell.letters
  exact ⟨by omega, by omega⟩

/-- The text of an unmarked address is its bare reference, after its sheet if it has one. -/
theorem written_unmarked {sheet : Option String} (hsheet : sheet ≠ some "") {column row : Int}
    (hcolumn : 1 ≤ column) : (unmarked sheet column row).written =
      .ok (onSheet sheet (unmarked sheet column row).plain) := by
  have hname : Column.lettersOf column = .ok (String.ofList (Column.letters column.toNat)) :=
    if_neg (by omega)
  unfold Address.written unmarked
  rw [hname]
  cases sheet with
  | none => simp [Except.map, Address.mark, Address.plain, plainReference, onSheet]
  | some name =>
    have hne : name ≠ "" := fun hempty => hsheet (congrArg some hempty)
    simp [Except.map, Address.mark, Address.plain, plainReference, onSheet, hne]

/-- The texts of a range's addresses, whose corners are well formed. -/
theorem mapM_written_addresses {r : CellRange} (hsheet : r.first.sheet ≠ some "")
    (hfirst : r.first.Proper) (hlast : r.last.Proper) :
    r.addresses.mapM Address.written =
      .ok (r.addresses.map fun a => onSheet r.first.sheet a.plain) := by
  refine mapM_eq_ok_map fun a ha => ?_
  obtain ⟨hunmarked, ⟨hcolumn, -⟩, -⟩ := CellRange.mem_addresses_iff.mp ha
  have hleft := hfirst.1
  have hright := hlast.1
  have hwritten : (unmarked r.first.sheet a.column a.row).written =
      .ok (onSheet r.first.sheet (unmarked r.first.sheet a.column a.row).plain) :=
    written_unmarked hsheet (by omega)
  rwa [← hunmarked] at hwritten

/-- A range's addresses and those of the same rectangle without a sheet have the same bare
    references. -/
theorem map_plain_addresses (r : CellRange) (label : String → String) :
    r.addresses.map (fun a => label a.plain) =
      (CellRange.mk (unmarked none r.first.column r.first.row)
        (unmarked none r.last.column r.last.row)).addresses.map fun a => label a.plain := by
  unfold CellRange.addresses
  simp only [List.map_flatMap, List.map_map]
  rfl

/-- **A spelled range spreads to the texts of its addresses.** -/
theorem expandRange_spelled (hs : s.Sound Char.isAlpha) (hc : c.Sound Char.isAlpha)
    (h : readRange? (spelledRange s c) = some as) :
    ∃ texts, as.mapM Address.written = .ok texts ∧ expandRange (spelledRange s c) = .ok texts := by
  obtain ⟨a, b, ha, hb, rfl⟩ := readRange?_spelled hs hc h
  obtain ⟨hrow, hsheet, hcolumn, hrows⟩ := Address.ofSpelling?_eq_some ha
  obtain ⟨hrow', -, hcolumn', hrows'⟩ := Address.ofSpelling?_eq_some hb
  have hlast : b.Proper := Address.proper_ofSpelling (s := ⟨.absent, c⟩) ⟨trivial, hc⟩ hb
  refine ⟨_, mapM_written_addresses (hsheet ▸ hs.sheet.name_ne)
    (Address.proper_ofSpelling hs ha) ⟨hlast.1, hlast.2⟩, ?_⟩
  rw [expandRange_of_cells hs.mono hc.mono (hs.cell.namesCell hrow)
    (hc.namesCell hrow'), map_plain_addresses ⟨a, _⟩]
  simp only [hsheet, hcolumn, hrows, hcolumn', hrows']

end Spelled

/-- **The cells of a range are those between its corners, each once and row by row, whichever
    opposite corners it is given by; and a spelled range spreads to the texts of its addresses.** -/
theorem CellRange.addresses_enumerate :
    (∀ r : CellRange,
      (∀ a, a ∈ r.addresses ↔ ∃ column row, a = unmarked r.first.sheet column row ∧
        (min r.first.column r.last.column ≤ column ∧
          column ≤ max r.first.column r.last.column) ∧
        (min r.first.row r.last.row ≤ row ∧ row ≤ max r.first.row r.last.row)) ∧
      r.addresses.Nodup ∧ r.addresses.Pairwise Address.Precedes ∧
      ∀ r' : CellRange, r.Turned r' → r'.addresses = r.addresses) ∧
    ∀ (s : Spelling) (c : CellSpelling), s.Sound Char.isAlpha → c.Sound Char.isAlpha →
      ∀ as, readRange? (spelledRange s c) = some as →
        ∃ texts, as.mapM Address.written = .ok texts ∧
          expandRange (spelledRange s c) = .ok texts := by
  refine ⟨fun r => ⟨fun a => ⟨fun h => ?_, fun h => ?_⟩, r.nodup_addresses, r.pairwise_addresses,
    fun r' h => h.addresses_eq⟩, fun s c hs hc as h => expandRange_spelled hs hc h⟩
  · exact ⟨a.column, a.row, mem_addresses_iff.mp h⟩
  · obtain ⟨column, row, rfl, hcolumn, hrow⟩ := h
    exact mem_addresses_iff.mpr ⟨rfl, hcolumn, hrow⟩

theorem CellRange.addresses_enumerate_quoted :
    let s : Spelling := ⟨.quoted ['M', 'y', ' ', 'S'], ⟨true, ['B'], false, ['4']⟩⟩
    let c : CellSpelling := ⟨false, ['a'], true, ['0', '3']⟩
    let cells := (CellRange.mk (unmarked (some "My S") 1 3) (unmarked (some "My S") 2 4)).addresses
    (readRange? (spelledRange s c) = some cells ∧
      ∃ texts, cells.mapM Address.written = .ok texts ∧
        expandRange (spelledRange s c) = .ok texts) ∧
    (CellRange.mk (unmarked none 2 3) (unmarked none 1 4)).addresses =
      (CellRange.mk (unmarked none 1 3) (unmarked none 2 4)).addresses := by
  have hs : (⟨.quoted ['M', 'y', ' ', 'S'], ⟨true, ['B'], false, ['4']⟩⟩ : Spelling).Sound
      Char.isAlpha :=
    ⟨⟨by decide, by decide⟩, ⟨by decide, by decide, List.all_eq_true.mp (by decide), by decide,
      List.all_eq_true.mp (by decide)⟩⟩
  have hc : (⟨false, ['a'], true, ['0', '3']⟩ : CellSpelling).Sound Char.isAlpha :=
    ⟨by decide, by decide, List.all_eq_true.mp (by decide), by decide,
      List.all_eq_true.mp (by decide)⟩
  obtain ⟨hcells, hspelled⟩ := addresses_enumerate
  exact ⟨⟨by decide +kernel, hspelled _ _ hs hc _ (by decide +kernel)⟩,
    (hcells _).2.2.2 _ ⟨rfl, Or.inr rfl, Or.inl rfl⟩⟩

end Appraisal
