import Appraisal.Proofs.Address.Rendered

/-!
# Keys tell cells apart

A key is a sheet, an exclamation mark and a bare reference. The sheet may have exclamation marks of
its own, but the last one is always that of the key, since a bare reference has none; and column
and row are read off a bare reference, the letters naming the one and the digits the other.

* `cellOfPlain`, `cellOfPlain_plainReference` — **column and row are read off a bare reference**;
* `plainReference_inj` — so it has no other column and no other row;
* `Address.key_eq_iff` — **two keys are equal iff sheet, column and row are**;
* `Address.keys_faithful` — the same of the keys that are handed out, and how they fall apart.
-/

namespace Appraisal

open Appraisal.Text

/-! ## 1. Bare references -/

/-- The column and the row that a bare reference has. -/
def cellOfPlain (ref : String) : Nat × Nat :=
  (Column.number (ref.toList.takeWhile Char.isAlpha),
    digitsValue (ref.toList.dropWhile Char.isAlpha))

section Plain

variable {column row column' row' : Int}

/-- **The column and the row are read off a bare reference**, however many letters it has. -/
theorem cellOfPlain_plainReference (hrow : 0 ≤ row) :
    cellOfPlain (plainReference column row) = (column.toNat, row.toNat) := by
  have htext : (plainReference column row).toList =
      Column.letters column.toNat ++ row.toNat.repr.toList := by
    rw [plainReference, String.toList_append, String.toList_ofList, toList_toString_row hrow]
  have hletters : ∀ c ∈ Column.letters column.toNat, c.isAlpha = true := fun c hc =>
    (Column.isCapital_of_mem_letters c hc).isAlpha
  have hdigits : Free Char.isAlpha row.toNat.repr.toList := fun d hd =>
    isAlpha_of_isDigit (all_isDigit_repr _ d (List.mem_of_head? hd))
  unfold cellOfPlain
  rw [htext, takeWhile_run hletters hdigits, dropWhile_run hletters hdigits, Column.number_letters,
    digitsValue_repr]

/-- **Cells with the same bare reference have the same column and the same row.** -/
theorem plainReference_inj (hcolumn : 1 ≤ column) (hrow : 1 ≤ row) (hcolumn' : 1 ≤ column')
    (hrow' : 1 ≤ row') (h : plainReference column row = plainReference column' row') :
    column = column' ∧ row = row' := by
  have hcell := congrArg cellOfPlain h
  rw [cellOfPlain_plainReference (by omega), cellOfPlain_plainReference (by omega),
    Prod.mk.injEq] at hcell
  omega

end Plain

/-! ## 2. Keys -/

namespace Address

section Keys

variable {a b : Address}

theorem splitKey?_key (a : Address) (current : String) :
    splitKey? (a.key current) = some (a.sheetOn current, a.plain) :=
  splitKey?_plain (a.sheetOn current) a.column a.row

theorem key_congr {s t : String} (hsheet : a.sheetOn s = b.sheetOn t)
    (hcolumn : a.column = b.column) (hrow : a.row = b.row) : a.key s = b.key t := by
  rw [key, key, plain, plain, hsheet, hcolumn, hrow]

/-- **Two keys are equal iff the sheets, the columns and the rows are.** -/
theorem key_eq_iff (ha : a.Proper) (hb : b.Proper) (s t : String) :
    a.key s = b.key t ↔ a.sheetOn s = b.sheetOn t ∧ a.column = b.column ∧ a.row = b.row := by
  constructor
  · intro h
    have hparts := congrArg splitKey? h
    rw [splitKey?_key, splitKey?_key, Option.some.injEq, Prod.mk.injEq] at hparts
    exact ⟨hparts.1, plainReference_inj ha.1 ha.2 hb.1 hb.2 hparts.2⟩
  · rintro ⟨hsheet, hcolumn, hrow⟩
    exact key_congr hsheet hcolumn hrow

theorem checkedKey_eq (ha : a.Proper) (current : String) :
    a.checkedKey current = .ok (a.key current) := by
  rw [checkedKey, a1_eq_plain ha]
  rfl

end Keys

/-- **Keys never collide**: well-formed addresses have keys, whatever the current sheets are called;
    the keys are equal iff the sheets that the addresses lie on, the columns and the rows are; and a
    key falls back into that sheet and the bare reference. -/
theorem keys_faithful (a b : Address) (s t : String) (ha : a.Proper) (hb : b.Proper) :
    ∃ k l, a.checkedKey s = .ok k ∧ b.checkedKey t = .ok l ∧
      (k = l ↔ a.sheetOn s = b.sheetOn t ∧ a.column = b.column ∧ a.row = b.row) ∧
      ∃ ref, a.a1 = .ok ref ∧ splitKey? k = some (a.sheetOn s, ref) :=
  ⟨a.key s, b.key t, checkedKey_eq ha s, checkedKey_eq hb t, key_eq_iff ha hb s t,
    a.plain, a1_eq_plain ha, splitKey?_key a s⟩

theorem keys_faithful_marked_sheet :
    let a : Address := ⟨none, 53, 10, true, false⟩
    let b : Address := ⟨some "x!BA", 53, 10, false, false⟩
    ∃ k l, a.checkedKey "x!BA" = .ok k ∧ b.checkedKey "y" = .ok l ∧
      (k = l ↔ a.sheetOn "x!BA" = b.sheetOn "y" ∧ a.column = b.column ∧ a.row = b.row) ∧
      ∃ ref, a.a1 = .ok ref ∧ splitKey? k = some (a.sheetOn "x!BA", ref) :=
  keys_faithful _ _ _ _ ⟨by decide, by decide⟩ ⟨by decide, by decide⟩

end Address

end Appraisal
