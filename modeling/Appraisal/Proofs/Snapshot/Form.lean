import Appraisal.Proofs.Snapshot
import Appraisal.Proofs.Text.Upper

/-!
# The form of captured cells

Whatever a cell is captured as, it is kept under a bare reference, which is its address, and its
formula is absent or has text. A formula's text that was stored as the value becomes the formula if
none was captured. An empty formula is none, but it hides the text in the value from this: the cell
is then left without a formula, and with the text of one as plain data.

* `bareReference_bareReference` — **a bare reference is its own bare form**;
* `Value.StoresFormula`, `Value.HidesFormula` — where a formula's text is taken from the value or
  left in it;
* `Cell.form_of_ofValue` — the form of one cell;
* `Snapshot.ofValue_form` — the form of every cell, and the captured entry that decides on it.
-/

namespace Appraisal

open Appraisal.Text

/-! ## 1. References -/

/-- **A bare reference is its own bare form.** -/
theorem bareReference_bareReference (ref : String) :
    bareReference (bareReference ref) = bareReference ref := by
  let cs := ref.toList.filter (· ≠ '$')
  have hdollar : '$' ∉ upper (strip cs) := not_mem_upper fun h => by
    simpa using (List.mem_filter.mp (mem_of_mem_strip h)).2
  have hfilter : (upper (strip cs)).filter (· ≠ '$') = upper (strip cs) :=
    List.filter_eq_self.mpr fun c hc => decide_eq_true fun h => hdollar (h ▸ hc)
  show String.ofList (upper (strip ((String.ofList (upper (strip cs))).toList.filter (· ≠ '$')))) =
    String.ofList (upper (strip cs))
  rw [String.toList_ofList, hfilter, strip_upper_strip, upper_upper]

/-! ## 2. Cells -/

/-- Whether a scalar is the text of a formula. -/
def Scalar.IsFormula (s : Scalar) : Prop :=
  ∃ t, s = .text t ∧ t.toList.head? = some '='

/-- The value is the text of a formula, and no formula was captured. -/
def Value.StoresFormula (v : Value) (t : String) : Prop :=
  v.stored.1 = some (.text t) ∧ t.toList.head? = some '=' ∧
    (v.stored.2 = none ∨ v.stored.2 = some .blank)

/-- The value is the text of a formula, and an empty formula was captured. -/
def Value.HidesFormula (v : Value) : Prop :=
  (∃ t, v.stored.1 = some (.text t) ∧ t.toList.head? = some '=') ∧ v.stored.2 = some (.text "")

namespace Cell

variable {sheet ref : String} {v : Value} {c : Cell}

theorem storedValue_isFormula_iff {u : Option Value} {s : Scalar}
    (h : storedValue sheet ref u = .ok s) :
    s.IsFormula ↔ ∃ t, u = some (.text t) ∧ t.toList.head? = some '=' := by
  unfold storedValue at h
  split at h
  · cases h
    exact ⟨nofun, nofun⟩
  · cases h
    simp only [Scalar.IsFormula, Option.some.injEq, Value.scalar.injEq]
  · cases h

theorem storedFormula_eq_iff {u : Option Value} {f : Option String}
    (h : storedFormula sheet ref u = .ok f) : f = some "" ↔ u = some (.text "") := by
  unfold storedFormula at h
  split at h
  · cases h
    exact ⟨nofun, nofun⟩
  · cases h
    exact ⟨nofun, nofun⟩
  · cases h
    simp only [Option.some.injEq, Value.scalar.injEq, Scalar.text.injEq]
  · cases h

/-- No cell has an empty formula. -/
theorem ofParts_formula_ne (ref : String) (s : Scalar) (f : Option String) :
    (ofParts ref s f).formula ≠ some "" := by
  unfold ofParts
  split
  · split
    · next t hhead =>
      rintro h
      cases h
      cases hhead
    · exact nofun
  · next f =>
    intro h
    split at h
    · cases h
    · next hne => exact hne (Option.some.inj h)
  · exact nofun

/-- The text of a formula is left as the value under an empty formula only. -/
theorem ofParts_leaves_iff (ref : String) (s : Scalar) (f : Option String) :
    (ofParts ref s f).formula = none ∧ (ofParts ref s f).value.IsFormula ↔
      s.IsFormula ∧ f = some "" := by
  unfold ofParts
  split
  · next t =>
    split
    · next hhead => exact ⟨nofun, nofun⟩
    · next hhead =>
      refine ⟨?_, nofun⟩
      rintro ⟨-, u, hu, hformula⟩
      cases hu
      exact (hhead hformula).elim
  · next f =>
    by_cases hempty : f = ""
    · subst hempty
      simp only [if_pos, and_true, true_and]
    · simp only [if_neg hempty]
      exact ⟨nofun, fun h => (hempty (Option.some.inj h.2)).elim⟩
  · next hnotext =>
    refine ⟨?_, nofun⟩
    rintro ⟨-, t, ht, -⟩
    exact (hnotext t ht).elim

/-- **The form of a cell**: it has its reference for an address, its formula is absent or has text,
    the text of a formula that is stored as the value becomes the formula, and is left as the value
    only where an empty formula hides it. -/
theorem form_of_ofValue (h : ofValue sheet ref v = .ok c) :
    c.address = ref ∧ c.formula ≠ some "" ∧
      (c.formula = none ∧ c.value.IsFormula ↔ v.HidesFormula) ∧
      ∀ t, v.StoresFormula t → c = ⟨ref, .blank, some t⟩ := by
  have haddress := ofValue_address h
  obtain ⟨s, f, hs, hf, rfl⟩ := exists_of_ofValue h
  refine ⟨haddress, ofParts_formula_ne ref s f, ?_, ?_⟩
  · rw [ofParts_leaves_iff]
    exact and_congr (storedValue_isFormula_iff hs) (storedFormula_eq_iff hf)
  · rintro t ⟨hvalue, hhead, hformula⟩
    rw [hvalue] at hs
    cases hs
    have hnone : f = none := by
      rcases hformula with hnone | hblank
      · rw [hnone] at hf
        cases hf
        rfl
      · rw [hblank] at hf
        cases hf
        rfl
    rw [hnone]
    exact if_pos hhead

end Cell

/-! ## 3. Snapshots -/

/-- What a cell is captured as: the last entry for the bare reference among the cells of the last
    sheet of the name. -/
def Value.CapturesCell (data : Value) (sheet ref : String) (v : Value) : Prop :=
  ∃ sheets cells : List (String × Value), ∃ e c, data = .mapping sheets ∧
    sheets.reverse.find? (·.1 == sheet) = some e ∧ cellEntries? e.2 = some cells ∧
    cells.reverse.find? (bareReference ·.1 == ref) = some c ∧ c.2 = v

/-- Every kept cell is built, under a bare reference, from what it is captured as. -/
theorem Snapshot.exists_captured {data : Value} {s : Snapshot} (h : ofValue data = .ok s)
    {p : String × Sheet} (hp : p ∈ s.sheets) {q : String × Cell} (hq : q ∈ p.2.cells) :
    bareReference q.1 = q.1 ∧
      ∃ v, data.CapturesCell p.1 q.1 v ∧ Cell.ofValue p.1 q.1 v = .ok q.2 := by
  cases data with
  | scalar _ | list _ => cases h
  | mapping sheets =>
    obtain ⟨e, cells, hlast, hcells, hcaptures⟩ := (captures_of_ofValue h).sheets p hp
    obtain ⟨c, hc, hbuilt⟩ := hcaptures.cells q hq
    have hkey := List.find?_some hc
    have hbare : bareReference c.1 = q.1 := eq_of_beq hkey
    refine ⟨?_, c.2, ⟨sheets, cells, e, c, rfl, hlast, hcells, hc, rfl⟩, hbuilt⟩
    rw [← hbare, bareReference_bareReference]

/-- **The form of the cells of a snapshot**: each is kept under a bare reference, which is its
    address, its formula is absent or has text, and the text of a formula that was captured as the
    value, without a formula, became the formula. Such a text is left as the value of a cell without
    a formula exactly where an empty formula was captured with it. -/
theorem Snapshot.ofValue_form {data : Value} {s : Snapshot} (h : ofValue data = .ok s)
    {p : String × Sheet} (hp : p ∈ s.sheets) {q : String × Cell} (hq : q ∈ p.2.cells) :
    q.2.address = q.1 ∧ bareReference q.1 = q.1 ∧ q.2.formula ≠ some "" ∧
      ∃ v, data.CapturesCell p.1 q.1 v ∧
        (q.2.formula = none ∧ q.2.value.IsFormula ↔ v.HidesFormula) ∧
        ∀ t, v.StoresFormula t → q.2 = ⟨q.1, .blank, some t⟩ := by
  obtain ⟨hbare, v, hcaptured, hbuilt⟩ := exists_captured h hp hq
  obtain ⟨haddress, hformula, hleft, htaken⟩ := Cell.form_of_ofValue hbuilt
  exact ⟨haddress, hbare, hformula, v, hcaptured, hleft, htaken⟩

/-- A captured sheet with a formula's text as a value: on its own, without a formula, and with an
    empty one. -/
def formulasAsValues : Value :=
  .mapping [("S", .mapping [("cells", .mapping
    [("a$1", .text "=B1"), ("A2", .mapping [("value", .text "=B2"), ("formula", .blank)]),
      (" a1", .mapping [("value", .text "=B1"), ("formula", .text "")])])])]

theorem Snapshot.ofValue_form_formulasAsValues :
    ∃ s, ofValue formulasAsValues = .ok s ∧ ∃ p ∈ s.sheets, ∃ q ∈ p.2.cells,
      q.1 = "A1" ∧ q.2.address = "A1" ∧ bareReference "A1" = "A1" ∧ q.2.formula ≠ some "" ∧
        ∃ v, formulasAsValues.CapturesCell p.1 "A1" v ∧ v.HidesFormula ∧
          q.2.formula = none ∧ q.2.value.IsFormula := by
  obtain ⟨s, hs, p, hp, q, hq, hname, href, hformula, hvalue⟩ :
      ∃ s ∈ (ofValue formulasAsValues).toOption, ∃ p ∈ s.sheets, ∃ q ∈ p.2.cells,
        p.1 = "S" ∧ q.1 = "A1" ∧ q.2.formula = none ∧ q.2.value = .text "=B1" := by decide
  have hload := eq_ok_of_toOption hs
  have hleaves : q.2.formula = none ∧ q.2.value.IsFormula := ⟨hformula, "=B1", hvalue, rfl⟩
  obtain ⟨haddress, hbare, hne, v, hcaptured, hleft, -⟩ := ofValue_form hload hp hq
  rw [href] at haddress hbare hcaptured
  exact ⟨s, hload, p, hp, q, hq, href, haddress, hbare, hne, v, hcaptured, hleft.mp hleaves,
    hleaves⟩

/-- Under an empty formula the text of a formula is left as the value of a cell without one. -/
theorem Snapshot.ofValue_hidden :
    ∃ s, ofValue (.mapping [("S", .mapping [("cells", .mapping
        [("A1", .mapping [("value", .text "=B1"), ("formula", .text "")])])])]) = .ok s ∧
      s.cell? "S" "A1" = some ⟨"A1", .text "=B1", none⟩ := by
  obtain ⟨s, hs, hcell⟩ :
      ∃ s ∈ (ofValue (.mapping [("S", .mapping [("cells", .mapping
        [("A1", .mapping [("value", .text "=B1"), ("formula", .text "")])])])])).toOption,
      s.cell? "S" "A1" = some ⟨"A1", .text "=B1", none⟩ := by decide
  exact ⟨s, eq_ok_of_toOption hs, hcell⟩

end Appraisal
