import Appraisal.Address.Basic
import Appraisal.Proofs.Column

/-!
# Bare references

A bare reference is written in capital letters, digits and, for a row below zero, a sign. It has no
mark to cut at, no blank to drop and nothing to put in upper case.

* `IsPlain` — the characters of a bare reference; `isPlain_of_mem`;
* `bareReference_plain` — **a bare reference is its own bare form**;
* `splitSheet_plain`, `splitKey?_plain` — it carries no sheet, and ends a key;
* `Canonical` — a text that is the bare reference of the address that it spells.
-/

namespace Appraisal

open Appraisal.Text

/-! ## 1. Characters -/

/-- A character of a bare reference: an ASCII capital, an ASCII digit or a sign. -/
def IsPlain (c : Char) : Prop :=
  (65 ≤ c.toNat ∧ c.toNat ≤ 90) ∨ (48 ≤ c.toNat ∧ c.toNat ≤ 57) ∨ c.toNat = 45

theorem IsPlain.ne {c d : Char} (h : IsPlain c) (hd : d.toNat < 45) : c ≠ d := by
  intro he
  subst he
  unfold IsPlain at h
  omega

theorem IsPlain.lt {c : Char} (h : IsPlain c) : c.toNat < 97 := by
  unfold IsPlain at h
  omega

theorem IsPlain.toUpper {c : Char} (h : IsPlain c) : c.toUpper = c :=
  toUpper_eq_self fun hsmall => Nat.not_lt_of_le hsmall.1 h.lt

theorem IsPlain.not_blank {c : Char} (h : IsPlain c) : isBlank c = false := by
  unfold IsPlain at h
  rw [Bool.eq_false_iff]
  intro hb
  simp only [isBlank, Bool.or_eq_true, Bool.and_eq_true, decide_eq_true_eq, beq_iff_eq] at hb
  omega

theorem IsCapital.isPlain {c : Char} (h : IsCapital c) : IsPlain c :=
  Or.inl h

theorem isPlain_of_mem_letters {n : Nat} {c : Char} (h : c ∈ Column.letters n) : IsPlain c :=
  (Column.isCapital_of_mem_letters c h).isPlain

theorem isPlain_of_isDigit {c : Char} (h : c.isDigit = true) : IsPlain c := by
  unfold Char.isDigit at h
  rw [Bool.and_eq_true, decide_eq_true_iff, decide_eq_true_iff] at h
  have hlow : 48 ≤ c.toNat := UInt32.le_iff_toNat_le.mp h.1
  have hhigh : c.toNat ≤ 57 := UInt32.le_iff_toNat_le.mp h.2
  exact Or.inr (Or.inl ⟨hlow, hhigh⟩)

theorem isPlain_of_mem_row {row : Int} {c : Char} (h : c ∈ (toString row).toList) :
    IsPlain c := by
  have hdigits : ∀ n : Nat, c ∈ n.repr.toList → IsPlain c := by
    intro n hc
    rw [Nat.toList_repr] at hc
    exact isPlain_of_isDigit (Nat.isDigit_of_mem_toDigits (by omega) (by omega) hc)
  rw [Int.toString_eq_repr, Int.repr_eq_if] at h
  by_cases hrow : 0 ≤ row
  · rw [if_pos hrow] at h
    exact hdigits _ h
  · rw [if_neg hrow, String.toList_append] at h
    rcases List.mem_append.mp h with h | h
    · rw [List.mem_singleton.mp h]
      exact Or.inr (Or.inr rfl)
    · exact hdigits _ h

theorem isPlain_of_mem {column row : Int} {c : Char}
    (h : c ∈ (plainReference column row).toList) : IsPlain c := by
  rw [plainReference, String.toList_append, String.toList_ofList] at h
  rcases List.mem_append.mp h with h | h
  · exact isPlain_of_mem_letters h
  · exact isPlain_of_mem_row h

/-! ## 2. Bare references -/

theorem not_mem_plain (column row : Int) {d : Char} (hd : d.toNat < 45) :
    d ∉ (plainReference column row).toList :=
  fun h => (isPlain_of_mem h).ne hd rfl

/-- **A bare reference is its own bare form.** -/
theorem bareReference_plain (column row : Int) :
    bareReference (plainReference column row) = plainReference column row := by
  have hplain : ∀ c ∈ (plainReference column row).toList, IsPlain c := fun _ => isPlain_of_mem
  have hfilter : (plainReference column row).toList.filter (· ≠ '$') =
      (plainReference column row).toList :=
    List.filter_eq_self.mpr fun c hc => decide_eq_true ((hplain c hc).ne (by decide))
  have hstrip : strip (plainReference column row).toList = (plainReference column row).toList :=
    trim_of_ends (fun c hc => (hplain c (List.mem_of_head? hc)).not_blank)
      fun c hc => (hplain c (List.mem_of_getLast? hc)).not_blank
  have hupper : upper (plainReference column row).toList = (plainReference column row).toList :=
    upper_eq_self_of_lt fun c hc => (hplain c hc).lt
  rw [bareReference, hfilter, hstrip, hupper, String.ofList_toList]

theorem splitSheet_plain (column row : Int) :
    splitSheet (plainReference column row) = (none, plainReference column row) := by
  unfold splitSheet
  rw [cutLast_eq_none_iff.mpr (not_mem_plain column row (by decide))]

theorem splitKey?_plain (sheet : String) (column row : Int) :
    splitKey? (sheet ++ "!" ++ plainReference column row) =
      some (sheet, plainReference column row) :=
  splitKey?_append (not_mem_plain column row (by decide))

/-- A text that is the bare reference of the address that it spells. -/
def Canonical (ref : String) : Prop :=
  ∃ a, Address.read? ref = some a ∧ a.plain = ref

instance (ref : String) : Decidable (Canonical ref) :=
  decidable_of_iff (∃ a ∈ Address.read? ref, a.plain = ref) Iff.rfl

end Appraisal
