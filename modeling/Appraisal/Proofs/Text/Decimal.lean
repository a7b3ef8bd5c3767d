import Appraisal.Text.Digit

/-!
# Whole numbers in decimal

The decimal digits of a whole number are digits, and they write the number.

* `digitValue?_of_isDigit` — the value of an ASCII digit;
* `digitsValue_repr` — **the digits of a whole number write the number**;
* `repr_digitsValue` — **the digits of the number that ASCII digits write are these digits**, zeros
  in front aside.
-/

namespace Appraisal.Text

/-! ## 1. Digits to numbers -/

variable {n : Nat}

theorem toNat_of_isDigit {c : Char} (h : c.isDigit = true) : 48 ≤ c.toNat ∧ c.toNat ≤ 57 := by
  unfold Char.isDigit at h
  rw [Bool.and_eq_true, decide_eq_true_iff, decide_eq_true_iff] at h
  exact ⟨UInt32.le_iff_toNat_le.mp h.1, UInt32.le_iff_toNat_le.mp h.2⟩

theorem digitValue?_of_isDigit {c : Char} (h : c.isDigit = true) :
    digitValue? c = some (c.toNat - 48) := by
  have hall : ∀ k ∈ List.range 10, digitValue? (Char.ofNat (48 + k)) = some k := by
    decide
  have hrange := toNat_of_isDigit h
  have hc := hall (c.toNat - 48) (List.mem_range.mpr (by omega))
  rwa [show 48 + (c.toNat - 48) = c.toNat by omega, Char.ofNat_toNat] at hc

theorem isDigit_of_mem_repr {c : Char} (h : c ∈ n.repr.toList) : c.isDigit = true := by
  rw [Nat.toList_repr] at h
  exact Nat.isDigit_of_mem_toDigits (by omega) (by omega) h

theorem all_isDigit_repr (n : Nat) : ∀ c ∈ n.repr.toList, isDigit c = true := by
  intro c hc
  rw [isDigit, digitValue?_of_isDigit (isDigit_of_mem_repr hc)]
  rfl

theorem repr_ne_nil (n : Nat) : n.repr.toList ≠ [] := by
  rw [Nat.toList_repr]
  exact Nat.toDigits_ne_nil

/-- **The digits of a whole number write the number.** -/
theorem digitsValue_repr (n : Nat) : digitsValue n.repr.toList = n := by
  have hfold : ∀ (cs : List Char) (k : Nat), (∀ c ∈ cs, c.isDigit = true) →
      cs.foldl (fun n c => 10 * n + (digitValue? c).getD 0) k = Nat.ofDigitChars 10 cs k := by
    intro cs
    induction cs with
    | nil => exact fun k _ => rfl
    | cons c cs ih =>
      intro k hcs
      obtain ⟨hc, hcs⟩ := List.forall_mem_cons.mp hcs
      rw [List.foldl_cons, digitValue?_of_isDigit hc, ih _ hcs]
      rfl
  rw [digitsValue, hfold _ _ fun c hc => isDigit_of_mem_repr hc, Nat.toList_repr]
  exact Nat.ofDigitChars_toDigits (by omega) (by omega)

/-! ## 2. Numbers to digits -/

section Digits

variable {ds : List Char}

theorem digitChar_of_isDigit {c : Char} (h : c.isDigit = true) : (c.toNat - 48).digitChar = c := by
  have hall : ∀ k ∈ List.range 10, Nat.digitChar k = Char.ofNat (48 + k) := by
    decide
  have hrange := toNat_of_isDigit h
  rw [hall (c.toNat - 48) (List.mem_range.mpr (by omega)),
    show 48 + (c.toNat - 48) = c.toNat by omega, Char.ofNat_toNat]

/-- Digits after a number other than zero write on after its own digits. -/
theorem toDigits_foldl (h : ∀ d ∈ ds, d.isDigit = true) {n : Nat} (hn : 0 < n) :
    Nat.toDigits 10 (ds.foldl (fun n c => 10 * n + (digitValue? c).getD 0) n) =
      Nat.toDigits 10 n ++ ds := by
  induction ds generalizing n with
  | nil => rw [List.foldl_nil, List.append_nil]
  | cons d ds ih =>
    obtain ⟨hd, hds⟩ := List.forall_mem_cons.mp h
    have hvalue := digitValue?_of_isDigit hd
    have hlt : d.toNat - 48 < 10 := digitValue?_lt hvalue
    rw [List.foldl_cons, ih hds (by omega), hvalue, Option.getD_some,
      ← Nat.toDigits_append_toDigits (by decide) hn hlt, Nat.toDigits_of_lt_base hlt,
      digitChar_of_isDigit hd, List.append_assoc, List.singleton_append]

theorem digitsValue_dropZeros (ds : List Char) :
    digitsValue (ds.dropWhile (· == '0')) = digitsValue ds := by
  induction ds with
  | nil => rfl
  | cons d ds ih =>
    rw [List.dropWhile_cons]
    split
    · next hzero =>
      rw [ih, eq_of_beq hzero]
      rfl
    · rfl

/-- **The digits of the number that ASCII digits write are these digits**, zeros in front aside,
    unless the number is zero. -/
theorem repr_digitsValue (h : ∀ d ∈ ds, d.isDigit = true) (hpos : 1 ≤ digitsValue ds) :
    (digitsValue ds).repr.toList = ds.dropWhile (· == '0') := by
  have hkept : ∀ d ∈ ds.dropWhile (· == '0'), d.isDigit = true := fun d hd =>
    h d ((List.dropWhile_suffix _).subset hd)
  have hfirst := List.head?_dropWhile_not (· == '0') ds
  rw [← digitsValue_dropZeros] at hpos ⊢
  cases hdrop : ds.dropWhile (· == '0') with
  | nil =>
    rw [hdrop] at hpos
    cases hpos
  | cons d more =>
    rw [hdrop] at hkept hfirst
    obtain ⟨hd, hmore⟩ := List.forall_mem_cons.mp hkept
    have hvalue := digitValue?_of_isDigit hd
    have hlt : d.toNat - 48 < 10 := digitValue?_lt hvalue
    have hne : 0 < d.toNat - 48 := by
      refine Nat.pos_of_ne_zero fun hzero => ?_
      have hchar := digitChar_of_isDigit hd
      rw [hzero] at hchar
      rw [← hchar] at hfirst
      cases hfirst
    rw [digitsValue, List.foldl_cons, hvalue, Option.getD_some, Nat.mul_zero, Nat.zero_add,
      Nat.toList_repr, toDigits_foldl hmore hne, Nat.toDigits_of_lt_base hlt,
      digitChar_of_isDigit hd, List.singleton_append]

end Digits

end Appraisal.Text
