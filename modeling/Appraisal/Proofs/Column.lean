import Appraisal.Column
import Appraisal.Text.CodePoint

/-!
# Names and numbers of columns

The names of the columns are the numerals of base twenty-six whose digits run from one (A) to
twenty-six (Z). Since no digit is zero, each column has one name, and a name with more letters
stands for a later column, whatever its letters are.

* `IsCapital` — the letters that a name is written in;
* `Column.letters_number` — **the name of a named column is the name in upper case**;
* `Column.number_letters` — **the name of a column names the column**;
* `Column.length_letters_le_iff` — **a column has at most as many letters as another iff it does not
  come after the last column that has so many**;
* `Column.lt_iff` — **an earlier column has a shorter name, or one of the same length that comes
  first in the alphabet**;
* `Column.naming` — the same of the names that are handed out and read.
-/

namespace Appraisal

open Appraisal.Text

/-! ## 1. Capitals -/

/-- An ASCII capital. -/
def IsCapital (c : Char) : Prop :=
  65 ≤ c.toNat ∧ c.toNat ≤ 90

theorem isCapital_toUpper {c : Char} (h : c.isAlpha = true) : IsCapital c.toUpper := by
  have hall : ∀ n ∈ List.range 128, (Char.ofNat n).isAlpha = true →
      65 ≤ (Char.ofNat n).toUpper.toNat ∧ (Char.ofNat n).toUpper.toNat ≤ 90 := by
    decide +kernel
  have hc := hall c.toNat (List.mem_range.mpr (toNat_lt_of_isAlpha h))
  rw [Char.ofNat_toNat] at hc
  exact hc h

theorem IsCapital.isAlpha {c : Char} (h : IsCapital c) : c.isAlpha = true := by
  have hupper : c.isUpper = true := decide_eq_true ⟨h.1, h.2⟩
  exact (Bool.or_eq_true _ _).mpr (Or.inl hupper)

namespace Column

theorem toNat_capital {digit : Nat} (h : digit < 26) : (capital digit).toNat = 65 + digit := by
  have hsurrogate : isSurrogate (65 + digit) = false := by
    rw [Bool.eq_false_iff, ne_eq, isSurrogate_iff]
    omega
  exact toNat_ofNat (by omega) hsurrogate

/-- The name of a column is in ASCII capitals. -/
theorem isCapital_of_mem_letters {n : Nat} : ∀ c ∈ letters n, IsCapital c := by
  induction n using Nat.strongRecOn with
  | ind n ih =>
    intro c hc
    cases n with
    | zero =>
      rw [letters_zero] at hc
      cases hc
    | succ n =>
      rw [letters_succ] at hc
      rcases List.mem_append.mp hc with hc | hc
      · exact ih (n / 26) (by omega) c hc
      · rw [List.mem_singleton.mp hc, IsCapital, toNat_capital (Nat.mod_lt n (by omega))]
        omega

section Upper

variable {name : List Char}

theorem upper_of_capitals (h : ∀ c ∈ name, IsCapital c) : upper name = name :=
  upper_eq_self_of_lt fun c hc => Nat.lt_of_le_of_lt (h c hc).2 (by decide)

theorem upper_eq_map (h : ∀ c ∈ name, c.isAlpha = true) : upper name = name.map Char.toUpper :=
  upper_of_ascii fun c hc => toNat_lt_of_isAlpha (h c hc)

theorem isCapital_of_mem_upper (h : ∀ c ∈ name, c.isAlpha = true) :
    ∀ c ∈ upper name, IsCapital c := by
  intro c hc
  rw [upper_eq_map h] at hc
  obtain ⟨d, hd, hcd⟩ := List.mem_map.mp hc
  rw [← hcd]
  exact isCapital_toUpper (h d hd)

end Upper

/-! ## 2. Names and numbers -/

/-- The column whose name is the name of a column and one more letter. -/
def extend (n : Nat) (c : Char) : Nat :=
  26 * n + (c.toNat - 64)

/-- One more digit of a column numeral is one more letter of its name. -/
theorem letters_extend (n : Nat) {c : Char} (h : IsCapital c) :
    letters (extend n c) = letters n ++ [c] := by
  obtain ⟨hlow, hhigh⟩ := h
  have hdigit : extend n c = 26 * n + (c.toNat - 65) + 1 := by
    unfold extend
    omega
  have hquotient : (26 * n + (c.toNat - 65)) / 26 = n := by omega
  have hremainder : (26 * n + (c.toNat - 65)) % 26 = c.toNat - 65 := by omega
  have hcapital : capital (c.toNat - 65) = c := by
    rw [capital, show 65 + (c.toNat - 65) = c.toNat by omega, Char.ofNat_toNat]
  rw [hdigit, letters_succ, hquotient, hremainder, hcapital]

theorem letters_foldl {cs : List Char} (h : ∀ c ∈ cs, IsCapital c) (n : Nat) :
    letters (cs.foldl extend n) = letters n ++ cs := by
  induction cs generalizing n with
  | nil => rw [List.foldl_nil, List.append_nil]
  | cons c cs ih =>
    obtain ⟨hc, hcs⟩ := List.forall_mem_cons.mp h
    rw [List.foldl_cons, ih hcs, letters_extend n hc, List.append_assoc]
    rfl

/-- **The name of the column that a name stands for is the name in upper case.** -/
theorem letters_number {name : List Char} (h : ∀ c ∈ name, c.isAlpha = true) :
    letters (number name) = upper name := by
  change letters ((upper name).foldl extend 0) = upper name
  rw [letters_foldl (isCapital_of_mem_upper h), letters_zero, List.nil_append]

theorem one_le_number {name : List Char} (hne : name ≠ []) (h : ∀ c ∈ name, c.isAlpha = true) :
    1 ≤ number name := by
  refine Nat.one_le_iff_ne_zero.mpr fun hzero => hne ?_
  have hletters := letters_number h
  rw [hzero, letters_zero, upper_eq_map h] at hletters
  exact List.map_eq_nil_iff.mp hletters.symm

theorem foldl_letters (n : Nat) : (letters n).foldl extend 0 = n := by
  induction n using Nat.strongRecOn with
  | ind n ih =>
    cases n with
    | zero =>
      rw [letters_zero]
      rfl
    | succ n =>
      have hremainder : n % 26 < 26 := Nat.mod_lt n (by omega)
      rw [letters_succ, List.foldl_append, ih (n / 26) (by omega), List.foldl_cons, List.foldl_nil,
        extend, toNat_capital hremainder]
      omega

/-- **The letters of a column name the column.** -/
theorem number_letters (n : Nat) : number (letters n) = n := by
  rw [number, upper_of_capitals isCapital_of_mem_letters]
  exact foldl_letters n

theorem letters_ne_nil {n : Nat} (h : 1 ≤ n) : letters n ≠ [] := by
  obtain ⟨m, rfl⟩ : ∃ m, n = m + 1 := ⟨n - 1, by omega⟩
  rw [letters_succ]
  exact List.append_ne_nil_of_right_ne_nil _ (List.cons_ne_nil _ _)

/-! ## 3. How long a name is -/

/-- The last column whose name has at most as many letters. -/
def lastOf : (length : Nat) → Nat
  | 0 => 0
  | length + 1 => 26 * lastOf length + 26

/-- **A column has at most as many letters iff it does not come after the last such column.** -/
theorem length_letters_le_iff {n length : Nat} :
    (letters n).length ≤ length ↔ n ≤ lastOf length := by
  induction length generalizing n with
  | zero =>
    refine ⟨fun h => Nat.le_of_not_lt fun hn => ?_, fun h => ?_⟩
    · exact letters_ne_nil hn (List.length_eq_zero_iff.mp (Nat.le_zero.mp h))
    · rw [Nat.le_zero.mp h, letters_zero]
      exact Nat.le_refl 0
  | succ length ih =>
    cases n with
    | zero => simp
    | succ n =>
      rw [letters_succ, List.length_append, List.length_singleton, Nat.add_le_add_iff_right, ih,
        lastOf]
      omega

/-- **A column up to ZZZ has at most three letters.** -/
theorem length_letters_le {n : Nat} (h : n ≤ 18278) : (letters n).length ≤ 3 :=
  length_letters_le_iff.mpr h

theorem lt_of_length_lt {m n : Nat} (h : (letters m).length < (letters n).length) : m < n := by
  have hfirst : m ≤ lastOf (letters m).length := length_letters_le_iff.mp (Nat.le_refl _)
  have hlast : ¬ n ≤ lastOf (letters m).length := fun hle =>
    Nat.not_le_of_lt h (length_letters_le_iff.mpr hle)
  omega

/-! ## 4. The order of the names -/

/-- What the earlier letters decide, one more letter on both sides does not change: no digit is
    above twenty-six, and none below one. -/
theorem extend_lt_extend {c d : Char} (hc : IsCapital c) (hd : IsCapital d) {m n : Nat}
    (h : m < n) : extend m c < extend n d := by
  have hdigit := hc.2
  have hdigit' := hd.1
  unfold extend
  omega

theorem extend_lt_extend_right {c d : Char} (hc : IsCapital c) (h : c < d) (n : Nat) :
    extend n c < extend n d := by
  have hdigit := hc.1
  have hlt : c.toNat < d.toNat := h
  unfold extend
  omega

section Order

variable {xs ys : List Char}

theorem foldl_extend_lt (hxs : ∀ c ∈ xs, IsCapital c) (hys : ∀ c ∈ ys, IsCapital c)
    (hlength : xs.length = ys.length) {m n : Nat} (h : m < n) :
    xs.foldl extend m < ys.foldl extend n := by
  induction xs generalizing ys m n with
  | nil =>
    rw [List.length_eq_zero_iff.mp hlength.symm]
    exact h
  | cons x xs ih =>
    cases ys with
    | nil => cases hlength
    | cons y ys =>
      obtain ⟨hx, htail⟩ := List.forall_mem_cons.mp hxs
      obtain ⟨hy, htail'⟩ := List.forall_mem_cons.mp hys
      exact ih htail htail' (Nat.succ.inj hlength) (extend_lt_extend hx hy h)

/-- Of two names of one length, the one that comes first in the alphabet stands for the earlier
    column. -/
theorem foldl_extend_lt_iff (hxs : ∀ c ∈ xs, IsCapital c) (hys : ∀ c ∈ ys, IsCapital c)
    (hlength : xs.length = ys.length) (n : Nat) :
    xs.foldl extend n < ys.foldl extend n ↔ xs < ys := by
  induction xs generalizing ys n with
  | nil =>
    rw [List.length_eq_zero_iff.mp hlength.symm]
    exact iff_of_false (Nat.lt_irrefl _) (List.lt_irrefl _)
  | cons x xs ih =>
    cases ys with
    | nil => cases hlength
    | cons y ys =>
      obtain ⟨hx, htail⟩ := List.forall_mem_cons.mp hxs
      obtain ⟨hy, htail'⟩ := List.forall_mem_cons.mp hys
      have hrest : xs.length = ys.length := Nat.succ.inj hlength
      rw [List.foldl_cons, List.foldl_cons, List.cons_lt_cons_iff]
      rcases Nat.lt_trichotomy x.toNat y.toNat with h | h | h
      · have hfirst : x < y := h
        exact iff_of_true (foldl_extend_lt htail htail' hrest (extend_lt_extend_right hx hfirst n))
          (Or.inl hfirst)
      · obtain rfl : x = y := Char.toNat_inj.mp h
        rw [ih htail htail' hrest]
        exact ⟨fun hlt => Or.inr ⟨rfl, hlt⟩, fun hlt => hlt.elim
          (fun hlt => absurd hlt (Char.lt_irrefl x)) And.right⟩
      · have hlater := foldl_extend_lt htail' htail hrest.symm (extend_lt_extend_right hy h n)
        refine iff_of_false (Nat.lt_asymm hlater) fun hlt => ?_
        rcases hlt with hlt | ⟨rfl, -⟩
        · exact Nat.lt_asymm h hlt
        · exact Nat.lt_irrefl _ h

end Order

/-- **An earlier column has a shorter name, or one of the same length that comes first in the
    alphabet.** -/
theorem lt_iff {m n : Nat} :
    m < n ↔ (letters m).length < (letters n).length ∨
      (letters m).length = (letters n).length ∧ letters m < letters n := by
  rcases Nat.lt_trichotomy (letters m).length (letters n).length with h | h | h
  · exact iff_of_true (lt_of_length_lt h) (Or.inl h)
  · have horder :=
      foldl_extend_lt_iff (@isCapital_of_mem_letters m) (@isCapital_of_mem_letters n) h 0
    rw [foldl_letters, foldl_letters] at horder
    rw [horder]
    exact ⟨fun hlt => Or.inr ⟨h, hlt⟩, fun hlt => hlt.elim
      (fun hlt => absurd h (Nat.ne_of_lt hlt)) And.right⟩
  · refine iff_of_false (Nat.lt_asymm (lt_of_length_lt h)) fun hlt => ?_
    rcases hlt with hlt | ⟨hlength, -⟩
    · exact Nat.lt_asymm h hlt
    · exact absurd hlength.symm (Nat.ne_of_lt h)

/-! ## 5. Names that are handed out and read -/

theorem lettersOf_ok {n : Int} (h : 1 ≤ n) :
    lettersOf n = .ok (String.ofList (letters n.toNat)) :=
  if_neg (Int.not_lt.mpr h)

theorem numberOf_ok {name : String} (hne : name ≠ "")
    (h : ∀ c ∈ name.toList, c.isAlpha = true) : numberOf name = .ok (number name.toList) := by
  refine if_neg fun hinvalid => ?_
  rcases hinvalid with hnil | hother
  · exact hne (String.toList_eq_nil_iff.mp hnil)
  · exact hother (List.all_eq_true.mpr fun c hc => isAlphabetic_of_isAlpha (h c hc))

/-- **Columns and names stand for each other, in the same order**: each column has a name in
    capitals, which is read as the column; each name, in either case, is read as a column, which has
    the name in capitals; and an earlier column has a shorter name, or one of the same length that
    comes first in the alphabet. -/
theorem naming :
    (∀ n : Int, 1 ≤ n → ∃ name : String, lettersOf n = .ok name ∧ name ≠ "" ∧
      (∀ c ∈ name.toList, IsCapital c) ∧ numberOf name = .ok n.toNat) ∧
    (∀ name : String, name ≠ "" → (∀ c ∈ name.toList, c.isAlpha = true) →
      ∃ n : Nat, numberOf name = .ok n ∧ lettersOf n = .ok name.toUpper) ∧
    (∀ m n : Int, 1 ≤ m → 1 ≤ n → ∃ a b : String, lettersOf m = .ok a ∧ lettersOf n = .ok b ∧
      (m < n ↔ a.length < b.length ∨ a.length = b.length ∧ a < b)) := by
  refine ⟨fun n hn => ?_, fun name hne hletters => ?_, fun m n hm hn => ?_⟩
  · have hne : String.ofList (letters n.toNat) ≠ "" := fun hempty =>
      letters_ne_nil (by omega) (String.ofList_eq_empty_iff.mp hempty)
    have hcapitals : ∀ c ∈ (String.ofList (letters n.toNat)).toList, IsCapital c := by
      rw [String.toList_ofList]
      exact isCapital_of_mem_letters
    refine ⟨_, lettersOf_ok hn, hne, hcapitals, ?_⟩
    rw [numberOf_ok hne fun c hc => (hcapitals c hc).isAlpha, String.toList_ofList, number_letters]
  · have hpos := one_le_number (mt String.toList_eq_nil_iff.mp hne) hletters
    refine ⟨_, numberOf_ok hne hletters, ?_⟩
    rw [lettersOf_ok (by omega), Int.toNat_natCast, letters_number hletters, upper_eq_map hletters,
      String.toUpper, ← String.toList_map, String.ofList_toList]
  · refine ⟨_, _, lettersOf_ok hm, lettersOf_ok hn, ?_⟩
    rw [String.lt_iff, String.length_ofList, String.length_ofList, String.toList_ofList,
      String.toList_ofList, ← lt_iff]
    omega

/-- The last name of two letters, written in either case, and the first column with three. -/
theorem naming_pastTwoLetters :
    ("zZ" ≠ "" ∧ (∀ c ∈ "zZ".toList, c.isAlpha = true) ∧
      numberOf "zZ" = .ok 702 ∧ lettersOf 702 = .ok "ZZ") ∧
    ((1 : Int) ≤ 703 ∧ ∃ name : String, lettersOf 703 = .ok name ∧ name ≠ "" ∧
      (∀ c ∈ name.toList, IsCapital c) ∧ numberOf name = .ok 703) ∧
    ((1 : Int) ≤ 702 ∧ ∃ a b : String, lettersOf 702 = .ok a ∧ lettersOf 703 = .ok b ∧
      ((702 : Int) < 703 ↔ a.length < b.length ∨ a.length = b.length ∧ a < b)) := by
  obtain ⟨hnumbers, hnames, horder⟩ := naming
  have hletters : ∀ c ∈ "zZ".toList, c.isAlpha = true := List.all_eq_true.mp rfl
  have hupper : "zZ".toUpper = "ZZ" := by
    rw [← String.toList_inj, String.toUpper, String.toList_map]
    rfl
  have hname : lettersOf 702 = .ok "ZZ" := by
    obtain ⟨n, hn, hname⟩ := hnames "zZ" (by decide) hletters
    cases hn
    rw [← hupper]
    exact hname
  exact ⟨⟨by decide, hletters, rfl, hname⟩, ⟨by decide, hnumbers 703 (by decide)⟩, by decide,
    horder 702 703 (by decide) (by decide)⟩

end Column

end Appraisal
