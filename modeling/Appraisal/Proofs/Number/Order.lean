import Appraisal.Proofs.Number.Expansion
import Appraisal.Proofs.Number.Rounding

/-!
# The order of numbers

A number that is not below zero has a size, a number of units of the least positive float, whether
it is whole or a float. Numbers compare as their sizes do, also a whole number with a float, and
neither the float nearest to a number nor a product turns the order of sizes round.

* `size`, `AtLeastZero` — sizes of numbers;
* `lt_iff_size`, `le_iff_size` — **numbers compare as their sizes do**;
* `units_toFloat` — the size of the float nearest to a number;
* `mul_mono` — **a larger factor makes a product no smaller**.
-/

namespace Appraisal.Number

open Float.Model Float.Model.UnpackedFloat

/-! ## 1. Sizes -/

/-- How many times the least positive float goes into the size of a number. -/
def size : Number → ℕ∞
  | .whole n => ((n.natAbs * 2 ^ 1074 : ℕ) : ℕ∞)
  | .float x => units x.toModel.unpack

/-- Defined and not below zero. -/
def AtLeastZero : Number → Prop
  | .whole n => 0 ≤ n
  | .float x => Unsigned x.toModel.unpack

theorem size_natCast (n : ℕ) : size (.whole n) = ((n * 2 ^ 1074 : ℕ) : ℕ∞) := rfl

theorem size_float (x : Float) : size (.float x) = units x.toModel.unpack := rfl

/-- Whole multiples of powers of two compare as they do with the same power added to each. -/
theorem compare_scaled (n m j k l : ℕ) :
    compare ((n : ℤ) * 2 ^ j) ((m : ℤ) * 2 ^ k) =
      cmp ((n * 2 ^ (j + l) : ℕ) : ℕ∞) ((m * 2 ^ (k + l) : ℕ) : ℕ∞) := by
  have hcast : compare ((n : ℤ) * 2 ^ j) ((m : ℤ) * 2 ^ k) = cmp (n * 2 ^ j) (m * 2 ^ k) := by
    rw [← cmp_eq_compare, ← Nat.strictMono_cast (α := ℤ).cmp_map_eq]
    push_cast
    rfl
  rw [hcast, cmp_natCast, Nat.pow_add, Nat.pow_add, ← Nat.mul_assoc, ← Nat.mul_assoc,
    cmp_mul_pos_right (Nat.two_pow_pos l)]

theorem size_zero : size (.whole 0) = 0 := by
  rw [size, Int.natAbs_zero, Nat.zero_mul, Nat.cast_zero]

/-- A whole number and a float compare as their sizes do. -/
theorem compareWhole_eq (n : ℕ) {x : Float} (hx : Unsigned x.toModel.unpack) :
    compareWhole n x = some (cmp (size (.whole n)) (size (.float x))) := by
  have hstored := stored_unpack x.toModel
  rw [compareWhole, expand_eq, size_natCast, size_float]
  cases hu : x.toModel.unpack with
  | notANumber => rw [hu] at hx; exact hx.elim
  | infinity s =>
    rw [hu] at hx
    obtain rfl : s = .positive := hx
    exact congrArg some ((cmp_eq_lt_iff _ _).mpr (ENat.natCast_lt_top _)).symm
  | zero s =>
    have hzero : (if isMinus s then -((0 : ℕ) * (2 : ℤ) ^ 0) else (0 : ℕ) * (2 : ℤ) ^ 0) =
        (0 : ℕ) * (2 : ℤ) ^ 0 := by
      cases s <;> rfl
    have hcompare := compare_scaled n 0 1074 0 0
    rw [← hzero, Nat.zero_mul, Nat.add_zero] at hcompare
    exact congrArg some hcompare
  | finite s m e hm =>
    rw [hu] at hx hstored
    obtain rfl : s = .positive := hx
    have hleast : -1074 ≤ e := hstored.1.least
    have hleft : (-e).toNat + (1074 - (-e).toNat) = 1074 := by omega
    have hright : e.toNat + (1074 - (-e).toNat) = (e + 1074).toNat := by omega
    have hcompare := compare_scaled n m (-e).toNat e.toNat (1074 - (-e).toNat)
    rw [hleft, hright] at hcompare
    exact congrArg some hcompare

/-! ## 2. Comparison -/

section Comparison

variable {a b : Number}

theorem lt_iff_compare {x y : Float} :
    x < y ↔ x.toModel.unpack.compare y.toModel.unpack = some .lt := by
  refine ⟨compare_of_lt, fun h => decide_eq_true ?_⟩
  show (x.toModel.unpack.compare y.toModel.unpack == some .lt) = true
  rw [h]
  rfl

theorem le_iff_compare {x y : Float} :
    x ≤ y ↔ (x.toModel.unpack.compare y.toModel.unpack).any (·.isLE) = true :=
  ⟨of_decide_eq_true, decide_eq_true⟩

theorem lt_float_iff {x y : Float} (hx : Unsigned x.toModel.unpack)
    (hy : Unsigned y.toModel.unpack) :
    lt (.float x) (.float y) = true ↔ size (.float x) < size (.float y) := by
  rw [lt, decide_eq_true_eq, lt_iff_compare,
    compare_eq_cmp_units hx hy (stored_unpack _) (stored_unpack _), Option.some_inj,
    cmp_eq_lt_iff]
  rfl

theorem le_float_iff {x y : Float} (hx : Unsigned x.toModel.unpack)
    (hy : Unsigned y.toModel.unpack) :
    le (.float x) (.float y) = true ↔ size (.float x) ≤ size (.float y) := by
  rw [le, decide_eq_true_eq, le_iff_compare,
    compare_eq_cmp_units hx hy (stored_unpack _) (stored_unpack _), Option.any_some, size_float,
    size_float, ← Ordering.ne_gt_iff_isLE, cmp_eq_gt_iff, not_lt]

/-- **Numbers that are not below zero compare as their sizes do.** -/
theorem lt_iff_size (ha : AtLeastZero a) (hb : AtLeastZero b) :
    lt a b = true ↔ size a < size b := by
  cases a with
  | whole n =>
    obtain ⟨n, rfl⟩ := Int.eq_ofNat_of_zero_le ha
    cases b with
    | whole k =>
      obtain ⟨k, rfl⟩ := Int.eq_ofNat_of_zero_le hb
      rw [size_natCast, size_natCast, lt, decide_eq_true_eq, Nat.cast_lt, Nat.cast_lt,
        Nat.mul_lt_mul_right (Nat.two_pow_pos 1074)]
    | float y =>
      rw [lt, compareWhole_eq n hb, beq_iff_eq, Option.some_inj, cmp_eq_lt_iff]
  | float x =>
    cases b with
    | whole k =>
      obtain ⟨k, rfl⟩ := Int.eq_ofNat_of_zero_le hb
      rw [lt, compareWhole_eq k ha, beq_iff_eq, Option.some_inj, cmp_eq_gt_iff]
    | float y => exact lt_float_iff ha hb

/-- **Numbers that are not below zero compare as their sizes do.** -/
theorem le_iff_size (ha : AtLeastZero a) (hb : AtLeastZero b) :
    le a b = true ↔ size a ≤ size b := by
  cases a with
  | whole n =>
    obtain ⟨n, rfl⟩ := Int.eq_ofNat_of_zero_le ha
    cases b with
    | whole k =>
      obtain ⟨k, rfl⟩ := Int.eq_ofNat_of_zero_le hb
      rw [size_natCast, size_natCast, le, decide_eq_true_eq, Nat.cast_le, Nat.cast_le,
        Nat.mul_le_mul_right_iff (Nat.two_pow_pos 1074)]
    | float y =>
      rw [le, compareWhole_eq n hb, Bool.or_eq_true, beq_iff_eq, beq_iff_eq, Option.some_inj,
        Option.some_inj, cmp_eq_lt_iff, cmp_eq_eq_iff, le_iff_lt_or_eq]
  | float x =>
    cases b with
    | whole k =>
      obtain ⟨k, rfl⟩ := Int.eq_ofNat_of_zero_le hb
      rw [le, compareWhole_eq k ha, Bool.or_eq_true, beq_iff_eq, beq_iff_eq, Option.some_inj,
        Option.some_inj, cmp_eq_gt_iff, cmp_eq_eq_iff, le_iff_lt_or_eq, @eq_comm _ (size _)]
    | float y => exact le_float_iff ha hb

/-- What zero is at most is not below zero. -/
theorem atLeastZero_of_le (h : le (.whole 0) a = true) : AtLeastZero a := by
  cases a with
  | whole n =>
    have h : decide ((0 : ℤ) ≤ n) = true := h
    have hle : 0 ≤ n := of_decide_eq_true h
    exact hle
  | float x =>
    rw [le, compareWhole, expand_eq] at h
    show Unsigned x.toModel.unpack
    cases hu : x.toModel.unpack with
    | notANumber => rw [hu] at h; cases h
    | infinity s =>
      rw [hu] at h
      cases s with
      | negative => cases h
      | positive => rfl
    | zero s => trivial
    | finite s m e hm =>
      rw [hu] at h
      cases s with
      | positive => rfl
      | negative =>
        have hbelow : -((m : ℤ) * 2 ^ e.toNat) < 0 * 2 ^ (-e).toNat := by
          have hpos : 0 < (m : ℤ) * 2 ^ e.toNat := by positivity
          omega
        have hcompare : compare ((0 : ℤ) * 2 ^ (-e).toNat) (-((m : ℤ) * 2 ^ e.toNat)) = .gt :=
          compare_gt_iff_gt.mpr hbelow
        have h : (some (compare ((0 : ℤ) * 2 ^ (-e).toNat) (-((m : ℤ) * 2 ^ e.toNat))) ==
            some .lt || some (compare ((0 : ℤ) * 2 ^ (-e).toNat) (-((m : ℤ) * 2 ^ e.toNat))) ==
            some .eq) = true := h
        rw [hcompare] at h
        cases h

end Comparison

/-! ## 3. Floats and products -/

section Product

variable {a a' : Number} {x x' y : Float} {t : ℕ}

theorem exists_size (h : a.isFinite = true) (ha : AtLeastZero a) : ∃ t : ℕ, size a = t := by
  cases a with
  | whole n => exact ⟨_, rfl⟩
  | float x =>
    obtain ⟨-, t, -, ht, -⟩ := (stored_unpack x.toModel).exists_counts h ha
    exact ⟨t, ht⟩

/-- **The float nearest to a number** has the units that the number's are rounded to. -/
theorem units_toFloat (ha : AtLeastZero a) (ht : size a = t) (h : a.toFloat = .ok x) :
    Unsigned x.toModel.unpack ∧
      units x.toModel.unpack = packedUnits (roundUnits (t * 2 ^ 1074)) := by
  cases a with
  | whole n =>
    obtain ⟨n, rfl⟩ := Int.eq_ofNat_of_zero_le ha
    obtain rfl : n * 2 ^ 1074 = t := Nat.cast_inj.mp ((size_natCast n).symm.trans ht)
    have hparts : n * 2 ^ 1074 * 2 ^ 1074 = n * 2 ^ 2148 := mul_two_pow_mul (by decide) n
    rw [toFloat] at h
    split at h
    · cases h
    · cases h
      rw [hparts]
      exact units_ofNat n
  | float y =>
    cases h
    have hfinite : x.toModel.unpack.isFinite = true := isFinite_of_units ha ht
    obtain ⟨s, k, hcounts, hk, -⟩ := (stored_unpack x.toModel).exists_counts hfinite ha
    obtain rfl : k = t := by exact_mod_cast hk.symm.trans ht
    rw [hcounts.packedUnits_roundUnits (stored_unpack x.toModel)]
    exact ⟨ha, ht⟩

/-- The floats nearest to numbers keep the order of the numbers. -/
theorem toFloat_mono (ha : AtLeastZero a) (hfinite : a.isFinite = true) (ha' : AtLeastZero a')
    (hfinite' : a'.isFinite = true) (hle : le a a' = true) (hx : a.toFloat = .ok x)
    (hx' : a'.toFloat = .ok x') : units x.toModel.unpack ≤ units x'.toModel.unpack := by
  obtain ⟨t, ht⟩ := exists_size hfinite ha
  obtain ⟨t', ht'⟩ := exists_size hfinite' ha'
  have hsize : t ≤ t' := by
    have hsizes := (le_iff_size ha ha').mp hle
    rw [ht, ht'] at hsizes
    exact_mod_cast hsizes
  rw [(units_toFloat ha ht hx).2, (units_toFloat ha' ht' hx').2]
  exact packedUnits_mono (roundUnits_mono (Nat.mul_le_mul_right _ hsize))

theorem exists_units (hfinite : x.isFinite = true) (hx : Unsigned x.toModel.unpack) :
    ∃ r : ℕ, units x.toModel.unpack = r :=
  exists_size (a := .float x) hfinite hx

theorem unsigned_mul (hx : Unsigned x.toModel.unpack) (hfinite : x.isFinite = true)
    (hy : Unsigned y.toModel.unpack) (hyfinite : y.isFinite = true) :
    Unsigned (x * y).toModel.unpack := by
  obtain ⟨r, hr⟩ := exists_units hfinite hx
  obtain ⟨b, hb⟩ := exists_units hyfinite hy
  exact (units_mul hx hy hr hb).1

/-- **A larger factor makes a product no smaller.** -/
theorem mul_mono (hx : Unsigned x.toModel.unpack) (hfinite : x.isFinite = true)
    (hx' : Unsigned x'.toModel.unpack) (hfinite' : x'.isFinite = true)
    (hle : units x.toModel.unpack ≤ units x'.toModel.unpack) (hy : Unsigned y.toModel.unpack)
    (hyfinite : y.isFinite = true) :
    units (x * y).toModel.unpack ≤ units (x' * y).toModel.unpack := by
  obtain ⟨r, hr⟩ := exists_units hfinite hx
  obtain ⟨r', hr'⟩ := exists_units hfinite' hx'
  obtain ⟨b, hb⟩ := exists_units hyfinite hy
  have hfactor : r ≤ r' := by
    rw [hr, hr'] at hle
    exact_mod_cast hle
  rw [(units_mul hx hy hr hb).2, (units_mul hx' hy hr' hb).2]
  exact packedUnits_mono (roundUnits_mono (Nat.mul_le_mul_right _ hfactor))

theorem float_mul_comm (x y : Float) : x * y = y * x := by
  have hsign : ∀ s s' : Sign, s * s' = s' * s := by
    intro s s'
    cases s <;> cases s' <;> rfl
  have hmul : UnpackedFloat.mul Format.binary64 x.toModel.unpack y.toModel.unpack =
      UnpackedFloat.mul Format.binary64 y.toModel.unpack x.toModel.unpack := by
    cases x.toModel.unpack <;> cases y.toModel.unpack <;>
      simp only [UnpackedFloat.mul, hsign, Nat.mul_comm, Int.add_comm]
  exact congrArg (fun u => Float.ofModel (Float.Model.pack u)) hmul

theorem toFloat_one : toFloat (.whole 1) = .ok 1.0 := by
  have hvalue : Float.ofInt 1 = 1.0 := by decide
  rw [toFloat, hvalue, if_neg (by decide)]

/-- A number has a float that is not zero exactly if it is not zero itself. -/
theorem units_toFloat_pos_iff (ha : AtLeastZero a) (hfinite : a.isFinite = true)
    (hx : a.toFloat = .ok x) : 0 < units x.toModel.unpack ↔ lt (.whole 0) a = true := by
  rw [lt_iff_size (a := .whole 0) (Int.le_refl 0) ha, size_zero]
  constructor
  · intro hunits
    rw [pos_iff_ne_zero]
    intro hsize
    have hround := (units_toFloat (t := 0) ha hsize hx).2
    rw [Nat.zero_mul, roundUnits_zero, packedUnits_zero] at hround
    exact absurd hround (ne_of_gt hunits)
  · intro hsize
    cases a with
    | float y =>
      cases hx
      exact hsize
    | whole n =>
      have hpos : lt (.whole 0) (.whole n) = true :=
        (lt_iff_size (a := .whole 0) (Int.le_refl 0) ha).mpr (by rwa [size_zero])
      have hone : (1 : ℤ) ≤ n := of_decide_eq_true (p := (0 : ℤ) < n) hpos
      have hle : units (1.0 : Float).toModel.unpack ≤ units x.toModel.unpack :=
        toFloat_mono (a := .whole 1) Int.one_nonneg rfl ha hfinite (decide_eq_true hone)
          toFloat_one hx
      have hparts : (1.0 : Float).toModel.unpack = .finite .positive (2 ^ 52) (-52) (by decide) :=
        rfl
      rw [hparts] at hle
      exact lt_of_lt_of_le (units_finite_pos .positive (-52) _) hle

end Product

/-! ## 4. The undefined float and infinities -/

section Special

variable {a b : Number} {x y : Float}

theorem of_isInf (h : x.isInf = true) : x.isNaN = false ∧ x.isFinite = false := by
  have hinf : x.toModel.unpack.isInf = true := h
  show x.toModel.unpack.isNaN = false ∧ x.toModel.unpack.isFinite = false
  cases hx : x.toModel.unpack with
  | infinity s => exact ⟨rfl, rfl⟩
  | notANumber | zero s | finite s m e hm => rw [hx] at hinf; cases hinf

theorem isInf_of_isFinite (h : x.isFinite = true) : x.isInf = false := by
  refine Bool.eq_false_iff.mpr fun hinf => ?_
  rw [(of_isInf hinf).2] at h
  cases h

theorem isNaN_of_isFinite (h : x.isFinite = true) : x.isNaN = false := by
  have hfinite : x.toModel.unpack.isFinite = true := h
  show x.toModel.unpack.isNaN = false
  cases hx : x.toModel.unpack with
  | notANumber => rw [hx] at hfinite; cases hfinite
  | infinity s | zero s | finite s m e hm => rfl

theorem isInf_or_isFinite (h : x.isNaN = false) : x.isInf = true ∨ x.isFinite = true := by
  have hnan : x.toModel.unpack.isNaN = false := h
  show x.toModel.unpack.isInf = true ∨ x.toModel.unpack.isFinite = true
  cases hx : x.toModel.unpack with
  | notANumber => rw [hx] at hnan; cases hnan
  | infinity s => exact Or.inl rfl
  | zero s | finite s m e hm => exact Or.inr rfl

theorem eq_of_unpack_eq (h : x.toModel.unpack = y.toModel.unpack) : x = y := by
  have hmodel : x.toModel = y.toModel := by rw [← pack_unpack x.toModel, h, pack_unpack]
  exact congrArg Float.ofModel hmodel

theorem compareWhole_undefined (n : ℤ) (h : x.isNaN = true) : compareWhole n x = none := by
  have hnan : x.toModel.unpack.isNaN = true := h
  rw [compareWhole, expand_eq]
  cases hx : x.toModel.unpack with
  | notANumber => rfl
  | infinity s | zero s | finite s m e hm => rw [hx] at hnan; cases hnan

theorem compare_undefined {u v : UnpackedFloat} (h : u.isNaN = true ∨ v.isNaN = true) :
    u.compare v = none := by
  cases u with
  | notANumber => rfl
  | infinity s | zero s | finite s m e hm =>
    cases v with
    | notANumber => rfl
    | infinity s | zero s | finite s m e hm => rcases h with h | h <;> cases h

/-- The undefined float is at most nothing. -/
theorem le_undefined (h : x.isNaN = true) (b : Number) : le (.float x) b = false := by
  cases b with
  | whole n => rw [le, compareWhole_undefined n h]; rfl
  | float y =>
    rw [le, decide_eq_false_iff_not, le_iff_compare, compare_undefined (Or.inl h)]
    exact Bool.false_ne_true

/-- The undefined float is not chosen. -/
theorem larger_undefined (a : Number) (h : x.isNaN = true) : larger a (.float x) = a := by
  have hlt : lt a (.float x) = false := by
    cases a with
    | whole n => rw [lt, compareWhole_undefined n h]; rfl
    | float y =>
      rw [lt, decide_eq_false_iff_not, lt_iff_compare, compare_undefined (Or.inr h)]
      exact nofun
  rw [larger, hlt]
  rfl

/-- The larger of two numbers has the larger of their sizes. -/
theorem size_larger (ha : AtLeastZero a) (hb : AtLeastZero b) :
    AtLeastZero (larger a b) ∧ size (larger a b) = max (size a) (size b) := by
  unfold larger
  split
  · next hlt => exact ⟨hb, (max_eq_right ((lt_iff_size ha hb).mp hlt).le).symm⟩
  · next hle =>
    exact ⟨ha, (max_eq_left (not_lt.mp (mt (lt_iff_size ha hb).mpr hle))).symm⟩

theorem units_eq_top_iff : units x.toModel.unpack = ⊤ ↔ x.isInf = true := by
  show _ ↔ x.toModel.unpack.isInf = true
  cases x.toModel.unpack with
  | infinity s => exact ⟨fun _ => rfl, fun _ => rfl⟩
  | notANumber | zero s => exact ⟨fun h => absurd h (ENat.natCast_ne_top 0), nofun⟩
  | finite s m e hm => exact ⟨fun h => absurd h (ENat.natCast_ne_top _), nofun⟩

/-- An infinity is at most what is infinite. -/
theorem le_iff_of_infinite (hx : x.toModel.unpack = .infinity .positive) (hb : AtLeastZero b) :
    le (.float x) b = true ↔ size b = ⊤ := by
  have hleast : AtLeastZero (.float x) := by
    show Unsigned x.toModel.unpack
    rw [hx]
    rfl
  have hsize : size (.float x) = ⊤ := by
    rw [size_float, hx]
    rfl
  rw [le_iff_size hleast hb, hsize, top_le_iff]

/-- A difference is undefined if a float is, or if both are the same infinity, and infinite if there
    is another infinity. -/
theorem sub_cases (u v : UnpackedFloat) :
    (UnpackedFloat.sub Format.binary64 v u = .notANumber ∧
      (u.isNaN = true ∨ v.isNaN = true ∨ u.isInf = true ∧ v = u)) ∨
    ((∃ s, UnpackedFloat.sub Format.binary64 v u = .infinity s) ∧ v ≠ u ∧ u.isNaN = false ∧
      v.isNaN = false ∧ (u.isInf = true ∨ v.isInf = true)) ∨
    (u.isFinite = true ∧ v.isFinite = true) := by
  cases u with
  | notANumber =>
    refine Or.inl ⟨?_, Or.inl rfl⟩
    cases v <;> rfl
  | infinity s =>
    cases v with
    | notANumber => exact Or.inl ⟨rfl, Or.inr (Or.inl rfl)⟩
    | infinity s' =>
      cases s with
      | negative =>
        cases s' with
        | negative => exact Or.inl ⟨rfl, Or.inr (Or.inr ⟨rfl, rfl⟩)⟩
        | positive => exact Or.inr (Or.inl ⟨⟨_, rfl⟩, nofun, rfl, rfl, Or.inl rfl⟩)
      | positive =>
        cases s' with
        | negative => exact Or.inr (Or.inl ⟨⟨_, rfl⟩, nofun, rfl, rfl, Or.inl rfl⟩)
        | positive => exact Or.inl ⟨rfl, Or.inr (Or.inr ⟨rfl, rfl⟩)⟩
    | zero s' | finite s' m' e' hm' =>
      exact Or.inr (Or.inl ⟨⟨_, rfl⟩, nofun, rfl, rfl, Or.inl rfl⟩)
  | zero s | finite s m e hm =>
    cases v with
    | notANumber => exact Or.inl ⟨rfl, Or.inr (Or.inl rfl)⟩
    | infinity s' => exact Or.inr (Or.inl ⟨⟨_, rfl⟩, nofun, rfl, rfl, Or.inr rfl⟩)
    | zero s' | finite s' m' e' hm' => exact Or.inr (Or.inr ⟨rfl, rfl⟩)

/-- **How far two floats are apart** is undefined if one of them is or both are the same infinity;
    it is infinite if just one of them is an infinity, or both and different ones. -/
theorem abs_sub_cases (x y : Float) :
    ((y - x).abs.isNaN = true ∧ (x.isNaN = true ∨ y.isNaN = true ∨ x.isInf = true ∧ y = x)) ∨
    ((y - x).abs.toModel.unpack = .infinity .positive ∧ y ≠ x ∧ x.isNaN = false ∧
      y.isNaN = false ∧ (x.isInf = true ∨ y.isInf = true)) ∨
    (Unsigned (y - x).abs.toModel.unpack ∧ x.isFinite = true ∧ y.isFinite = true) := by
  have hunpack : (y - x).abs.toModel.unpack = (Float.Model.pack (UnpackedFloat.sub Format.binary64
      y.toModel.unpack x.toModel.unpack)).unpack.abs := unpack_abs (y - x)
  rcases sub_cases x.toModel.unpack y.toModel.unpack with
    ⟨hsub, hcase⟩ | ⟨⟨s, hsub⟩, hne, hrest⟩ | ⟨hx, hy⟩
  · refine Or.inl ⟨?_, hcase.imp_right (Or.imp_right fun h => ⟨h.1, eq_of_unpack_eq h.2⟩)⟩
    show (y - x).abs.toModel.unpack.isNaN = true
    rw [hunpack, hsub]
    rfl
  · refine Or.inr (Or.inl ⟨?_, fun h => hne (by rw [h]), hrest⟩)
    rw [hunpack, hsub]
    cases s <;> rfl
  · exact Or.inr (Or.inr ⟨unsigned_abs (isNaN_pack (isNaN_sub hy hx)), hx, hy⟩)

/-- Different floats of which one is infinite are infinitely far apart. -/
theorem unpack_abs_sub_of_isInf (hx : x.isNaN = false) (hy : y.isNaN = false) (hne : y ≠ x)
    (hinf : x.isInf = true ∨ y.isInf = true) :
    (y - x).abs.toModel.unpack = .infinity .positive := by
  rcases abs_sub_cases x y with ⟨-, hcause⟩ | ⟨hd, -⟩ | ⟨-, hxfinite, hyfinite⟩
  · rw [hx, hy] at hcause
    rcases hcause with hnan | hnan | ⟨-, heq⟩
    · cases hnan
    · cases hnan
    · exact absurd heq hne
  · exact hd
  · rw [isInf_of_isFinite hxfinite, isInf_of_isFinite hyfinite] at hinf
    rcases hinf with hinf | hinf <;> cases hinf

theorem unpack_abs_of_isInf (h : x.isInf = true) :
    x.abs.toModel.unpack = .infinity .positive := by
  have hinf : x.toModel.unpack.isInf = true := h
  rw [unpack_abs]
  cases hx : x.toModel.unpack with
  | infinity s => rfl
  | notANumber | zero s | finite s m e hm => rw [hx] at hinf; cases hinf

/-- A part of an infinity is undefined if the part is nothing, and infinite else. -/
theorem mul_infinity_cases (hx : Unsigned x.toModel.unpack) (hfinite : x.isFinite = true)
    (hy : y.toModel.unpack = .infinity .positive) :
    (units x.toModel.unpack = 0 ∧ (x * y).isNaN = true) ∨
      (0 < units x.toModel.unpack ∧ (x * y).toModel.unpack = .infinity .positive) := by
  have hfinite : x.toModel.unpack.isFinite = true := hfinite
  have hunpack : (x * y).toModel.unpack = (Float.Model.pack (UnpackedFloat.mul Format.binary64
      x.toModel.unpack (.infinity .positive))).unpack := by
    rw [← hy]
    rfl
  have hnan : (x * y).isNaN = (x * y).toModel.unpack.isNaN := rfl
  rw [hnan, hunpack]
  cases hu : x.toModel.unpack with
  | notANumber | infinity s => rw [hu] at hfinite; cases hfinite
  | zero s =>
    have hmul : UnpackedFloat.mul Format.binary64 (.zero s) (.infinity .positive) =
        .notANumber := rfl
    rw [hmul]
    exact Or.inl ⟨rfl, rfl⟩
  | finite s m e hm =>
    rw [hu] at hx
    obtain rfl : s = .positive := hx
    have hmul : UnpackedFloat.mul Format.binary64 (.finite .positive m e hm)
        (.infinity .positive) = .infinity .positive := rfl
    rw [hmul]
    exact Or.inr ⟨units_finite_pos .positive e hm, rfl⟩

end Special

end Appraisal.Number
