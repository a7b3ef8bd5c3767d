import Appraisal.Proofs.Number.Range
import Mathlib.Data.ENat.Basic
import Mathlib.Order.Compare

/-!
# Rounding keeps the order

Every finite float is a multiple of the least positive one, so sizes of floats are numbers of such
units, and infinities are of infinite size. To round a size is to round a number of parts of a unit,
and the more parts there are, the more units they are rounded to.

* `units`, `compare_eq_cmp_units` — **floats that are not below zero compare as their sizes do**;
* `quarters` — what is known of the places cut off, which shifting and rounding keep in order;
* `roundUnits`, `roundUnits_mono` — **more parts are rounded to more units**, or to as many;
* `counts_roundWithAccuracy`, `unpack_pack` — rounding and packing;
* `unpack_abs`, `units_mul`, `units_ofNat` — **sizes of floats without their sign, of products and
  of whole numbers**.
-/

namespace Appraisal.Number

open Float.Model Float.Model.UnpackedFloat

/-! ## 1. Sizes -/

/-- How many times the least positive float goes into the size of a float. The undefined float
    counts as nothing. -/
def units : UnpackedFloat → ℕ∞
  | .notANumber => 0
  | .infinity _ => ⊤
  | .zero _ => 0
  | .finite _ m e _ => ((m * 2 ^ (e + 1074).toNat : ℕ) : ℕ∞)

theorem units_finite_pos (s : Sign) {m : ℕ} (e : ℤ) (hm : 0 < m) :
    0 < units (.finite s m e hm) :=
  Nat.cast_pos.mpr (Nat.mul_pos hm (Nat.two_pow_pos _))

/-- As floats are stored: a finite one with a mantissa and an exponent that fit its bits. -/
def Stored : UnpackedFloat → Prop
  | .finite _ m e _ => Canonical m e ∧ e ≤ 971
  | _ => True

/-- Defined and not below zero. -/
def Unsigned : UnpackedFloat → Prop
  | .notANumber => False
  | .infinity s => s = .positive
  | .zero _ => True
  | .finite s _ _ _ => s = .positive

theorem stored_unpack (x : Float.Model) : Stored x.unpack := by
  cases hx : x.unpack with
  | notANumber | infinity s | zero s => trivial
  | finite s m e hm =>
    have hfinite : x.unpack.isFinite = true := by rw [hx]; rfl
    have hwithin := (isFinite_iff_within (Float.ofModel x)).mp hfinite
    have hwithin : Within 1024 x.unpack := hwithin
    rw [hx] at hwithin
    have he : e ≤ 1024 - 53 := hwithin.2
    exact ⟨canonical_of_unpack hx, by omega⟩

section Canonical

variable {m m' : ℕ} {e e' : ℤ}

theorem Canonical.lt (h : Canonical m e) : m < 2 ^ 53 := by
  have hlog : m.log2 ≤ 52 := by
    rcases h with ⟨hm, -⟩ | ⟨hm, -⟩ <;> omega
  calc m < 2 ^ (m.log2 + 1) := Nat.lt_log2_self
    _ ≤ 2 ^ 53 := Nat.pow_le_pow_right (by decide) (by omega)

theorem Canonical.least (h : Canonical m e) : -1074 ≤ e := by
  rcases h with ⟨-, he⟩ | ⟨-, he⟩ <;> omega

/-- A mantissa above the least exponent has its full length. -/
theorem Canonical.le (h : Canonical m e) (he : -1074 < e) : 2 ^ 52 ≤ m := by
  rcases h with ⟨hm, -⟩ | ⟨-, hleast⟩
  · have hne : m ≠ 0 := by
      rintro rfl
      cases hm
    rw [← hm]
    exact Nat.log2_self_le hne
  · omega

/-- What has the greater exponent is greater. -/
theorem Canonical.units_lt (h : Canonical m e) (h' : Canonical m' e') (he : e < e') :
    m * 2 ^ (e + 1074).toNat < m' * 2 ^ (e' + 1074).toNat := by
  have hleast := h.least
  have hplace : (e + 1074).toNat + 1 ≤ (e' + 1074).toNat := by omega
  calc m * 2 ^ (e + 1074).toNat
      < 2 ^ 53 * 2 ^ (e + 1074).toNat := Nat.mul_lt_mul_of_pos_right h.lt (Nat.two_pow_pos _)
    _ = 2 ^ 52 * 2 ^ ((e + 1074).toNat + 1) := by rw [Nat.pow_succ]; ring
    _ ≤ 2 ^ 52 * 2 ^ (e' + 1074).toNat :=
      Nat.mul_le_mul_left _ (Nat.pow_le_pow_right (by decide) hplace)
    _ ≤ m' * 2 ^ (e' + 1074).toNat := Nat.mul_le_mul_right _ (h'.le (by omega))

/-- Exponents, and mantissas where they are equal, compare as the sizes do. -/
theorem Canonical.cmp_units (h : Canonical m e) (h' : Canonical m' e') :
    (compare e e').then (compare m m') =
      cmp (m * 2 ^ (e + 1074).toNat) (m' * 2 ^ (e' + 1074).toNat) := by
  rcases lt_trichotomy e e' with hlt | rfl | hgt
  · rw [compare_lt_iff_lt.mpr hlt, (cmp_eq_lt_iff _ _).mpr (h.units_lt h' hlt)]
    rfl
  · rw [compare_eq_iff_eq.mpr rfl, cmp_mul_pos_right (Nat.two_pow_pos _), cmp_eq_compare]
    rfl
  · rw [compare_gt_iff_gt.mpr hgt, (cmp_eq_gt_iff _ _).mpr (h'.units_lt h hgt)]
    rfl

end Canonical

theorem cmp_natCast (a b : ℕ) : cmp (a : ℕ∞) (b : ℕ∞) = cmp a b :=
  Nat.strictMono_cast.cmp_map_eq a b

/-- **Floats that are not below zero compare as their sizes do.** -/
theorem compare_eq_cmp_units {u v : UnpackedFloat} (hu : Unsigned u) (hv : Unsigned v)
    (hstored : Stored u) (hstored' : Stored v) :
    u.compare v = some (cmp (units u) (units v)) := by
  have htop : ∀ a : ℕ, cmp (a : ℕ∞) ⊤ = .lt ∧ cmp ⊤ (a : ℕ∞) = .gt := fun a =>
    ⟨(cmp_eq_lt_iff _ _).mpr (ENat.natCast_lt_top a), (cmp_eq_gt_iff _ _).mpr (ENat.natCast_lt_top a)⟩
  cases u with
  | notANumber => exact hu.elim
  | infinity s =>
    obtain rfl : s = .positive := hu
    cases v with
    | notANumber => exact hv.elim
    | infinity s' =>
      obtain rfl : s' = .positive := hv
      exact congrArg some (cmp_self_eq_eq (⊤ : ℕ∞)).symm
    | zero s' => exact congrArg some (htop 0).2.symm
    | finite s' m' e' hm' => exact congrArg some (htop _).2.symm
  | zero s =>
    cases v with
    | notANumber => exact hv.elim
    | infinity s' =>
      obtain rfl : s' = .positive := hv
      exact congrArg some (htop 0).1.symm
    | zero s' => exact congrArg some (cmp_self_eq_eq (0 : ℕ∞)).symm
    | finite s' m' e' hm' =>
      obtain rfl : s' = .positive := hv
      exact congrArg some ((cmp_eq_lt_iff _ _).mpr (units_finite_pos .positive e' hm')).symm
  | finite s m e hm =>
    obtain rfl : s = .positive := hu
    cases v with
    | notANumber => exact hv.elim
    | infinity s' =>
      obtain rfl : s' = .positive := hv
      exact congrArg some (htop _).1.symm
    | zero s' => exact congrArg some ((cmp_eq_gt_iff _ _).mpr (units_finite_pos .positive e hm)).symm
    | finite s' m' e' hm' =>
      obtain rfl : s' = .positive := hv
      exact congrArg some ((hstored.1.cmp_units hstored'.1).trans (cmp_natCast _ _).symm)

/-! ## 2. Places that are cut off -/

section Cut

variable {em em' : ExtendedMantissa} {m n n' j k : ℕ}

/-- A mantissa with what is known of the places cut off, as a number of quarters. -/
def quarters (em : ExtendedMantissa) : ℕ :=
  4 * em.mantissa + 2 * em.roundBit.toNat + em.stickyBit.toNat

theorem quarters_shiftRightOne (em : ExtendedMantissa) :
    quarters em.shiftRightOne = 2 * (quarters em / 4) + min (quarters em % 4) 1 := by
  obtain ⟨m, round, sticky⟩ := em
  have hbit : (m % 2 != 0).toNat = m % 2 := by
    rcases Nat.mod_two_eq_zero_or_one m with h | h <;> rw [h] <;> rfl
  simp only [quarters, ExtendedMantissa.shiftRightOne, hbit]
  cases round <;> cases sticky <;> simp only [Bool.toNat_true, Bool.toNat_false, Bool.or_self,
    Bool.or_true, Bool.or_false] <;> omega

/-- Three quarters are rounded up, and two if the mantissa is odd. -/
theorem roundedMantissa_eq (em : ExtendedMantissa) :
    em.roundedMantissa = quarters em / 4 + (quarters em % 4 + quarters em / 4 % 2) / 3 := by
  obtain ⟨m, round, sticky⟩ := em
  cases round <;> cases sticky <;> simp only [quarters, ExtendedMantissa.roundedMantissa,
    ExtendedMantissa.accuracy, Accuracy.roundToNearestEven, Bool.toNat_true, Bool.toNat_false]
    <;> omega

/-- To cut off places keeps the order. -/
theorem quarters_shiftRight_mono (h : quarters em ≤ quarters em') (k : ℕ) :
    quarters (em >>> k) ≤ quarters (em' >>> k) := by
  induction k with
  | zero => exact h
  | succ k ih =>
    show quarters (em >>> k).shiftRightOne ≤ quarters (em' >>> k).shiftRightOne
    rw [quarters_shiftRightOne, quarters_shiftRightOne]
    omega

theorem roundedMantissa_mono (h : quarters em ≤ quarters em') :
    em.roundedMantissa ≤ em'.roundedMantissa := by
  rw [roundedMantissa_eq, roundedMantissa_eq]
  omega

theorem mantissa_le_roundedMantissa (em : ExtendedMantissa) :
    em.mantissa ≤ em.roundedMantissa := by
  have hquarters : quarters em / 4 = em.mantissa := by
    obtain ⟨m, round, sticky⟩ := em
    cases round <;> cases sticky <;> simp only [quarters, Bool.toNat_true, Bool.toNat_false]
      <;> omega
  rw [roundedMantissa_eq, hquarters]
  omega

theorem shiftRight_add (em : ExtendedMantissa) (j k : ℕ) : em >>> (j + k) = (em >>> j) >>> k := by
  induction k with
  | zero => rfl
  | succ k ih => exact congrArg ExtendedMantissa.shiftRightOne ih

/-- A number without its last places, rounded to the nearest one. -/
def rounded (n k : ℕ) : ℕ :=
  ((⟨n, false, false⟩ : ExtendedMantissa) >>> k).roundedMantissa

theorem rounded_mono (h : n ≤ n') (k : ℕ) : rounded n k ≤ rounded n' k := by
  refine roundedMantissa_mono (quarters_shiftRight_mono ?_ k)
  simp only [quarters]
  omega

theorem div_le_rounded (n k : ℕ) : n / 2 ^ k ≤ rounded n k := by
  have hle := mantissa_le_roundedMantissa ((⟨n, false, false⟩ : ExtendedMantissa) >>> k)
  rwa [shiftRight_mantissa] at hle

theorem rounded_le (n k : ℕ) : rounded n k ≤ n / 2 ^ k + 1 := by
  have hle := roundedMantissa_le ((⟨n, false, false⟩ : ExtendedMantissa) >>> k)
  rwa [shiftRight_mantissa] at hle

/-- Zeros at the end do not matter where they are cut off. -/
theorem rounded_mul_add (m j k : ℕ) : rounded (m * 2 ^ j) (j + k) = rounded m k := by
  rw [rounded, shiftRight_add, shiftRight_mul, rounded]

theorem rounded_mul (m k : ℕ) : rounded (m * 2 ^ k) k = m :=
  rounded_mul_add m k 0

end Cut

/-! ## 3. Parts of a unit -/

section Parts

variable {n n' : ℕ}

/-- How many places are cut off a number of parts, of which a unit has two to the power of 1074:
    those that are less than a unit, and all but 53. -/
def cut (n : ℕ) : ℕ :=
  max (n.log2 - 52) 1074

/-- The units that parts are rounded to. -/
def roundUnits (n : ℕ) : ℕ :=
  rounded n (cut n) * 2 ^ (cut n - 1074)

theorem cut_mono (h : n ≤ n') : cut n ≤ cut n' := by
  have hlog := log2_mono h
  unfold cut
  omega

theorem rounded_cut_le (n : ℕ) : rounded n (cut n) ≤ 2 ^ 53 := by
  have hlt : n < 2 ^ 53 * 2 ^ cut n :=
    calc n < 2 ^ (n.log2 + 1) := Nat.lt_log2_self
      _ ≤ 2 ^ (53 + cut n) := Nat.pow_le_pow_right (by decide) (by unfold cut; omega)
      _ = 2 ^ 53 * 2 ^ cut n := Nat.pow_add ..
  have hdiv : n / 2 ^ cut n < 2 ^ 53 := Nat.div_lt_of_lt_mul (by rwa [Nat.mul_comm])
  exact (rounded_le n (cut n)).trans hdiv

theorem le_rounded_cut (h : 1074 < cut n) : 2 ^ 52 ≤ rounded n (cut n) := by
  have hlog : n.log2 = 52 + cut n := by
    unfold cut at h ⊢
    omega
  have hne : n ≠ 0 := by
    rintro rfl
    rw [Nat.log2_zero] at hlog
    omega
  have hle : 2 ^ 52 * 2 ^ cut n ≤ n := by
    rw [← Nat.pow_add, ← hlog]
    exact Nat.log2_self_le hne
  exact ((Nat.le_div_iff_mul_le (Nat.two_pow_pos _)).mpr hle).trans (div_le_rounded n _)

/-- **More parts are rounded to more units**, or to as many. -/
theorem roundUnits_mono (h : n ≤ n') : roundUnits n ≤ roundUnits n' := by
  have hleast : 1074 ≤ cut n := Nat.le_max_right ..
  rcases (cut_mono h).eq_or_lt with heq | hlt
  · rw [roundUnits, roundUnits, ← heq]
    exact Nat.mul_le_mul_right _ (rounded_mono h _)
  · calc rounded n (cut n) * 2 ^ (cut n - 1074)
        ≤ 2 ^ 53 * 2 ^ (cut n - 1074) := Nat.mul_le_mul_right _ (rounded_cut_le n)
      _ = 2 ^ 52 * 2 ^ (cut n - 1074 + 1) := by rw [Nat.pow_succ]; ring
      _ ≤ 2 ^ 52 * 2 ^ (cut n' - 1074) :=
        Nat.mul_le_mul_left _ (Nat.pow_le_pow_right (by decide) (by omega))
      _ ≤ rounded n' (cut n') * 2 ^ (cut n' - 1074) :=
        Nat.mul_le_mul_right _ (le_rounded_cut (by omega))

theorem roundUnits_zero : roundUnits 0 = 0 := by
  have hzero : rounded 0 (cut 0) = 0 := by
    have hmul := rounded_mul 0 (cut 0)
    rwa [Nat.zero_mul] at hmul
  rw [roundUnits, hzero, Nat.zero_mul]

/-- The units of a float are not rounded. -/
theorem Canonical.roundUnits_eq {m : ℕ} {e : ℤ} (h : Canonical m e) (hm : 0 < m) :
    roundUnits (m * 2 ^ (e + 1074).toNat * 2 ^ 1074) = m * 2 ^ (e + 1074).toNat := by
  have hcut : cut (m * 2 ^ ((e + 1074).toNat + 1074)) = (e + 1074).toNat + 1074 := by
    rw [cut, log2_mul_two_pow hm]
    rcases h with ⟨hlog, he⟩ | ⟨hlog, he⟩ <;> omega
  rw [Nat.mul_assoc, ← Nat.pow_add, roundUnits, hcut, rounded_mul, Nat.add_sub_cancel]

end Parts

/-! ## 4. Rounding and packing -/

/-- A zero or a finite float of a sign and of a number of units, not packed yet. -/
def Counts (s : Sign) (t : ℕ) : UnpackedFloat → Prop
  | .zero s' => s' = s ∧ t = 0
  | .finite s' m e _ => s' = s ∧ Canonical m e ∧ m * 2 ^ (e + 1074).toNat = t
  | _ => False

section Counts

variable {s s' : Sign} {m t t' : ℕ} {e : ℤ} {u v : UnpackedFloat}

theorem log2_two_pow_53 : (2 ^ 53 : ℕ).log2 = 53 := by
  decide

/-- A mantissa of at most 53 places stays where it is. -/
theorem shiftToTargetExponent_of_lt {r : ℕ} (hr : r < 2 ^ 53) (he : -1074 ≤ e) :
    shiftToTargetExponent Format.binary64 r e .exact = (⟨r, false, false⟩, e) := by
  have hlog : r.log2 ≤ 52 := by
    rcases Nat.eq_zero_or_pos r with rfl | hpos
    · decide
    · exact Nat.le_of_lt_succ ((Nat.log2_lt (Nat.ne_of_gt hpos)).mpr hr)
  have hshift : (Format.binary64.targetExponent (totalExponent r e) - e).toNat = 0 := by
    rw [targetExponent_binary64, totalExponent]
    omega
  rw [shiftToTargetExponent, shiftToExponent, hshift]
  exact Prod.ext rfl (Int.add_zero e)

/-- A mantissa that was rounded up to the next power loses a place. -/
theorem shiftToTargetExponent_two_pow (he : -1074 ≤ e) :
    shiftToTargetExponent Format.binary64 (2 ^ 53) e .exact =
      (⟨2 ^ 52, false, false⟩, e + 1) := by
  have hshift : (Format.binary64.targetExponent (totalExponent (2 ^ 53) e) - e).toNat = 1 := by
    rw [targetExponent_binary64, totalExponent, log2_two_pow_53]
    omega
  rw [shiftToTargetExponent, shiftToExponent, hshift]
  rfl

/-- What is rounded has its mantissa cut, and cut once more where that was rounded up to the next
    power. -/
theorem roundWithAccuracy_eq_cut (s : Sign) (hm : 0 < m) (he : -2148 ≤ e)
    (htarget : e ≤ max (totalExponent m e - 53) (-1074)) {n : ℕ}
    (hn : m * 2 ^ (e + 2148).toNat = n) :
    roundWithAccuracy Format.binary64 s m e .exact =
      (let last := shiftToTargetExponent Format.binary64 (rounded n (cut n))
        ((cut n : ℤ) - 2148) .exact
      if h : last.1.mantissa = 0 then .zero s
      else .finite s last.1.mantissa last.2 (Nat.pos_of_ne_zero h)) := by
  have hcut : cut n = (e + 2148).toNat +
      (Format.binary64.targetExponent (totalExponent m e) - e).toNat := by
    rw [← hn, cut, log2_mul_two_pow hm, targetExponent_binary64]
    rw [totalExponent] at htarget ⊢
    omega
  have hplace : e + ((Format.binary64.targetExponent (totalExponent m e) - e).toNat : ℤ) =
      (cut n : ℤ) - 2148 := by
    rw [hcut]
    omega
  have hrounded : ((⟨m, false, false⟩ : ExtendedMantissa) >>>
      (Format.binary64.targetExponent (totalExponent m e) - e).toNat).roundedMantissa =
      rounded n (cut n) := by
    rw [hcut, ← hn, rounded_mul_add, rounded]
  rw [← hrounded, ← hplace]
  rfl

/-- A cut mantissa of at most 53 places has the form of a float. -/
theorem canonical_rounded {n : ℕ} (hlt : rounded n (cut n) < 2 ^ 53)
    (hzero : rounded n (cut n) ≠ 0) : Canonical (rounded n (cut n)) ((cut n : ℤ) - 2148) := by
  have hleast : 1074 ≤ cut n := Nat.le_max_right ..
  have hlog : (rounded n (cut n)).log2 < 53 := (Nat.log2_lt hzero).mpr hlt
  unfold Canonical
  rcases hleast.eq_or_lt with hsmall | hlarge
  · omega
  · have hfull : 52 ≤ (rounded n (cut n)).log2 := (Nat.le_log2 hzero).mpr (le_rounded_cut hlarge)
    omega

/-- **What is rounded has the units that its parts are rounded to.** -/
theorem counts_roundWithAccuracy (s : Sign) (hm : 0 < m) (he : -2148 ≤ e)
    (htarget : e ≤ max (totalExponent m e - 53) (-1074)) :
    Counts s (roundUnits (m * 2 ^ (e + 2148).toNat))
      (roundWithAccuracy Format.binary64 s m e .exact) := by
  generalize hn : m * 2 ^ (e + 2148).toNat = n
  rw [roundWithAccuracy_eq_cut s hm he htarget hn]
  have hleast : 1074 ≤ cut n := Nat.le_max_right ..
  have hunits : ((cut n : ℤ) - 2148 + 1074).toNat = cut n - 1074 := by omega
  rcases (rounded_cut_le n).lt_or_eq with hlt | heq
  · rw [shiftToTargetExponent_of_lt hlt (by omega)]
    by_cases hzero : rounded n (cut n) = 0
    · rw [dif_pos hzero]
      exact ⟨rfl, by rw [roundUnits, hzero, Nat.zero_mul]⟩
    · rw [dif_neg hzero]
      exact ⟨rfl, canonical_rounded hlt hzero, by rw [roundUnits, hunits]⟩
  · rw [heq, shiftToTargetExponent_two_pow (by omega)]
    have hnext : ((cut n : ℤ) - 2148 + 1 + 1074).toNat = cut n - 1074 + 1 := by omega
    have hlog : (2 ^ 52 : ℕ).log2 = 52 := by decide
    refine ⟨rfl, Or.inl ⟨hlog, by omega⟩, ?_⟩
    show 2 ^ 52 * 2 ^ ((cut n : ℤ) - 2148 + 1 + 1074).toNat = _
    rw [hnext, roundUnits, heq, Nat.pow_succ]
    ring

/-- **What has the form of a float and is in its range comes back as it was packed.** -/
theorem unpack_pack (h : Canonical m e) (hm : 0 < m) (he : e ≤ 971) (s : Sign) :
    (Float.Model.pack (.finite s m e hm)).unpack = .finite s m e hm := by
  have hunpack : (Float.Model.pack (.finite s m e hm)).unpack = UnpackedFloat.unpack
      Format.binary64 (UnpackedFloat.pack Format.binary64 (.finite s m e hm)) := rfl
  rw [hunpack]
  have hlt := h.lt
  rcases h with ⟨hlog, hleast⟩ | ⟨hlog, rfl⟩
  · have hfull : 2 ^ 52 ≤ m := by
      rw [← hlog]
      exact Nat.log2_self_le (Nat.ne_of_gt hm)
    obtain ⟨f, rfl⟩ : ∃ f : BitVec 52, (1#1 ++ f).toNat = m := by
      refine ⟨BitVec.ofNat 52 (m - 2 ^ 52), ?_⟩
      rw [append_one, BitVec.toNat_ofNat, Nat.mod_eq_of_lt (by omega)]
      omega
    obtain ⟨e', he'⟩ : ∃ e' : BitVec 11, (e'.toNat : ℤ) = e + 1075 := by
      refine ⟨BitVec.ofNat 11 (e + 1075).toNat, ?_⟩
      rw [BitVec.toNat_ofNat, Nat.mod_eq_of_lt (by omega)]
      omega
    obtain rfl : e = (e'.toNat : ℤ) - 1075 := by omega
    have hfinite : e' ≠ -1#11 := by
      rintro rfl
      exact absurd he (by decide)
    have hnormal : e' ≠ 0#11 := by
      rintro rfl
      exact absurd hleast (by decide)
    rw [pack_normal hfinite, unpack_packComponents, if_neg hfinite, if_neg hnormal]
  · have hsmall : m < 2 ^ 52 := (Nat.log2_lt (Nat.ne_of_gt hm)).mp hlog
    obtain ⟨f, rfl⟩ : ∃ f : BitVec 52, f.toNat = m :=
      ⟨BitVec.ofNat 52 m, by rw [BitVec.toNat_ofNat, Nat.mod_eq_of_lt hsmall]⟩
    have hf : f ≠ 0#52 := by
      rintro rfl
      exact Nat.lt_irrefl 0 hm
    rw [pack_subnormal hf, unpack_packComponents, if_neg (by decide), if_pos rfl, dif_neg hf]

/-- The units of what is packed: with too many places it is infinite. -/
def packedUnits (t : ℕ) : ℕ∞ :=
  if t.log2 < 2098 then t else ⊤

theorem packedUnits_zero : packedUnits 0 = 0 := rfl

theorem packedUnits_mono (h : t ≤ t') : packedUnits t ≤ packedUnits t' := by
  have hlog := log2_mono h
  unfold packedUnits
  split
  · split
    · exact_mod_cast h
    · exact le_top
  · rw [if_neg (by omega)]

theorem Canonical.log2_units_lt_iff (h : Canonical m e) (hm : 0 < m) :
    (m * 2 ^ (e + 1074).toNat).log2 < 2098 ↔ e ≤ 971 := by
  rw [log2_mul_two_pow hm]
  rcases h with ⟨hlog, hleast⟩ | ⟨hlog, rfl⟩ <;> omega

/-- What has units of a positive sign, or none at all, is not below zero when it is packed. -/
theorem Counts.pack (h : Counts s t u) (hs : s = .positive ∨ t = 0) :
    Unsigned (Float.Model.pack u).unpack ∧
      units (Float.Model.pack u).unpack = packedUnits t := by
  cases u with
  | notANumber | infinity s' => exact h.elim
  | zero s' =>
    obtain ⟨rfl, rfl⟩ := h
    rw [packedUnits_zero]
    cases s' <;> exact ⟨trivial, rfl⟩
  | finite s' m e hm =>
    obtain ⟨rfl, hcanonical, rfl⟩ := h
    obtain rfl : s' = .positive := by
      refine hs.resolve_right (Nat.ne_of_gt ?_)
      exact Nat.mul_pos hm (Nat.two_pow_pos _)
    unfold packedUnits
    rcases le_or_gt e 971 with he | he
    · rw [if_pos ((hcanonical.log2_units_lt_iff hm).mpr he), unpack_pack hcanonical hm he]
      exact ⟨rfl, rfl⟩
    · have hlarge : ¬ e ≤ 971 := by omega
      rw [if_neg (mt (hcanonical.log2_units_lt_iff hm).mp hlarge), unpack_pack_large hm he]
      exact ⟨rfl, rfl⟩

/-- **A product has the units that the product of the units is rounded to.** -/
theorem Counts.mul (h : Counts s t u) (h' : Counts s' t' v) :
    Counts (s * s') (roundUnits (t * t')) (UnpackedFloat.mul Format.binary64 u v) := by
  cases u with
  | notANumber | infinity s => exact h.elim
  | zero s =>
    obtain ⟨rfl, rfl⟩ := h
    cases v with
    | notANumber | infinity s => exact h'.elim
    | zero s' =>
      obtain ⟨rfl, rfl⟩ := h'
      exact ⟨rfl, roundUnits_zero⟩
    | finite s' m' e' hm' =>
      obtain ⟨rfl, -, rfl⟩ := h'
      exact ⟨rfl, by rw [Nat.zero_mul, roundUnits_zero]⟩
  | finite s m e hm =>
    obtain ⟨rfl, hcanonical, rfl⟩ := h
    cases v with
    | notANumber | infinity s => exact h'.elim
    | zero s' =>
      obtain ⟨rfl, rfl⟩ := h'
      exact ⟨rfl, by rw [Nat.mul_zero, roundUnits_zero]⟩
    | finite s' m' e' hm' =>
      obtain ⟨rfl, hcanonical', rfl⟩ := h'
      have hleast := hcanonical.least
      have hleast' := hcanonical'.least
      have hparts : m * 2 ^ (e + 1074).toNat * (m' * 2 ^ (e' + 1074).toNat) =
          m * m' * 2 ^ (e + e' + 2148).toNat := by
        have hplaces : (e + e' + 2148).toNat = (e + 1074).toNat + (e' + 1074).toNat := by omega
        rw [hplaces, Nat.pow_add]
        ring
      have hlog : m.log2 ≤ (m * m').log2 := log2_mono (Nat.le_mul_of_pos_right m hm')
      have hlog' : m'.log2 ≤ (m * m').log2 := log2_mono (Nat.le_mul_of_pos_left m' hm)
      rw [hparts]
      refine counts_roundWithAccuracy _ (Nat.mul_pos hm hm') (by omega) ?_
      rw [totalExponent]
      -- two short mantissas have the least exponents, and a long one gives the product its places
      rcases hcanonical with ⟨hfull, -⟩ | ⟨-, hshort⟩ <;>
        rcases hcanonical' with ⟨hfull', -⟩ | ⟨-, hshort'⟩ <;> omega

end Counts

/-! ## 5. Floats -/

section Stored

variable {u : UnpackedFloat}

theorem isFinite_of_units {t : ℕ} (hu : Unsigned u) (ht : units u = t) : u.isFinite = true := by
  cases u with
  | notANumber => exact hu.elim
  | infinity s => exact absurd ht.symm (ENat.natCast_ne_top t)
  | zero s | finite s m e hm => rfl

/-- A stored float that is finite and not below zero has a number of units. -/
theorem Stored.exists_counts (h : Stored u) (hfinite : u.isFinite = true) (hu : Unsigned u) :
    ∃ s t, Counts s t u ∧ units u = (t : ℕ∞) ∧ (s = .positive ∨ t = 0) := by
  cases u with
  | notANumber | infinity s => cases hfinite
  | zero s => exact ⟨s, 0, ⟨rfl, rfl⟩, rfl, Or.inr rfl⟩
  | finite s m e hm =>
    exact ⟨s, m * 2 ^ (e + 1074).toNat, ⟨rfl, h.1, rfl⟩, rfl, Or.inl hu⟩

/-- The units of a float are neither rounded nor too many. -/
theorem Counts.packedUnits_roundUnits {s : Sign} {t : ℕ} (h : Counts s t u) (hstored : Stored u) :
    packedUnits (roundUnits (t * 2 ^ 1074)) = t := by
  cases u with
  | notANumber | infinity s' => exact h.elim
  | zero s' =>
    obtain ⟨rfl, rfl⟩ := h
    rw [Nat.zero_mul, roundUnits_zero]
    rfl
  | finite s' m e hm =>
    obtain ⟨rfl, hcanonical, rfl⟩ := h
    rw [hcanonical.roundUnits_eq hm]
    exact if_pos ((hcanonical.log2_units_lt_iff hm).mpr hstored.2)

end Stored

/-- The size of a float without its sign has its parts. -/
theorem unpack_abs (x : Float) : x.abs.toModel.unpack = x.toModel.unpack.abs := by
  have hstored := stored_unpack x.toModel
  show (Float.Model.pack x.toModel.unpack.abs).unpack = _
  cases hx : x.toModel.unpack with
  | notANumber => rfl
  | infinity s | zero s => cases s <;> rfl
  | finite s m e hm =>
    rw [hx] at hstored
    exact unpack_pack hstored.1 hm hstored.2 .positive

theorem unsigned_abs {x : Float} (h : x.isNaN = false) : Unsigned x.abs.toModel.unpack := by
  have hnan : x.toModel.unpack.isNaN = false := h
  rw [unpack_abs]
  cases hx : x.toModel.unpack with
  | notANumber => rw [hx] at hnan; cases hnan
  | infinity s | finite s m e hm => rfl
  | zero s => trivial

theorem isFinite_abs {x : Float} (h : x.isFinite = true) : x.abs.isFinite = true := by
  have hfinite : x.toModel.unpack.isFinite = true := h
  show x.abs.toModel.unpack.isFinite = true
  rw [unpack_abs]
  cases hx : x.toModel.unpack with
  | notANumber | infinity s => rw [hx] at hfinite; cases hfinite
  | zero s | finite s m e hm => rfl

/-- **The product of finite floats that are not below zero has the units that the product of their
    units is rounded to.** -/
theorem units_mul {x y : Float} {a b : ℕ} (hx : Unsigned x.toModel.unpack)
    (hy : Unsigned y.toModel.unpack) (ha : units x.toModel.unpack = a)
    (hb : units y.toModel.unpack = b) :
    Unsigned (x * y).toModel.unpack ∧
      units (x * y).toModel.unpack = packedUnits (roundUnits (a * b)) := by
  obtain ⟨s, t, hcounts, ht, hs⟩ :=
    (stored_unpack x.toModel).exists_counts (isFinite_of_units hx ha) hx
  obtain ⟨s', t', hcounts', ht', hs'⟩ :=
    (stored_unpack y.toModel).exists_counts (isFinite_of_units hy hb) hy
  obtain rfl : t = a := by exact_mod_cast ht.symm.trans ha
  obtain rfl : t' = b := by exact_mod_cast ht'.symm.trans hb
  refine (hcounts.mul hcounts').pack ?_
  rcases hs with rfl | rfl
  · rcases hs' with rfl | rfl
    · exact Or.inl rfl
    · exact Or.inr (by rw [Nat.mul_zero, roundUnits_zero])
  · exact Or.inr (by rw [Nat.zero_mul, roundUnits_zero])

section Whole

variable {n : ℕ}

theorem mul_two_pow_mul {j k l : ℕ} (h : j + k = l) (n : ℕ) :
    n * 2 ^ j * 2 ^ k = n * 2 ^ l := by
  rw [Nat.mul_assoc, ← Nat.pow_add, h]

/-- A whole number that is rounded to a float. -/
theorem counts_ofInt (n : ℕ) :
    Counts .positive (roundUnits (n * 2 ^ 2148)) (UnpackedFloat.ofInt Format.binary64 n) := by
  rcases Nat.eq_zero_or_pos n with rfl | hpos
  · exact ⟨rfl, by rw [Nat.zero_mul, roundUnits_zero]⟩
  · have hround : UnpackedFloat.ofInt Format.binary64 n =
        UnpackedFloat.round Format.binary64 .positive n 0 := by
      rw [UnpackedFloat.ofInt, UnpackedFloat.normalize,
        compare_gt_iff_gt.mpr (show (0 : ℤ) < n by omega), Int.toNat_natCast]
    generalize hk : (0 - Format.binary64.targetExponent (totalExponent n 0)).toNat = k
    have hplaces : UnpackedFloat.round Format.binary64 .positive n 0 =
        roundWithAccuracy Format.binary64 .positive (n * 2 ^ k) (0 - k) .exact := by
      rw [← hk, ← Nat.shiftLeft_eq]
      rfl
    rw [targetExponent_binary64, totalExponent] at hk
    have hparts : n * 2 ^ k * 2 ^ (0 - (k : ℤ) + 2148).toNat = n * 2 ^ 2148 :=
      mul_two_pow_mul (by omega) n
    rw [hround, hplaces, ← hparts]
    refine counts_roundWithAccuracy _ (Nat.mul_pos hpos (Nat.two_pow_pos k)) (by omega) ?_
    rw [totalExponent, log2_mul_two_pow hpos]
    omega

/-- A large whole number is a product. -/
theorem counts_ofScientific (hn : 0 < n) :
    Counts .positive (roundUnits (n * 2 ^ 2148))
      (UnpackedFloat.ofScientific Format.binary64 n 0) := by
  have hproduct : UnpackedFloat.ofScientific Format.binary64 n 0 =
      roundWithAccuracy Format.binary64 .positive (n * 2 ^ 53) (-53) .exact := by
    have hrange : ¬ (0 : ℤ) < -(2 ^ Format.binary64.exponentBits + (n.log2 : ℤ)) := by
      have hpower : 0 ≤ (2 : ℤ) ^ Format.binary64.exponentBits := by positivity
      omega
    have hsign : Sign.positive * Sign.positive = Sign.positive := rfl
    have hmantissa : n <<< Format.binary64.mantissaBits = n * 2 ^ 53 := Nat.shiftLeft_eq n 53
    unfold UnpackedFloat.ofScientific
    rw [dif_neg (Nat.ne_of_gt hn), if_neg (by decide), if_neg hrange, if_pos (Int.le_refl 0),
      UnpackedFloat.mul, hsign, hmantissa, Int.toNat_zero, Nat.pow_zero, Nat.mul_one, Int.add_zero]
    rfl
  have hparts : n * 2 ^ 53 * 2 ^ ((-53 : ℤ) + 2148).toNat = n * 2 ^ 2148 :=
    mul_two_pow_mul (by decide) n
  rw [hproduct, ← hparts]
  refine counts_roundWithAccuracy _ (Nat.mul_pos hn (Nat.two_pow_pos 53)) (by decide) ?_
  rw [totalExponent, log2_mul_two_pow hn]
  omega

/-- **The float of a whole number has the units that it is rounded to.** -/
theorem units_ofNat (n : ℕ) : Unsigned (Float.ofNat n).toModel.unpack ∧
    units (Float.ofNat n).toModel.unpack = packedUnits (roundUnits (n * 2 ^ 2148)) := by
  rcases ofNat_cases n with ⟨hn, hword⟩ | ⟨hpos, hrounded⟩
  · have hcounts := (counts_ofInt n.toUInt64.toNat).pack (Or.inl rfl)
    rw [hn] at hcounts
    have hfloat : n.toUInt64.toFloat.toModel =
        Float.Model.pack (UnpackedFloat.ofInt Format.binary64 n.toUInt64.toNat) := rfl
    rw [hword, hfloat, hn]
    exact hcounts
  · rw [hrounded]
    exact (counts_ofScientific hpos).pack (Or.inl rfl)

end Whole

end Appraisal.Number
