import Appraisal.Number.Arithmetic
import Appraisal.Proofs.Number.Unit

/-!
# Floats that stay in their range

A sum or a difference of two floats is below the second next power of two, also when it is rounded,
and a quotient by a billion is far from the greatest float. So an amount in billions is finite where
the amount is, and so is what a few of them add up to.

* `Within`, `Below` — a float below a power of two; `isFinite_iff_within` — what is finite is below
  the greatest one;
* `exponent_of_round`, `within_roundWithAccuracy`, `within_normalize` — what rounding and packing do
  to the bound;
* `Below.add`, `Below.sub`, `below_billions` — **the bounds of the operations**;
* `toFloat_isFinite` — the float of a finite number is finite, if there is one;
* `float_sub_self` — a finite float less itself is zero.
-/

namespace Appraisal.Number

open Float.Model Float.Model.UnpackedFloat

/-! ## 1. Below a power of two -/

/-- A zero, or a finite float with a mantissa of at most 53 places, the first of them below two to
    the power of the bound. -/
def Within (bound : Int) : UnpackedFloat → Prop
  | .zero _ => True
  | .finite _ m e _ => m.log2 ≤ 52 ∧ e ≤ bound - 53
  | _ => False

section Bound

variable {a b : Int} {u : UnpackedFloat}

theorem Within.mono (h : Within a u) (hab : a ≤ b) : Within b u := by
  cases u with
  | zero s => trivial
  | finite s m e hm => exact ⟨h.1, by have := h.2; omega⟩
  | infinity s => exact h
  | notANumber => exact h

theorem Within.isFinite (h : Within a u) : u.isFinite = true := by
  cases u with
  | zero s => rfl
  | finite s m e hm => rfl
  | infinity s => exact h.elim
  | notANumber => exact h.elim

theorem Within.neg (h : Within a u) : Within a u.neg := by
  cases u <;> exact h

theorem Within.totalExponent_le {s : Sign} {m : Nat} {e : Int} {hm : 0 < m}
    (h : Within a (.finite s m e hm)) : totalExponent m e ≤ a := by
  have hlog : m.log2 ≤ 52 := h.1
  have he : e ≤ a - 53 := h.2
  rw [totalExponent]
  omega

/-- The exponent that is stored bounds the size. -/
theorem within_packComponents {s : Sign} {e : BitVec 11} {m : BitVec 52} (he : e ≠ -1#11)
    (hstored : (e.toNat : Int) - 1022 ≤ b) (hlow : -1021 ≤ b) :
    Within b (UnpackedFloat.unpack Format.binary64 (packComponents Format.binary64 s e m)) := by
  rw [unpack_packComponents, if_neg he]
  split
  · split
    · trivial
    · next hmant => exact ⟨Nat.le_of_lt (log2_lt_of_ne hmant), by omega⟩
  · exact ⟨Nat.le_of_eq (log2_append_one m), by omega⟩

end Bound

/-- **What is finite is below the greatest power.** -/
theorem isFinite_iff_within (x : Float) : x.isFinite = true ↔ Within 1024 x.toModel.unpack := by
  refine ⟨fun hfinite => ?_, Within.isFinite⟩
  obtain ⟨s, e, m, hb⟩ := exists_packComponents x.toModel.toBits.toBitVec
  have hunpack : x.toModel.unpack =
      UnpackedFloat.unpack Format.binary64 (packComponents Format.binary64 s e m) := by
    rw [Float.Model.unpack, hb]
  have hfinite : x.toModel.unpack.isFinite = true := hfinite
  rw [hunpack] at hfinite ⊢
  have he : e ≠ -1#11 := by
    rintro rfl
    rw [unpack_packComponents, if_pos rfl] at hfinite
    split at hfinite <;> cases hfinite
  have hlt : e.toNat < 2 ^ 11 := e.isLt
  have hne : e.toNat ≠ 2047 := fun h => he (BitVec.eq_of_toNat_eq h)
  exact within_packComponents he (by omega) (by decide)

/-! ## 2. Packing and rounding -/

section Round

variable {s : Sign} {m : Nat} {e b : Int}

theorem within_pack_zero (s : Sign) : Within b (Float.Model.pack (.zero s)).unpack := by
  cases s <;> exact trivial

/-- What is packed keeps within a bound that its exponent keeps. -/
theorem within_pack (hm : 0 < m) (he : e ≤ b - 53) (hlow : -1021 ≤ b) (hhigh : b ≤ 1024) :
    Within b (Float.Model.pack (.finite s m e hm)).unpack := by
  have hunpack : (Float.Model.pack (.finite s m e hm)).unpack = UnpackedFloat.unpack
      Format.binary64 (UnpackedFloat.pack Format.binary64 (.finite s m e hm)) := rfl
  rw [hunpack, UnpackedFloat.pack]
  dsimp only
  rw [bias_eq]
  have hstored : (e + 1023 + (52 : Nat)).toNat < 2 ^ 11 - 1 := by omega
  rw [if_neg (by omega)]
  split
  · have hexponent : (BitVec.ofNat 11 (e + 1023 + (52 : Nat)).toNat).toNat =
        (e + 1023 + (52 : Nat)).toNat := by
      rw [BitVec.toNat_ofNat, Nat.mod_eq_of_lt (by omega)]
    refine within_packComponents (fun h => ?_) (by rw [hexponent]; omega) (by omega)
    have hall : (e + 1023 + (52 : Nat)).toNat = 2047 := by
      rw [← hexponent, h]
      rfl
    omega
  · exact within_packComponents (by decide) (by show (0 : Int) - 1022 ≤ b; omega) (by omega)

theorem shiftRight_mantissa (em : ExtendedMantissa) (k : Nat) :
    (em >>> k).mantissa = em.mantissa / 2 ^ k := by
  induction k with
  | zero => rw [Nat.pow_zero, Nat.div_one]; rfl
  | succ k ih =>
    show (em >>> k).mantissa / 2 = _
    rw [ih, Nat.div_div_eq_div_mul, Nat.pow_succ]

theorem roundedMantissa_le (em : ExtendedMantissa) : em.roundedMantissa ≤ em.mantissa + 1 := by
  obtain ⟨m, round, sticky⟩ := em
  cases round <;> cases sticky <;>
    simp only [ExtendedMantissa.roundedMantissa, ExtendedMantissa.accuracy,
      Accuracy.roundToNearestEven] <;> omega

theorem ofMantissaAndAccuracy_mantissa (m : Nat) (accuracy : Accuracy) :
    (ExtendedMantissa.ofMantissaAndAccuracy m accuracy).mantissa = m := by
  cases accuracy with
  | exact => rfl
  | inexact o => cases o <;> rfl

theorem targetExponent_binary64 (t : Int) :
    Format.binary64.targetExponent t = max (t - 53) (-1074) := rfl

theorem log2_mono {m n : Nat} (h : m ≤ n) : m.log2 ≤ n.log2 := by
  rw [Nat.log2_eq_log_two, Nat.log2_eq_log_two]
  exact Nat.log_mono_right h

theorem log2_succ_le (m : Nat) : (m + 1).log2 ≤ m.log2 + 1 := by
  have hlt : m < 2 ^ (m.log2 + 1) := Nat.lt_log2_self
  refine Nat.lt_succ_iff.mp ((Nat.log2_lt (Nat.succ_ne_zero m)).mpr ?_)
  rw [Nat.pow_succ]
  omega

/-- Halving a mantissa shortens it by one place, until nothing is left of it. -/
theorem log2_div_two_pow (m k : Nat) : (m / 2 ^ k).log2 = m.log2 - k := by
  rw [Nat.log2_eq_log_two, Nat.log2_eq_log_two, Nat.log_div_base_pow]

theorem shiftToTargetExponent_exponent (m : Nat) (e : Int) (accuracy : Accuracy) :
    (shiftToTargetExponent Format.binary64 m e accuracy).2 =
      max e (max (totalExponent m e - 53) (-1074)) := by
  show e + ((max (totalExponent m e - 53) (-1074) - e).toNat : Int) = _
  omega

theorem log2_shiftToTargetExponent (m : Nat) (e : Int) (accuracy : Accuracy) :
    (shiftToTargetExponent Format.binary64 m e accuracy).1.mantissa.log2 =
      m.log2 - (max (totalExponent m e - 53) (-1074) - e).toNat := by
  have hshift : (shiftToTargetExponent Format.binary64 m e accuracy).1.mantissa = m / 2 ^ _ :=
    (shiftRight_mantissa _ _).trans (by rw [ofMantissaAndAccuracy_mantissa])
  rw [hshift, log2_div_two_pow]
  rfl

/-- A mantissa that is rounded to its place stands at the place that its size asks for, or one
    higher. -/
theorem exponent_of_round (s : Sign) (m : Nat) (e : Int) (accuracy : Accuracy) :
    roundWithAccuracy Format.binary64 s m e accuracy = .zero s ∨ ∃ m' e' hm',
      roundWithAccuracy Format.binary64 s m e accuracy = .finite s m' e' hm' ∧
        e' ≤ max e (max (totalExponent m e - 52) (-1074)) := by
  let first := shiftToTargetExponent Format.binary64 m e accuracy
  let last := shiftToTargetExponent Format.binary64 first.1.roundedMantissa first.2 .exact
  by_cases hzero : last.1.mantissa = 0
  · exact Or.inl (dif_pos hzero)
  · refine Or.inr ⟨last.1.mantissa, last.2, Nat.pos_of_ne_zero hzero, dif_neg hzero, ?_⟩
    have hfirst : first.2 = _ := shiftToTargetExponent_exponent m e accuracy
    have hlast : last.2 = _ :=
      shiftToTargetExponent_exponent first.1.roundedMantissa first.2 .exact
    have hlog : first.1.roundedMantissa.log2 ≤ first.1.mantissa.log2 + 1 :=
      Nat.le_trans (log2_mono (roundedMantissa_le first.1)) (log2_succ_le _)
    have hshift : first.1.mantissa.log2 = _ := log2_shiftToTargetExponent m e accuracy
    rw [totalExponent] at hfirst hlast hshift ⊢
    omega

/-- What is rounded and packed is below the next power of two. -/
theorem within_roundWithAccuracy {accuracy : Accuracy} (he : e ≤ b - 53)
    (hsize : totalExponent m e + 1 ≤ b) (hlow : -1021 ≤ b) (hhigh : b ≤ 1024) :
    Within b (Float.Model.pack (roundWithAccuracy Format.binary64 s m e accuracy)).unpack := by
  rcases exponent_of_round s m e accuracy with hround | ⟨m', e', hm', hround, hexponent⟩
  · rw [hround]
    exact within_pack_zero s
  · rw [hround]
    exact within_pack hm' (by omega) hlow hhigh

theorem totalExponent_shiftLeft (hm : 0 < m) (k : Nat) :
    totalExponent (m <<< k) (e - k) = totalExponent m e := by
  rw [totalExponent, totalExponent, Nat.shiftLeft_eq, log2_mul_two_pow hm]
  omega

/-- What is rounded from a whole mantissa and packed is below the next power of two. -/
theorem within_round (hm : 0 < m) (hsize : totalExponent m e + 1 ≤ b) (hlow : -1021 ≤ b)
    (hhigh : b ≤ 1024) :
    Within b (Float.Model.pack (UnpackedFloat.round Format.binary64 s m e)).unpack := by
  let k := (e - Format.binary64.targetExponent (totalExponent m e)).toNat
  have hround : UnpackedFloat.round Format.binary64 s m e =
      roundWithAccuracy Format.binary64 s (m <<< k) (e - k) .exact := rfl
  have hk : (k : Int) = max 0 (e - max (totalExponent m e - 53) (-1074)) := by
    rw [← targetExponent_binary64]
    omega
  rw [hround]
  refine within_roundWithAccuracy ?_ ?_ hlow hhigh
  · omega
  · rw [totalExponent_shiftLeft hm]
    exact hsize

end Round

/-! ## 3. Sums and differences -/

section Sum

variable {b : Int}

theorem within_normalize {z e : Int} (places : Nat) (hz : z.natAbs < 2 ^ places)
    (hsize : places + e + 1 ≤ b) (hlow : -1021 ≤ b) (hhigh : b ≤ 1024) :
    Within b (Float.Model.pack (UnpackedFloat.normalize Format.binary64 z e .positive)).unpack := by
  have hround : ∀ s, z ≠ 0 → Within b (Float.Model.pack
      (UnpackedFloat.round Format.binary64 s z.natAbs e)).unpack := by
    intro s hne
    have hlog : z.natAbs.log2 < places := (Nat.log2_lt (Int.natAbs_ne_zero.mpr hne)).mpr hz
    refine within_round (Int.natAbs_pos.mpr hne) ?_ hlow hhigh
    rw [totalExponent]
    omega
  unfold UnpackedFloat.normalize
  rcases lt_trichotomy z 0 with hneg | rfl | hpos
  · have habs : (-z).toNat = z.natAbs := by omega
    rw [compare_lt_iff_lt.mpr hneg, habs]
    exact hround _ (Int.ne_of_lt hneg)
  · exact within_pack_zero .positive
  · have habs : z.toNat = z.natAbs := by omega
    rw [compare_gt_iff_gt.mpr hpos, habs]
    exact hround _ (Int.ne_of_gt hpos)

/-- A mantissa that is brought to a smaller exponent has no more places than its size asks for. -/
theorem shiftLeft_lt {m : Nat} {e e' : Int} (hsize : totalExponent m e ≤ b) (he : e' ≤ e) :
    m <<< (e - e').toNat < 2 ^ (b - e').toNat := by
  rw [totalExponent] at hsize
  rw [Nat.shiftLeft_eq]
  calc m * 2 ^ (e - e').toNat
      < 2 ^ (m.log2 + 1) * 2 ^ (e - e').toNat :=
        Nat.mul_lt_mul_of_pos_right Nat.lt_log2_self (Nat.two_pow_pos _)
    _ = 2 ^ (m.log2 + 1 + (e - e').toNat) := (Nat.pow_add ..).symm
    _ ≤ 2 ^ (b - e').toNat := Nat.pow_le_pow_right (by decide) (by omega)

theorem natAbs_apply_add_le (s s' : Sign) (m m' : Nat) :
    (s.apply m + s'.apply m').natAbs ≤ m + m' := by
  cases s <;> cases s' <;> simp only [Sign.apply] <;> omega

/-- What two mantissas add up to, in any signs, is below the second next power of two. -/
theorem within_sum {m m' : Nat} {e e' z : Int} (h : totalExponent m e ≤ b)
    (h' : totalExponent m' e' ≤ b)
    (hz : z.natAbs ≤ m <<< (e - min e e').toNat + m' <<< (e' - min e e').toNat)
    (hlow : -1021 ≤ b) (hhigh : b + 2 ≤ 1024) :
    Within (b + 2) (Float.Model.pack
      (UnpackedFloat.normalize Format.binary64 z (min e e') .positive)).unpack := by
  have hm := shiftLeft_lt h (Int.min_le_left e e')
  have hm' := shiftLeft_lt h' (Int.min_le_right e e')
  have hpower : 2 ^ ((b - min e e').toNat + 1) = 2 ^ (b - min e e').toNat * 2 := Nat.pow_succ ..
  rw [totalExponent] at h
  exact within_normalize ((b - min e e').toNat + 1) (by omega) (by omega) (by omega) hhigh

/-- A sum is below the second next power of two. -/
theorem within_add {u v : UnpackedFloat} (hu : Within b u) (hv : Within b v) (hlow : -1021 ≤ b)
    (hhigh : b + 2 ≤ 1024) :
    Within (b + 2) (Float.Model.pack (UnpackedFloat.add Format.binary64 u v)).unpack := by
  cases u with
  | notANumber | infinity s => exact hu.elim
  | zero s =>
    cases v with
    | notANumber | infinity s' => exact hv.elim
    | zero s' => cases s <;> cases s' <;> exact trivial
    | finite s' m' e' hm' => exact within_pack hm' (by have := hv.2; omega) (by omega) hhigh
  | finite s m e hm =>
    cases v with
    | notANumber | infinity s' => exact hv.elim
    | zero s' => exact within_pack hm (by have := hu.2; omega) (by omega) hhigh
    | finite s' m' e' hm' =>
      exact within_sum hu.totalExponent_le hv.totalExponent_le (natAbs_apply_add_le s s' _ _)
        hlow hhigh

theorem apply_neg (s : Sign) (z : Int) : (-s).apply z = -s.apply z := by
  cases s with
  | negative => exact (Int.neg_neg z).symm
  | positive => rfl

/-- A difference is a sum with the sign of the second float turned. -/
theorem sub_eq_add_neg (u v : UnpackedFloat) :
    UnpackedFloat.sub Format.binary64 u v = UnpackedFloat.add Format.binary64 u v.neg := by
  cases u with
  | finite s m e hm =>
    cases v with
    | finite s' m' e' hm' =>
      simp only [UnpackedFloat.neg, UnpackedFloat.sub, UnpackedFloat.add, apply_neg,
        Int.sub_eq_add_neg]
    | notANumber | infinity s' | zero s' => rfl
  | notANumber | infinity s | zero s => cases v <;> rfl

/-- A float below a power of two. -/
def Below (b : Int) (x : Float) : Prop :=
  Within b x.toModel.unpack

theorem Below.add {x y : Float} (hx : Below b x) (hy : Below b y) (hlow : -1021 ≤ b)
    (hhigh : b + 2 ≤ 1024) : Below (b + 2) (x + y) :=
  within_add hx hy hlow hhigh

theorem Below.sub {x y : Float} (hx : Below b x) (hy : Below b y) (hlow : -1021 ≤ b)
    (hhigh : b + 2 ≤ 1024) : Below (b + 2) (x - y) := by
  show Within (b + 2) (Float.Model.pack (UnpackedFloat.sub Format.binary64 x.toModel.unpack
    y.toModel.unpack)).unpack
  rw [sub_eq_add_neg]
  exact within_add hx hy.neg hlow hhigh

end Sum

/-! ## 4. Quotients -/

theorem log2_div_le (m n : Nat) : (m / n).log2 ≤ m.log2 - n.log2 := by
  rcases Nat.eq_zero_or_pos (m / n) with hzero | hpos
  · rw [hzero]
    exact Nat.zero_le _
  · have hn : n ≠ 0 := by
      rintro rfl
      rw [Nat.div_zero] at hpos
      exact Nat.lt_irrefl 0 hpos
    have hm : m ≠ 0 := by
      rintro rfl
      rw [Nat.zero_div] at hpos
      exact Nat.lt_irrefl 0 hpos
    have hpower : 2 ^ ((m / n).log2 + n.log2) ≤ m :=
      calc 2 ^ ((m / n).log2 + n.log2)
          = 2 ^ (m / n).log2 * 2 ^ n.log2 := Nat.pow_add ..
        _ ≤ m / n * n :=
          Nat.mul_le_mul (Nat.log2_self_le (Nat.ne_of_gt hpos)) (Nat.log2_self_le hn)
        _ ≤ m := Nat.div_mul_le_self m n
    have hle : (m / n).log2 + n.log2 ≤ m.log2 := (Nat.le_log2 hm).mpr hpower
    omega

/-- A quotient is below four times the quotient of the powers of two. -/
theorem within_div {b : Int} {u : UnpackedFloat} (s' : Sign) {m' : Nat} {e' : Int} (hm' : 0 < m')
    (hu : Within b u) (hlow : -1021 ≤ b - totalExponent m' e' + 2)
    (hhigh : b - totalExponent m' e' + 2 ≤ 1024) :
    Within (b - totalExponent m' e' + 2)
      (Float.Model.pack (UnpackedFloat.div Format.binary64 u (.finite s' m' e' hm'))).unpack := by
  cases u with
  | notANumber | infinity s => exact hu.elim
  | zero s => exact within_pack_zero _
  | finite s m e hm =>
    have hsize : totalExponent m e ≤ b := hu.totalExponent_le
    let place := min (e - e')
      (Format.binary64.targetExponent (totalExponent m e - totalExponent m' e'))
    let k := (e - e' - place).toNat
    have hquotient : UnpackedFloat.div Format.binary64 (.finite s m e hm) (.finite s' m' e' hm') =
        roundWithAccuracy Format.binary64 (s / s') ((m <<< k) / m') place
          (accuracyOfFraction ((m <<< k) % m') m') := rfl
    have hplace : place =
        min (e - e') (max (totalExponent m e - totalExponent m' e' - 53) (-1074)) := rfl
    have hk : (k : Int) = e - e' - place := by omega
    have hlog : ((m <<< k) / m').log2 ≤ m.log2 + k - m'.log2 := by
      have hle := log2_div_le (m <<< k) m'
      rwa [Nat.shiftLeft_eq, log2_mul_two_pow hm, ← Nat.shiftLeft_eq] at hle
    rw [hquotient]
    rw [totalExponent, totalExponent] at *
    exact within_roundWithAccuracy (by omega) (by rw [totalExponent]; omega) hlow hhigh

/-- **A finite amount is finite in billions**, and far from the greatest float. -/
theorem below_billions {x : Float} (h : x.isFinite = true) : Below 996 (x / 1e9) := by
  have hpos : 0 < 8388608000000000 := by decide
  have hbillion : (1e9 : Float).toModel.unpack =
      .finite .positive 8388608000000000 (-23) hpos := rfl
  have hsize : totalExponent 8388608000000000 (-23) = 30 := by decide
  have hdiv : Within (1024 - totalExponent 8388608000000000 (-23) + 2) _ :=
    within_div .positive hpos ((isFinite_iff_within x).mp h)
      (by rw [hsize]; decide) (by rw [hsize]; decide)
  show Within 996 (Float.Model.pack (UnpackedFloat.div Format.binary64 x.toModel.unpack
    (1e9 : Float).toModel.unpack)).unpack
  rwa [hsize, ← hbillion] at hdiv

/-! ## 5. Whole numbers -/

/-- What is too large for the exponents is packed as an infinity. -/
theorem unpack_pack_large {s : Sign} {m : Nat} {e : Int} (hm : 0 < m) (he : 971 < e) :
    (Float.Model.pack (.finite s m e hm)).unpack = .infinity s := by
  have hlarge : 2 ^ 11 ≤ (e + 1023 + (52 : Nat)).toNat + 1 := by omega
  have hpack : UnpackedFloat.pack Format.binary64 (.finite s m e hm) =
      packedInfinity Format.binary64 s := by
    rw [UnpackedFloat.pack]
    dsimp only
    rw [bias_eq, if_pos hlarge]
  show UnpackedFloat.unpack Format.binary64
    (UnpackedFloat.pack Format.binary64 (.finite s m e hm)) = .infinity s
  rw [hpack]
  cases s <;> rfl

theorem isNaN_pack {u : UnpackedFloat} (h : u.isNaN = false) :
    (Float.Model.pack u).unpack.isNaN = false := by
  cases u with
  | notANumber => cases h
  | infinity s => cases s <;> rfl
  | zero s => cases s <;> rfl
  | finite s m e hm =>
    by_cases he : e ≤ 971
    · have hwithin : Within 1024 (Float.Model.pack (.finite s m e hm)).unpack :=
        within_pack hm (by omega) (by decide) (by decide)
      cases hu : (Float.Model.pack (.finite s m e hm)).unpack with
      | notANumber => rw [hu] at hwithin; exact hwithin.elim
      | infinity s | zero s | finite s m e hm => rfl
    · rw [unpack_pack_large hm (by omega)]
      rfl

theorem isNaN_roundWithAccuracy (s : Sign) (m : Nat) (e : Int) (accuracy : Accuracy) :
    (roundWithAccuracy Format.binary64 s m e accuracy).isNaN = false := by
  rcases exponent_of_round s m e accuracy with hround | ⟨m', e', hm', hround, -⟩
  all_goals rw [hround]; rfl

theorem isNaN_normalize (z e : Int) (s : Sign) :
    (UnpackedFloat.normalize Format.binary64 z e s).isNaN = false := by
  unfold UnpackedFloat.normalize
  cases compare z 0 with
  | eq => rfl
  | lt | gt => exact isNaN_roundWithAccuracy _ _ _ _

theorem isNaN_ofInt (n : Int) : (UnpackedFloat.ofInt Format.binary64 n).isNaN = false :=
  isNaN_normalize n 0 .positive

/-- A difference of finite floats is defined. -/
theorem isNaN_sub {u v : UnpackedFloat} (hu : u.isFinite = true) (hv : v.isFinite = true) :
    (UnpackedFloat.sub Format.binary64 u v).isNaN = false := by
  cases u with
  | notANumber | infinity s => cases hu
  | zero s =>
    cases v with
    | notANumber | infinity s' => cases hv
    | zero s' => cases s <;> cases s' <;> rfl
    | finite s' m' e' hm' => rfl
  | finite s m e hm =>
    cases v with
    | notANumber | infinity s' => cases hv
    | zero s' => rfl
    | finite s' m' e' hm' => exact isNaN_normalize _ _ _

theorem isNaN_ofScientific (m : Nat) (e : Int) :
    (UnpackedFloat.ofScientific Format.binary64 m e).isNaN = false := by
  unfold UnpackedFloat.ofScientific
  split
  · rfl
  split
  · rfl
  split
  · rfl
  split
  all_goals exact isNaN_roundWithAccuracy _ _ _ _

/-- The float of a whole number is made from a word where the number is small, else it is rounded
    from the number itself. -/
theorem ofNat_cases (n : Nat) :
    (n.toUInt64.toNat = n ∧ Float.ofNat n = n.toUInt64.toFloat) ∨
      (0 < n ∧ (Float.ofNat n).toModel =
        Float.Model.pack (UnpackedFloat.ofScientific Format.binary64 n 0)) := by
  have hone : Float.exactlyRepresentablePowersOfTen[0] = 1.0 := by decide
  have hofNat : Float.ofNat n = Float.ofScientific n false 0 := rfl
  rw [hofNat, Float.ofScientific]
  split
  · next hsmall =>
    have hproduct : n.toUInt64.toFloat * Float.exactlyRepresentablePowersOfTen[0] =
        n.toUInt64.toFloat := by
      rw [hone, float_mul_one]
    exact Or.inl ⟨UInt64.toNat_ofNat_of_lt' (hsmall.1.trans (by decide)), hproduct⟩
  · next hlarge =>
    refine Or.inr ⟨Nat.pos_of_ne_zero fun hzero => hlarge ?_, rfl⟩
    rw [hzero]
    exact ⟨Nat.two_pow_pos 53, by decide⟩

theorem isNaN_ofNat (n : Nat) : (Float.ofNat n).toModel.unpack.isNaN = false := by
  rcases ofNat_cases n with ⟨-, hword⟩ | ⟨-, hrounded⟩
  · rw [hword]
    exact isNaN_pack (isNaN_ofInt _)
  · rw [hrounded]
    exact isNaN_pack (isNaN_ofScientific _ _)

theorem isNaN_neg {x : Float} (h : x.toModel.unpack.isNaN = false) :
    (-x).toModel.unpack.isNaN = false := by
  refine isNaN_pack ?_
  cases hx : x.toModel.unpack with
  | notANumber => rw [hx] at h; cases h
  | infinity s | zero s | finite s m e hm => rfl

/-- Whether a number is finite, as every whole number is. -/
def isFinite : Number → Bool
  | .whole _ => true
  | .float x => x.isFinite

/-- **The float of a finite number is finite**, if there is one. -/
theorem toFloat_isFinite {n : Number} {x : Float} (hn : n.isFinite = true)
    (h : n.toFloat = .ok x) : x.isFinite = true := by
  cases n with
  | float y =>
    cases h
    exact hn
  | whole n =>
    rw [toFloat] at h
    split at h
    · cases h
    · next hinf =>
      cases h
      have hnan : (Float.ofInt n).toModel.unpack.isNaN = false := by
        cases n with
        | ofNat n => exact isNaN_ofNat n
        | negSucc n => exact isNaN_neg (isNaN_ofNat (n + 1))
      have hinf : (Float.ofInt n).toModel.unpack.isInf = false := Bool.eq_false_iff.mpr hinf
      show (Float.ofInt n).toModel.unpack.isFinite = true
      cases hu : (Float.ofInt n).toModel.unpack with
      | notANumber => rw [hu] at hnan; cases hnan
      | infinity s => rw [hu] at hinf; cases hinf
      | zero s | finite s m e hm => rfl

/-! ## 6. A float less itself -/

/-- **A finite float less itself is zero.** -/
theorem float_sub_self {x : Float} (h : x.isFinite = true) : x - x = 0.0 := by
  have hsub : UnpackedFloat.sub Format.binary64 x.toModel.unpack x.toModel.unpack =
      .zero .positive := by
    have h : x.toModel.unpack.isFinite = true := h
    cases hx : x.toModel.unpack with
    | notANumber | infinity s => rw [hx] at h; cases h
    | zero s => cases s <;> rfl
    | finite s m e hm =>
      simp only [UnpackedFloat.sub, Int.sub_self, UnpackedFloat.normalize]
      rw [compare_eq_iff_eq.mpr rfl]
  show Float.ofModel (Float.Model.pack (UnpackedFloat.sub Format.binary64 x.toModel.unpack
    x.toModel.unpack)) = 0.0
  rw [hsub]
  decide

end Appraisal.Number
