import Mathlib

/-!
# One is neutral

A float is stored as a sign, an exponent and a mantissa. Taking it apart and putting it together
again gives the same float, and so does a multiplication by one: the product has a mantissa that is
too long by as many zeros as it is then shortened by, so that nothing is rounded off.

* `pack_unpack` — a float is what its parts make;
* `float_mul_one` — **a float times one is the float itself**, zeros, infinities and the undefined
  float included;
* `le_of_lt`, `isNaN_of_lt` — a float above another is at least as great, and is defined;
* `not_le_of_pos`, `le_of_pos_of_lt` — a positive float is not at most zero, and what is greater is
  at least zero.
-/

namespace Appraisal.Number

open Float.Model Float.Model.UnpackedFloat

/-! ## 1. Parts of a float -/

theorem toBitVec_ofBitVec (b : BitVec 1) : (Sign.ofBitVec b).toBitVec = b := by
  revert b
  decide

theorem ofBitVec_toBitVec (s : Sign) : Sign.ofBitVec s.toBitVec = s := by
  cases s <;> rfl

theorem bias_eq : (Format.binary64.exponentBias : Int) = 1023 := by
  decide

theorem exists_packComponents (b : BitVec Format.binary64.numBits) :
    ∃ (s : Sign) (e : BitVec 11) (m : BitVec 52), packComponents Format.binary64 s e m = b := by
  refine ⟨.ofBitVec (unpackSign b), unpackExponent b, unpackMantissa b, ?_⟩
  simp only [packComponents, toBitVec_ofBitVec, unpackSign, unpackExponent, unpackMantissa,
    BitVec.extractLsb]
  ext i hi
  grind

theorem unpackSign_packComponents (s : Sign) (e : BitVec 11) (m : BitVec 52) :
    Sign.ofBitVec (unpackSign (packComponents Format.binary64 s e m)) = s := by
  have h : unpackSign (packComponents Format.binary64 s e m) = s.toBitVec := by
    simp only [packComponents, unpackSign, BitVec.extractLsb]
    ext i hi
    grind
  rw [h, ofBitVec_toBitVec]

section Mantissa

variable {m : BitVec 52}

theorem append_one (m : BitVec 52) : (1#1 ++ m).toNat = 2 ^ 52 + m.toNat := by
  rw [BitVec.toNat_append, ← Nat.shiftLeft_add_eq_or_of_lt m.isLt]
  rfl

theorem append_one_pos (m : BitVec 52) : 0 < (1#1 ++ m).toNat := by
  rw [append_one]
  omega

theorem log2_append_one (m : BitVec 52) : (1#1 ++ m).toNat.log2 = 52 := by
  have hm : m.toNat < 2 ^ 52 := m.isLt
  rw [append_one]
  exact (Nat.log2_eq_iff (by omega)).mpr ⟨by omega, by omega⟩

theorem toNat_pos_of_ne (h : m ≠ 0#52) : 0 < m.toNat :=
  Nat.pos_of_ne_zero fun hzero => h (BitVec.eq_of_toNat_eq hzero)

theorem log2_lt_of_ne (h : m ≠ 0#52) : m.toNat.log2 < 52 :=
  (Nat.log2_lt (Nat.ne_of_gt (toNat_pos_of_ne h))).mpr m.isLt

end Mantissa

theorem unpack_packComponents (s : Sign) (e : BitVec 11) (m : BitVec 52) :
    UnpackedFloat.unpack Format.binary64 (packComponents Format.binary64 s e m) =
      if e = -1#11 then
        if m = 0#52 then .infinity s else .notANumber
      else if e = 0#11 then
        if h : m = 0#52 then .zero s else .finite s m.toNat (-1074) (toNat_pos_of_ne h)
      else .finite s (1#1 ++ m).toNat (e.toNat - 1075) (append_one_pos m) := by
  unfold UnpackedFloat.unpack
  simp only [unpackMantissa_packComponents, unpackExponent_packComponents,
    unpackSign_packComponents, bias_eq]
  split
  · rfl
  · split
    · next hzero =>
      rw [hzero]
      rfl
    · rfl

/-- A mantissa and an exponent as they stand in a float: of full length, or shorter with the least
    exponent. -/
def Canonical (m : Nat) (e : Int) : Prop :=
  (m.log2 = 52 ∧ -1074 ≤ e) ∨ (m.log2 < 52 ∧ e = -1074)

theorem canonical_of_unpack {x : Float.Model} {s : Sign} {m : Nat} {e : Int} {hm : 0 < m}
    (h : x.unpack = .finite s m e hm) : Canonical m e := by
  obtain ⟨s', e', m', hb⟩ := exists_packComponents x.toBits.toBitVec
  rw [Float.Model.unpack, ← hb, unpack_packComponents] at h
  split at h
  · split at h <;> cases h
  split at h
  · split at h
    · cases h
    · next hmant =>
      cases h
      exact Or.inr ⟨log2_lt_of_ne hmant, rfl⟩
  · next hzero =>
    cases h
    have hpos : e'.toNat ≠ 0 := fun h0 => hzero (BitVec.eq_of_toNat_eq h0)
    exact Or.inl ⟨log2_append_one _, by omega⟩

section Pack

variable {s : Sign} {e : BitVec 11} {m : BitVec 52}

theorem pack_subnormal (hm : m ≠ 0#52) :
    UnpackedFloat.pack Format.binary64 (.finite s m.toNat (-1074) (toNat_pos_of_ne hm)) =
      packComponents Format.binary64 s 0#11 m := by
  have hlog : ¬ m.toNat.log2 + 1 = Format.binary64.mantissaBits := by
    have := log2_lt_of_ne hm
    show ¬ m.toNat.log2 + 1 = 53
    omega
  rw [UnpackedFloat.pack]
  dsimp only
  rw [bias_eq, if_neg (by decide), if_neg hlog, BitVec.ofNat_toNat, BitVec.setWidth_eq]

theorem pack_normal (hinf : e ≠ -1#11) :
    UnpackedFloat.pack Format.binary64
        (.finite s (1#1 ++ m).toNat (e.toNat - 1075) (append_one_pos m)) =
      packComponents Format.binary64 s e m := by
  have hlog : (1#1 ++ m).toNat.log2 + 1 = Format.binary64.mantissaBits := by
    rw [log2_append_one]
    rfl
  have hexponent : ((e.toNat : Int) - 1075 + 1023 + (52 : Nat)).toNat = e.toNat := by omega
  have hrange : ¬ 2 ^ 11 ≤ e.toNat + 1 := by
    intro hle
    have := e.isLt
    exact hinf (BitVec.eq_of_toNat_eq (by show e.toNat = 2047; omega))
  have hmantissa : BitVec.ofNat 52 (2 ^ 52 + m.toNat) = m := by
    refine BitVec.eq_of_toNat_eq ?_
    rw [BitVec.toNat_ofNat, Nat.add_mod_left, Nat.mod_eq_of_lt m.isLt]
  rw [UnpackedFloat.pack]
  dsimp only
  rw [bias_eq, hexponent, if_neg hrange, if_pos hlog, append_one, hmantissa, BitVec.ofNat_toNat,
    BitVec.setWidth_eq]

end Pack

theorem pack_unpack (x : Float.Model) : Float.Model.pack x.unpack = x := by
  obtain ⟨⟨b⟩, hvalid⟩ := x
  suffices UnpackedFloat.pack Format.binary64 (UnpackedFloat.unpack Format.binary64 b) = b by
    unfold Float.Model.pack Float.Model.unpack
    simp only [this]
  obtain ⟨s, e, m, rfl⟩ := exists_packComponents b
  rw [unpack_packComponents]
  split
  · next hexp =>
    split
    · next hmant => rw [hexp, hmant]; rfl
    · next hmant =>
      -- there is one undefined float only
      refine (hvalid.eq_packedNaN ?_ ?_).symm
      · rw [unpackExponent_packComponents, hexp]
      · rwa [unpackMantissa_packComponents]
  · next hexp =>
    split
    · next hzero =>
      split
      · next hmant => rw [hzero, hmant]; rfl
      · next hmant => rw [hzero, pack_subnormal hmant]
    · exact pack_normal hexp

/-! ## 2. One -/

theorem shiftRight_mul (m k : Nat) :
    (ExtendedMantissa.mk (m * 2 ^ k) false false) >>> k = ⟨m, false, false⟩ := by
  induction k generalizing m with
  | zero => rw [Nat.pow_zero, Nat.mul_one]; rfl
  | succ k ih =>
    have hstep : (ExtendedMantissa.mk (m * 2 ^ (k + 1)) false false) >>> k =
        ⟨m * 2, false, false⟩ := by
      rw [Nat.pow_succ', ← Nat.mul_assoc]
      exact ih (m * 2)
    show ((ExtendedMantissa.mk (m * 2 ^ (k + 1)) false false) >>> k).shiftRightOne = _
    rw [hstep]
    simp [ExtendedMantissa.shiftRightOne]

theorem log2_mul_two_pow {m : Nat} (hm : 0 < m) (k : Nat) : (m * 2 ^ k).log2 = m.log2 + k := by
  induction k with
  | zero => rw [Nat.pow_zero, Nat.mul_one, Nat.add_zero]
  | succ k ih =>
    have hpos : m * 2 ^ k ≠ 0 := Nat.mul_ne_zero (by omega) (Nat.ne_of_gt (Nat.two_pow_pos k))
    rw [Nat.pow_succ, ← Nat.mul_assoc, Nat.mul_comm _ 2, Nat.log2_two_mul hpos, ih, Nat.add_assoc]

section Round

variable {m : Nat} {e : Int}

theorem targetExponent_eq (h : Canonical m e) :
    Format.binary64.targetExponent (totalExponent m e) = e := by
  show max ((m.log2 : Int) + 1 + e - 53) (-1074) = e
  rcases h with ⟨hm, he⟩ | ⟨hm, he⟩ <;> omega

/-- A mantissa that is too long by zeros is shortened by them. -/
theorem roundWithAccuracy_mul (h : Canonical m e) (hm : 0 < m) (s : Sign) :
    roundWithAccuracy Format.binary64 s (m * 2 ^ 52) (e + -52) .exact = .finite s m e hm := by
  have hlog : totalExponent (m * 2 ^ 52) (e + -52) = totalExponent m e := by
    rw [totalExponent, totalExponent, log2_mul_two_pow hm]
    omega
  have hfirst : shiftToTargetExponent Format.binary64 (m * 2 ^ 52) (e + -52) .exact =
      (⟨m, false, false⟩, e) := by
    rw [shiftToTargetExponent, hlog, targetExponent_eq h, shiftToExponent,
      show (e - (e + -52)).toNat = 52 by omega]
    exact Prod.ext (shiftRight_mul m 52) (by show e + -52 + ((52 : Nat) : Int) = e; omega)
  have hsecond : shiftToTargetExponent Format.binary64 m e .exact = (⟨m, false, false⟩, e) := by
    rw [shiftToTargetExponent, targetExponent_eq h, shiftToExponent, Int.sub_self]
    exact Prod.ext rfl (Int.add_zero e)
  have hround : (ExtendedMantissa.mk m false false).roundedMantissa = m := rfl
  rw [roundWithAccuracy, hfirst]
  dsimp only
  rw [hround, hsecond]
  exact dif_neg (Nat.ne_of_gt hm)

end Round

theorem mul_unpack_one (x : Float.Model) :
    UnpackedFloat.mul Format.binary64 x.unpack (.finite .positive (2 ^ 52) (-52) (by decide)) =
      x.unpack := by
  cases hx : x.unpack with
  | notANumber => rfl
  | infinity s => cases s <;> rfl
  | zero s => cases s <;> rfl
  | finite s m e hm =>
    have hs : s * Sign.positive = s := by cases s <;> rfl
    rw [UnpackedFloat.mul, hs]
    exact roundWithAccuracy_mul (canonical_of_unpack hx) hm s

/-- **A float times one is the float itself.** -/
@[simp] theorem float_mul_one (x : Float) : x * 1.0 = x := by
  have hone : (1.0 : Float).toModel.unpack = .finite .positive (2 ^ 52) (-52) (by decide) := rfl
  have h : x.toModel * (1.0 : Float).toModel = x.toModel := by
    show Float.Model.pack (UnpackedFloat.mul _ _ (1.0 : Float).toModel.unpack) = x.toModel
    rw [hone, mul_unpack_one, pack_unpack]
  show Float.ofModel (x.toModel * (1.0 : Float).toModel) = x
  rw [h]

/-! ## 3. Order -/

theorem compare_of_lt {x y : Float} (h : x < y) :
    x.toModel.unpack.compare y.toModel.unpack = some .lt :=
  eq_of_beq (of_decide_eq_true h)

theorem le_of_lt {x y : Float} (h : x < y) : x ≤ y := by
  have hle : (x.toModel.unpack.compare y.toModel.unpack).any (·.isLE) = true := by
    rw [compare_of_lt h]
    rfl
  exact decide_eq_true hle

/-- The undefined float is above no other. -/
theorem isNaN_of_lt {x y : Float} (h : x < y) : y.isNaN = false := by
  have hlt := compare_of_lt h
  show y.toModel.unpack.isNaN = false
  cases hy : y.toModel.unpack with
  | notANumber =>
    rw [hy] at hlt
    revert hlt
    cases x.toModel.unpack <;> exact nofun
  | infinity s | zero s | finite s m e hm => rfl

theorem not_le_of_pos {x : Float} (h : 0.0 < x) : ¬ x ≤ 0.0 := by
  have hzero : (0.0 : Float).toModel.unpack = .zero .positive := rfl
  intro hle
  have hlt : (UnpackedFloat.compare (.zero .positive) x.toModel.unpack == some .lt) = true := by
    rw [← hzero]
    exact of_decide_eq_true h
  have hle : (UnpackedFloat.compare x.toModel.unpack (.zero .positive)).any (·.isLE) = true := by
    rw [← hzero]
    exact of_decide_eq_true hle
  revert hlt hle
  cases x.toModel.unpack with
  | notANumber => intro hlt; cases hlt
  | infinity s => cases s <;> decide
  | zero s => intro hlt; cases hlt
  | finite s m e hm =>
    cases s with
    | positive => intro _ hle; cases hle
    | negative => intro hlt; cases hlt

theorem le_of_pos_of_lt {x y : Float} (hx : 0.0 < x) (h : x < y) : 0.0 ≤ y := by
  have hzero : (0.0 : Float).toModel.unpack = .zero .positive := rfl
  have hpos : (UnpackedFloat.compare (.zero .positive) x.toModel.unpack == some .lt) = true := by
    rw [← hzero]
    exact of_decide_eq_true hx
  have hlt : (UnpackedFloat.compare x.toModel.unpack y.toModel.unpack == some .lt) = true :=
    of_decide_eq_true h
  have hle : (UnpackedFloat.compare (.zero .positive) y.toModel.unpack).any (·.isLE) = true := by
    revert hpos hlt
    cases x.toModel.unpack with
    | notANumber => intro hpos; cases hpos
    | zero s => intro hpos; cases hpos
    | infinity s =>
      cases s with
      | negative => intro hpos; cases hpos
      | positive =>
        cases y.toModel.unpack with
        | infinity s => cases s <;> decide
        | notANumber | zero s | finite s m e hm => intro _ hlt; cases hlt
    | finite s m e hm =>
      cases s with
      | negative => intro hpos; cases hpos
      | positive =>
        cases y.toModel.unpack with
        | notANumber | zero s => intro _ hlt; cases hlt
        | infinity s | finite s m e hm =>
          cases s with
          | negative => intro _ hlt; cases hlt
          | positive => exact fun _ _ => rfl
  rw [← hzero] at hle
  exact decide_eq_true hle

end Appraisal.Number
