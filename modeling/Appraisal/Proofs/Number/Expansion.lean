import Appraisal.Number.Digits
import Appraisal.Proofs.Number.Unit

/-!
# What a float stands for

A float is expanded by its bits, and the bits also say of what kind it is: undefined, infinite or
finite. The two agree.

* `expand_eq` — **a float is expanded to its parts**;
* `expand_cases` — **an undefined float, an infinity and a finite float are expanded as such**.
-/

namespace Appraisal.Number

open Float.Model Float.Model.UnpackedFloat

theorem toNat_unpackExponent (b : BitVec Format.binary64.numBits) :
    (unpackExponent b).toNat = b.toNat / 2 ^ 52 % 2 ^ 11 := by
  show (b.toNat >>> 52) % 2 ^ 11 = _
  rw [Nat.shiftRight_eq_div_pow]

theorem toNat_unpackMantissa (b : BitVec Format.binary64.numBits) :
    (unpackMantissa b).toNat = b.toNat % 2 ^ 52 := by
  show (b.toNat >>> 0) % 2 ^ 52 = _
  rw [Nat.shiftRight_zero]

theorem toNat_unpackSign (b : BitVec Format.binary64.numBits) :
    (unpackSign b).toNat = b.toNat / 2 ^ 63 := by
  have hlt : b.toNat < 2 ^ 64 := b.isLt
  show (b.toNat >>> 63) % 2 ^ 1 = _
  rw [Nat.shiftRight_eq_div_pow]
  omega

/-- Whether the sign is a minus. -/
def isMinus : Sign → Bool
  | .negative => true
  | .positive => false

/-- What the parts of a float are expanded to. -/
def Expansion.ofParts : UnpackedFloat → Expansion
  | .notANumber => .undefined
  | .infinity s => .infinite (isMinus s)
  | .zero s => .finite (isMinus s) 0 (-1074)
  | .finite s m e _ => .finite (isMinus s) m e

/-- **A float is expanded to its parts.** -/
theorem expand_eq (x : Float) : expand x = .ofParts x.toModel.unpack := by
  obtain ⟨s, e, m, hb⟩ := exists_packComponents x.toBits.toBitVec
  have hexponent : x.toBits.toNat / Nat.pow 2 52 % Nat.pow 2 11 = e.toNat := by
    have he := toNat_unpackExponent (packComponents Format.binary64 s e m)
    rw [unpackExponent_packComponents, hb] at he
    exact he.symm
  have hmantissa : x.toBits.toNat % Nat.pow 2 52 = m.toNat := by
    have hm := toNat_unpackMantissa (packComponents Format.binary64 s e m)
    rw [unpackMantissa_packComponents, hb] at hm
    exact hm.symm
  have hsign : decide (x.toBits.toNat / Nat.pow 2 63 = 1) = isMinus s := by
    have hs := toNat_unpackSign (packComponents Format.binary64 s e m)
    have hof := unpackSign_packComponents s e m
    rw [hb] at hs hof
    have hall : ∀ b : BitVec 1, decide (b.toNat = 1) = isMinus (Sign.ofBitVec b) := by decide
    have hbit := hall (@unpackSign Format.binary64 x.toBits.toBitVec)
    rwa [hs, hof] at hbit
  have hunpack := unpack_packComponents s e m
  rw [hb] at hunpack
  change x.toModel.unpack = _ at hunpack
  have hlast : e.toNat = 2047 ↔ e = -1#11 := BitVec.toNat_inj (y := -1#11)
  have hfirst : e.toNat = 0 ↔ e = 0#11 := BitVec.toNat_inj (y := 0#11)
  have hnone : m.toNat = 0 ↔ m = 0#52 := BitVec.toNat_inj (y := 0#52)
  simp only [expand, hexponent, hmantissa, hsign, hunpack, hlast, hfirst, hnone]
  split
  · split <;> rfl
  · split
    · split
      · next hm => rw [hm]; rfl
      · rfl
    · have hlong : m.toNat + Nat.pow 2 52 = (1#1 ++ m).toNat := by
        rw [append_one, Nat.add_comm]
        rfl
      rw [hlong]
      rfl

/-- **An undefined float, an infinity and a finite float are expanded as such.** -/
theorem expand_cases (x : Float) :
    (x.isNaN = true ∧ x.isInf = false ∧ expand x = .undefined) ∨
    (x.isInf = true ∧ ∃ negative, expand x = .infinite negative) ∨
    (x.isNaN = false ∧ x.isInf = false ∧
      ∃ negative mantissa exponent, expand x = .finite negative mantissa exponent) := by
  rw [expand_eq]
  unfold Float.isNaN Float.isInf Float.Model.isNaN Float.Model.isInf
  cases x.toModel.unpack with
  | notANumber => exact Or.inl ⟨rfl, rfl, rfl⟩
  | infinity s => exact Or.inr (Or.inl ⟨rfl, _, rfl⟩)
  | zero s => exact Or.inr (Or.inr ⟨rfl, rfl, _, _, _, rfl⟩)
  | finite s m e hm => exact Or.inr (Or.inr ⟨rfl, rfl, _, _, _, rfl⟩)

end Appraisal.Number
