import Mathlib
import ExprLang.Decimal.Form

/-!
# The form of a decimal in its format

The binary format of 64 bits gives every pattern of bits a meaning: not a number, an infinity, a
zero, or a significand with an exponent. The form of a decimal is this meaning.
-/

namespace ExprLang.Decimal

open Float.Model

/-- The form with the given meaning. -/
def Form.ofUnpacked : UnpackedFloat → Form
  | .notANumber => notANumber
  | .infinity sign => infinite (sign == .negative)
  | .zero sign => finite ⟨sign == .negative, 0, minExponent⟩
  | .finite sign significand exponent _ => finite ⟨sign == .negative, significand, exponent⟩

/-! ## Fields of bits -/

section

variable (bits : BitVec 64)

theorem isNegative_unpackSign :
    (UnpackedFloat.Sign.ofBitVec (@UnpackedFloat.unpackSign .binary64 bits) ==
      .negative) = (bits.toNat / signBit == 1) := by
  have hfield : (@UnpackedFloat.unpackSign .binary64 bits).toNat = bits.toNat / signBit := by
    have hlt := bits.isLt
    simp only [UnpackedFloat.unpackSign, BitVec.toNat_cast, BitVec.extractLsb_toNat]
    change bits.toNat >>> 63 % 2 ^ 1 = _
    rw [Nat.shiftRight_eq_div_pow, signBit]
    omega
  rw [← hfield]
  rcases BitVec.eq_zero_or_eq_one (@UnpackedFloat.unpackSign .binary64 bits) with h | h <;>
    rw [h] <;> rfl

theorem toNat_unpackExponent :
    (@UnpackedFloat.unpackExponent .binary64 bits).toNat = bits.toNat / leadingBit % 2048 := by
  simp only [UnpackedFloat.unpackExponent, BitVec.toNat_cast, BitVec.extractLsb_toNat]
  change bits.toNat >>> 52 % 2 ^ 11 = _
  rw [Nat.shiftRight_eq_div_pow]
  rfl

theorem toNat_unpackMantissa :
    (@UnpackedFloat.unpackMantissa .binary64 bits).toNat = bits.toNat % leadingBit := by
  simp only [UnpackedFloat.unpackMantissa, BitVec.toNat_cast, BitVec.extractLsb_toNat]
  rfl

/-- The hidden bit stands in front of the fraction. -/
theorem toNat_append_unpackMantissa :
    (1#1 ++ @UnpackedFloat.unpackMantissa .binary64 bits).toNat =
      leadingBit + bits.toNat % leadingBit := by
  have hlt : bits.toNat % leadingBit < 2 ^ 52 := Nat.mod_lt _ (by decide)
  rw [BitVec.toNat_append, toNat_unpackMantissa]
  exact (Nat.shiftLeft_add_eq_or_of_lt hlt 1).symm

end

/-- The form of a decimal is the meaning that its format gives to its bits. -/
theorem form_eq_ofUnpacked (x : Float) : form x = .ofUnpacked x.toModel.unpack := by
  have hones : BitVec.toNat (-BitVec.ofNat Format.binary64.exponentBits 1) = 2047 := rfl
  have hnone : BitVec.toNat (BitVec.ofNat Format.binary64.exponentBits 0) = 0 := rfl
  have hempty : BitVec.toNat (BitVec.ofNat Format.binary64.mantissaBitsWithoutImplicit 0) = 0 := rfl
  have hsign := isNegative_unpackSign x.toBits.toBitVec
  change form x = .ofUnpacked (UnpackedFloat.unpack .binary64 x.toBits.toBitVec)
  rw [form, UnpackedFloat.unpack]
  simp only [BitVec.toNat_eq, toNat_unpackExponent, toNat_unpackMantissa, hones, hnone, hempty,
    UInt64.toNat_toBitVec] at hsign ⊢
  split
  next => split <;> simp only [Form.ofUnpacked, hsign]
  next =>
  split
  next hfield =>
    split
    next hfraction => simp only [Form.ofUnpacked, hsign, hfraction]
    next =>
      simp only [Form.ofUnpacked, hsign, hfield]
      rfl
  next =>
    have hexponent : ((x.toBits.toNat / leadingBit % 2048 : Nat) : Int) + minExponent - 1 =
        (x.toBits.toNat / leadingBit % 2048 : Nat) - 1075 := by
      rw [minExponent]
      omega
    rw [Form.ofUnpacked, toNat_append_unpackMantissa, hsign, hexponent, UInt64.toNat_toBitVec]
    rfl

/-- What is not a number has the form of it. -/
theorem isNaN_iff (x : Float) : x.isNaN = true ↔ form x = .notANumber := by
  rw [form_eq_ofUnpacked]
  change x.toModel.unpack.isNaN = true ↔ _
  cases x.toModel.unpack <;> simp [UnpackedFloat.isNaN, Form.ofUnpacked]

end ExprLang.Decimal
