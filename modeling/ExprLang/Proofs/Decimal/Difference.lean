import Mathlib

/-!
# Differences of decimals

To subtract a number is to add its opposite. Both are rounded from the same exact sum, and both
treat the infinities and what is not a number alike.
-/

namespace ExprLang.Decimal

open Float.Model

theorem apply_neg (n : Int) : ∀ sign : UnpackedFloat.Sign, (-sign).apply n = -sign.apply n
  | .negative => (Int.neg_neg n).symm
  | .positive => rfl

theorem add_neg_eq_sub (format : Format) (x y : UnpackedFloat) :
    UnpackedFloat.add format x y.neg = UnpackedFloat.sub format x y := by
  cases x <;> cases y <;>
    simp only [UnpackedFloat.neg, UnpackedFloat.add, UnpackedFloat.sub]
  -- Two finite numbers are brought to one exponent, and then their significands are added.
  case finite.finite => rw [Int.sub_eq_add_neg, apply_neg]

/-- A decimal whose meaning is opposite to that of another may be added instead of subtracting the
other. -/
theorem add_eq_sub {y z : Float} (h : z.toModel.unpack = y.toModel.unpack.neg) (x : Float) :
    x + z = x - y := by
  have hmodel : x.toModel + z.toModel = x.toModel - y.toModel := by
    change pack (UnpackedFloat.add .binary64 x.toModel.unpack z.toModel.unpack) =
      pack (UnpackedFloat.sub .binary64 x.toModel.unpack y.toModel.unpack)
    rw [h, add_neg_eq_sub]
  exact congrArg Float.ofModel hmodel

theorem add_ofInt_neg_one (x : Float) : x + .ofInt (-1) = x - .ofInt 1 :=
  add_eq_sub rfl x

end ExprLang.Decimal
