import ExprLang.Decimal.Form

/-!
# The order of numbers

Decimals are compared by the exact values that they denote. What is not a number has no place in
the order; the infinities enclose the rest.

An integer is compared with a decimal without being rounded to one. A decimal beyond the integers
is told by its size; any other one is cut to its whole part, which is an integer, and what was cut
off decides where the two integers are the same.
-/

namespace ExprLang.Decimal

namespace Finite

/-- The value as a multiple of `2 ^ scale`, for a scale that is not above the exponent. -/
def scaled (parts : Finite) (scale : Int) : Int :=
  let magnitude := parts.significand * Nat.pow 2 (parts.exponent - scale).toNat
  if parts.negative then -magnitude else magnitude

/-- Compares two finite numbers as multiples of the smaller of their powers of two. -/
def order (a b : Finite) : Ordering :=
  let scale := min a.exponent b.exponent
  compare (a.scaled scale) (b.scaled scale)

/-- The whole part, which is cut off towards zero. -/
def whole (parts : Finite) : Int :=
  let magnitude :=
    parts.significand * Nat.pow 2 parts.exponent.toNat / Nat.pow 2 (-parts.exponent).toNat
  if parts.negative then -magnitude else magnitude

/-- What there is beyond the whole part. It has the same sign. -/
def fraction (parts : Finite) : Finite :=
  { parts with significand := parts.significand % Nat.pow 2 (-parts.exponent).toNat }

end Finite

namespace Form

/-- The order of two numbers, unless one of them is not a number. -/
def order? : Form → Form → Option Ordering
  | notANumber, _ | _, notANumber => none
  | infinite a, infinite b => some (compare b a)
  | infinite a, finite _ => some (if a then .lt else .gt)
  | finite _, infinite b => some (if b then .gt else .lt)
  | finite a, finite b => some (a.order b)

/-- The bounds of the integers, `2 ^ 63` and its negative. Of the two only the negative one is an
integer. -/
def integerBound (negative : Bool) : Form :=
  finite ⟨negative, 1, 63⟩

/-- The whole part as an integer, or the nearest integer if it is none. -/
def toInteger : Form → Int64
  | notANumber => 0
  | infinite negative => if negative then .minValue else .maxValue
  | finite parts => .ofIntClamp parts.whole

/-- What there is beyond the whole part. -/
def fraction : Form → Form
  | finite parts => finite parts.fraction
  | _ => notANumber

end Form

/-- The order of an integer and a decimal, unless the decimal is not a number. -/
def orderInteger? (n : Int64) (x : Float) : Option Ordering :=
  let decimal := form x
  if decimal = .notANumber then none
  else if (decimal.order? (.integerBound false)).any Ordering.isGE then some .lt
  else if (decimal.order? (.integerBound true)).any Ordering.isLT then some .gt
  else
    match compare n decimal.toInteger with
    | .eq => Form.zero.order? decimal.fraction
    | ordering => some ordering

end ExprLang.Decimal
