import ExprLang.Decimal.Form

/-!
# The fewest digits that read back

Every positive finite decimal stands for an interval of real numbers: those that are nearer to it
than to its neighbours. The shortest text of the decimal is the coarsest multiple of a power of ten
in this interval. Two multiples of that power may lie in it; the nearer one is taken, and of two
equally near ones the greater.
-/

namespace ExprLang.Decimal

/-- A number given by digits: `digits * 10 ^ exponent`. -/
structure Digits where
  digits : Nat
  exponent : Int
  deriving DecidableEq, Repr, Inhabited

/-- The real numbers that round to a decimal, in quarters of its last place. -/
structure Interval where
  low : Nat
  value : Nat
  high : Nat
  /-- Whether the two ends round to the decimal as well. -/
  closed : Bool
  deriving Repr

/-- The interval of a positive decimal. The neighbour below a power of two is only half as far away
as the one above; the ends belong to the decimal with the even significand. -/
def Interval.ofFinite (parts : Finite) : Interval :=
  let value := 4 * parts.significand
  let below := if parts.significand = leadingBit ∧ minExponent < parts.exponent then 1 else 2
  ⟨value - below, value, value + 2, parts.significand % 2 == 0⟩

/-- The nearest multiple of `10 ^ exponent` in the interval, whose unit is `2 ^ unit`. -/
def Interval.multiple? (interval : Interval) (unit exponent : Int) : Option Nat :=
  let ten := Nat.pow 10 exponent.toNat * Nat.pow 2 (-unit).toNat
  let one := Nat.pow 10 (-exponent).toNat * Nat.pow 2 unit.toNat
  let value := interval.value * one
  let below := value / ten
  let inside (n : Nat) : Bool :=
    if interval.closed then interval.low * one ≤ n * ten && n * ten ≤ interval.high * one
    else interval.low * one < n * ten && n * ten < interval.high * one
  match inside below, inside (below + 1) with
  | true, true => some (if 2 * value < (2 * below + 1) * ten then below else below + 1)
  | true, false => some below
  | false, true => some (below + 1)
  | false, false => none

/-- Tries ever finer powers of ten, as often as `steps` tells. -/
def Interval.search (interval : Interval) (unit : Int) : Nat → Int → Digits
  | 0, exponent => ⟨0, exponent⟩
  | steps + 1, exponent =>
    match interval.multiple? unit exponent with
    | some digits => ⟨digits, exponent⟩
    | none => interval.search unit steps (exponent - 1)

/-- The shortest digits of a positive finite decimal. No decimal has a power of ten above 308, and
seventeen digits from the leading one on always tell it from its neighbours. -/
def shortest (parts : Finite) : Digits :=
  let whole :=
    parts.significand * Nat.pow 2 parts.exponent.toNat / Nat.pow 2 (-parts.exponent).toNat
  let start := (Nat.toDigits 10 whole).length
  (Interval.ofFinite parts).search (parts.exponent - 2) (start + 350) start

end ExprLang.Decimal
