/-!
# Decimals taken apart

Decimals are binary floating-point numbers of 64 bits. A decimal is not a number, an infinity, or
finite: a natural number times a power of two, with a sign of its own, since zero has one too.
`form` reads the three parts off the bits of a decimal and `ofFinite` puts them together again.

The quotient of a division is cut to a whole number where its remainder is asked for, so the
remainder has the sign of the dividend and is smaller than the divisor. It is a multiple of the
smaller of the two powers of two and no greater than either operand, so it is itself a decimal and
nothing is rounded.
-/

namespace ExprLang.Decimal

/-- A finite decimal: `significand * 2 ^ exponent`, or its negative. -/
structure Finite where
  negative : Bool
  significand : Nat
  exponent : Int
  deriving DecidableEq, Repr, Inhabited

/-- What a decimal denotes. -/
inductive Form where
  | notANumber
  | infinite (negative : Bool)
  | finite (parts : Finite)
  deriving DecidableEq, Repr, Inhabited

/-- The exponent of the smallest positive decimal. -/
def minExponent : Int := -1074

/-- The leading bit of a full significand, `2 ^ 52`. -/
def leadingBit : Nat := 0x10000000000000

/-- The bit of the sign, `2 ^ 63`. -/
def signBit : Nat := 0x8000000000000000

/-- The form of a decimal: one bit of sign, eleven of exponent and 52 of fraction. The least
exponent field has no hidden leading bit, and the greatest one is kept for what is not finite. -/
def form (x : Float) : Form :=
  let bits := x.toBits.toNat
  let negative := bits / signBit == 1
  let field : Nat := bits / leadingBit % 2048
  let fraction := bits % leadingBit
  if field = 2047 then
    if fraction = 0 then .infinite negative else .notANumber
  else if field = 0 then .finite ⟨negative, fraction, minExponent⟩
  else .finite ⟨negative, leadingBit + fraction, (field : Int) + minExponent - 1⟩

namespace Form

/-- The form of the zero without a sign. -/
def zero : Form :=
  .finite ⟨false, 0, minExponent⟩

/-- Whether the form is that of a zero of either sign. -/
def isZero : Form → Bool
  | .finite parts => parts.significand == 0
  | _ => false

end Form

/-- Doubles the significand, at most as often as `steps` tells, until it has its leading bit or the
exponent is the least one. -/
def normalize : Nat → Finite → Finite
  | 0, parts => parts
  | steps + 1, parts =>
    if leadingBit ≤ parts.significand ∨ parts.exponent ≤ minExponent then parts
    else
      normalize steps
        { parts with significand := 2 * parts.significand, exponent := parts.exponent - 1 }

/-- The decimal with the given parts. The significand must be below `2 ^ 53` and the exponent at
least the least one; then no bit is lost. -/
def ofFinite (parts : Finite) : Float :=
  let parts := normalize 2100 parts
  let sign := if parts.negative then signBit else 0
  let magnitude :=
    if parts.significand < leadingBit then parts.significand
    else
      (parts.exponent - minExponent + 1).toNat * leadingBit + (parts.significand - leadingBit)
  .ofBits (sign + magnitude).toUInt64

/-- The remainder of two finite numbers, the second of which is not zero. -/
def Finite.remainder (a b : Finite) : Finite :=
  let scale := min a.exponent b.exponent
  let dividend := a.significand * Nat.pow 2 (a.exponent - scale).toNat
  let divisor := b.significand * Nat.pow 2 (b.exponent - scale).toNat
  ⟨a.negative, dividend % divisor, scale⟩

/-- The remainder of `x` by `y`. There is none for an infinite dividend or for a zero divisor, and
an infinite divisor leaves the dividend as it is. -/
def remainder (x y : Float) : Float :=
  match form x, form y with
  | .notANumber, _ | _, .notANumber | .infinite _, _ => 0.0 / 0.0
  | .finite _, .infinite _ => x
  | .finite a, .finite b => if b.significand = 0 then 0.0 / 0.0 else ofFinite (a.remainder b)

end ExprLang.Decimal
