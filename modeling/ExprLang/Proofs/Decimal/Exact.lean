import Mathlib.Algebra.Order.Field.Power
import Mathlib.Data.Rat.Cast.Order
import Mathlib.Order.Compare
import Mathlib.Order.WithBotTop
import Mathlib.Tactic.Linarith
import Mathlib.Tactic.Positivity
import ExprLang.Decimal.Order

/-!
# The exact order of numbers

A decimal is a rational number, an infinity, or not a number. Decimals are ordered by these exact
values, and so are integers and decimals among each other: the whole part of a decimal decides
unless it is the integer, and what is cut off from it is less than one.
-/

namespace ExprLang

/-- Two orderings are the same if they agree on what is less and on what is greater. -/
theorem ordering_ext {a b : Ordering} (hlt : a = .lt ↔ b = .lt) (hgt : a = .gt ↔ b = .gt) :
    a = b := by
  cases a <;> cases b <;> simp_all

namespace Decimal

namespace Finite

/-- The sign as a factor. -/
def sign (parts : Finite) : ℚ :=
  if parts.negative then -1 else 1

/-- The number that the parts make. -/
def toRat (parts : Finite) : ℚ :=
  parts.sign * (parts.significand * 2 ^ parts.exponent)

variable {parts : Finite}

theorem sign_eq_or (parts : Finite) : parts.sign = -1 ∨ parts.sign = 1 := by
  rw [sign]
  exact ite_eq_or_eq _ _ _

theorem cast_signed (parts : Finite) (magnitude : Nat) :
    ((if parts.negative then -(magnitude : Int) else magnitude : Int) : ℚ) =
      parts.sign * magnitude := by
  rw [sign]
  split <;> simp

theorem scaled_mul_zpow {scale : Int} (h : scale ≤ parts.exponent) :
    parts.scaled scale * (2 : ℚ) ^ scale = parts.toRat := by
  obtain ⟨k, hk⟩ := Int.le.dest h
  have hshift : (parts.exponent - scale).toNat = k := by omega
  have hpow : (2 : ℚ) ^ parts.exponent = 2 ^ k * 2 ^ scale := by
    rw [← hk, zpow_add₀ two_ne_zero, mul_comm, zpow_natCast]
  rw [scaled, cast_signed, hshift, toRat, hpow, Nat.pow_eq]
  push_cast
  simp only [mul_assoc]

/-- Finite numbers are ordered by the rational numbers that they make. -/
theorem order_eq (a b : Finite) : a.order b = compare a.toRat b.toRat := by
  have hpos : (0 : ℚ) < 2 ^ min a.exponent b.exponent := zpow_pos two_pos _
  rw [← scaled_mul_zpow (min_le_left a.exponent b.exponent),
    ← scaled_mul_zpow (min_le_right a.exponent b.exponent), order]
  apply ordering_ext
  · rw [Std.compare_eq_lt, compare_lt_iff_lt, mul_lt_mul_iff_left₀ hpos, Int.cast_lt]
  · rw [Std.compare_eq_gt, compare_gt_iff_gt, mul_lt_mul_iff_left₀ hpos, Int.cast_lt]

/-- The whole part and the fraction make up the number. Both have its sign, and the fraction is
less than one. -/
theorem exists_split (parts : Finite) :
    ∃ (whole : ℕ) (rest : ℚ), 0 ≤ rest ∧ rest < 1 ∧ (parts.whole : ℚ) = parts.sign * whole ∧
      parts.fraction.toRat = parts.sign * rest ∧ parts.toRat = parts.sign * (whole + rest) := by
  refine ⟨_, (parts.significand % Nat.pow 2 (-parts.exponent).toNat : ℕ) * 2 ^ parts.exponent,
    by positivity, ?_, cast_signed parts _, rfl, ?_⟩
  all_goals obtain ⟨k, hexponent | hexponent⟩ := Int.eq_nat_or_neg parts.exponent
  · simp [hexponent, Nat.mod_one]
  · have hpos : (0 : ℚ) < 2 ^ k := by positivity
    have hlt : (parts.significand % 2 ^ k : ℕ) < (2 : ℚ) ^ k := by
      exact_mod_cast Nat.mod_lt parts.significand (Nat.two_pow_pos k)
    simpa [hexponent, ← div_eq_mul_inv, div_lt_one hpos] using hlt
  · simp [toRat, hexponent, Nat.mod_one]
  · have hpos : (0 : ℚ) < 2 ^ k := by positivity
    have hsplit : (parts.significand / 2 ^ k : ℕ) + (parts.significand % 2 ^ k : ℕ) / (2 : ℚ) ^ k =
        parts.significand / 2 ^ k := by
      rw [eq_div_iff hpos.ne', add_mul, div_mul_cancel₀ _ hpos.ne']
      exact_mod_cast Nat.div_add_mod' parts.significand (2 ^ k)
    simp [toRat, hexponent, ← div_eq_mul_inv, hsplit]

theorem toRat_eq_add (parts : Finite) : parts.toRat = parts.whole + parts.fraction.toRat := by
  obtain ⟨whole, rest, -, -, hwhole, hfraction, hsum⟩ := parts.exists_split
  rw [hsum, hwhole, hfraction, mul_add]

theorem abs_fraction_lt (parts : Finite) : |parts.fraction.toRat| < 1 := by
  obtain ⟨whole, rest, hnonneg, hlt, -, hfraction, -⟩ := parts.exists_split
  rcases parts.sign_eq_or with hsign | hsign <;>
    simpa [hfraction, hsign, abs_of_nonneg hnonneg] using hlt

/-- The whole part of a number between two whole bounds of opposite signs is between them too. -/
theorem whole_mem {bound : ℚ} (hlow : -bound ≤ parts.toRat) (hhigh : parts.toRat < bound) :
    -bound ≤ parts.whole ∧ (parts.whole : ℚ) < bound := by
  obtain ⟨whole, rest, hnonneg, -, hwhole, -, hsum⟩ := parts.exists_split
  have hcast : (0 : ℚ) ≤ whole := Nat.cast_nonneg whole
  rw [hsum] at hlow hhigh
  rw [hwhole]
  rcases parts.sign_eq_or with hsign | hsign <;> rw [hsign] at hlow hhigh ⊢ <;>
    constructor <;> linarith

/-- An integer is to a number what it is to the whole part of it, and what zero is to the fraction
if it is the whole part itself. -/
theorem compare_toRat (n : Int) (parts : Finite) :
    compare (n : ℚ) parts.toRat =
      (compare n parts.whole).then (compare 0 parts.fraction.toRat) := by
  obtain ⟨hlow, hhigh⟩ := abs_lt.mp parts.abs_fraction_lt
  rw [toRat_eq_add]
  rcases lt_trichotomy n parts.whole with hn | hn | hn
  · have hle : (n : ℚ) + 1 ≤ parts.whole := by exact_mod_cast hn
    rw [Std.compare_eq_lt.mpr hn, compare_lt_iff_lt.mpr (by linarith)]
    rfl
  · rw [hn, Std.compare_eq_iff_eq.mpr rfl]
    apply ordering_ext <;> simp [Ordering.then, compare_lt_iff_lt, compare_gt_iff_gt]
  · have hle : (parts.whole : ℚ) + 1 ≤ n := by exact_mod_cast hn
    rw [Std.compare_eq_gt.mpr hn, compare_gt_iff_gt.mpr (by linarith)]
    rfl

end Finite

theorem compare_coe (r s : ℚ) : compare (r : WithBotTop ℚ) s = compare r s := by
  rw [← cmp_eq_compare, ← cmp_eq_compare, WithBotTop.coe_strictMono.cmp_map_eq]

theorem compare_toInt (a b : Int64) : compare a b = compare a.toInt b.toInt := by
  apply ordering_ext
  · rw [Std.compare_eq_lt, Std.compare_eq_lt, Int64.lt_iff_toInt_lt]
  · rw [Std.compare_eq_gt, Std.compare_eq_gt, Int64.lt_iff_toInt_lt]

/-- Integers are ordered by their exact values. -/
theorem compare_eq_compare_coe (a b : Int64) :
    compare a b = compare ((a.toInt : ℚ) : WithBotTop ℚ) (b.toInt : ℚ) := by
  rw [compare_toInt, compare_coe, ← cmp_eq_compare, ← cmp_eq_compare,
    Int.cast_strictMono.cmp_map_eq]

namespace Form

/-- The exact value. What is not a number has none. -/
def exactValue? : Form → Option (WithBotTop ℚ)
  | notANumber => none
  | infinite negative => some (if negative then ⊥ else ⊤)
  | finite parts => some parts.toRat

/-- Decimals are ordered by their exact values. -/
theorem order?_eq (a b : Form) :
    a.order? b = a.exactValue?.bind fun r => b.exactValue?.map (compare r) := by
  cases a with
  | notANumber => rfl
  | infinite a =>
      cases b with
      | notANumber => cases a <;> rfl
      | infinite b => cases a <;> cases b <;> rfl
      | finite parts => cases a <;> rfl
  | finite parts =>
      cases b with
      | notANumber => rfl
      | infinite b => cases b <;> rfl
      | finite other => simp [order?, exactValue?, compare_coe, Finite.order_eq]

variable {parts : Finite}

theorem order?_integerBound (parts : Finite) (negative : Bool) :
    (finite parts).order? (integerBound negative) =
      some (compare parts.toRat (if negative then -2 ^ 63 else 2 ^ 63)) := by
  have hbound : (⟨negative, 1, 63⟩ : Finite).toRat = if negative then -2 ^ 63 else 2 ^ 63 := by
    cases negative <;> norm_num [Finite.toRat, Finite.sign]
  rw [integerBound, order?, Finite.order_eq, hbound]

/-- A number between the bounds of the integers has an integer for its whole part. -/
theorem toInt_toInteger (hlow : -2 ^ 63 ≤ parts.toRat) (hhigh : parts.toRat < 2 ^ 63) :
    (finite parts).toInteger.toInt = parts.whole := by
  obtain ⟨hle, hlt⟩ := Finite.whole_mem hlow hhigh
  have hle : -2 ^ 63 ≤ parts.whole := by exact_mod_cast hle
  have hlt : parts.whole < 2 ^ 63 := by exact_mod_cast hlt
  exact Int64.toInt_ofIntClamp hle (Int.le_of_lt_add_one hlt)

end Form

/-- An integer and a decimal are ordered by their exact values. -/
theorem orderInteger?_eq (n : Int64) (x : Float) :
    orderInteger? n x = (form x).exactValue?.map (compare ((n.toInt : ℚ) : WithBotTop ℚ)) := by
  rw [orderInteger?]
  cases form x with
  | notANumber => rfl
  | infinite negative => cases negative <;> rfl
  | finite parts =>
      have hmin : (-2 ^ 63 : ℚ) ≤ n.toInt := by exact_mod_cast n.le_toInt
      have hmax : (n.toInt : ℚ) < 2 ^ 63 := by exact_mod_cast n.toInt_lt
      simp only [Form.order?_integerBound, Option.any_some, Form.exactValue?, Option.map_some,
        compare_coe, reduceCtorEq, if_false, if_true, Bool.false_eq_true,
        Ordering.isGE_iff_ne_lt, Ordering.isLT_iff_eq_lt, compare_lt_iff_lt, not_lt]
      split
      next hhigh => rw [compare_lt_iff_lt.mpr (lt_of_lt_of_le hmax hhigh)]
      next hhigh =>
      split
      next hlow => rw [compare_gt_iff_gt.mpr (lt_of_lt_of_le hlow hmin)]
      next hlow =>
        have hzero : Form.zero.order? (Form.finite parts).fraction =
            some (compare 0 parts.fraction.toRat) := by
          rw [Form.zero, Form.fraction, Form.order?, Finite.order_eq]
          simp [Finite.toRat]
        rw [compare_toInt, Form.toInt_toInteger (not_lt.mp hlow) (not_le.mp hhigh), hzero,
          Finite.compare_toRat]
        cases compare n.toInt parts.whole <;> rfl

end Decimal

end ExprLang
