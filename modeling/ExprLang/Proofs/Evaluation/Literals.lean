import ExprLang.Evaluation.Evaluate
import ExprLang.Proofs.Printing.Words

/-!
# Values of literals

A literal text has a value in its kind, with one exception: an integer is refused where its digits
spell a number beyond 64 bits. A number with a point is always read.
-/

namespace ExprLang

namespace Integer

/-- The number that digits make after the digits of another one. -/
def appendDigits (n : Nat) (digits : List Char) : Nat :=
  digits.foldl (fun n c => 10 * n + (c.toNat - '0'.toNat)) n

variable {n : Nat} {digits : List Char}

theorem le_appendDigits (n : Nat) (digits : List Char) : n ≤ appendDigits n digits := by
  induction digits generalizing n with
  | nil => exact Nat.le_refl n
  | cons c rest ih => exact Nat.le_trans (by omega) (ih (10 * n + (c.toNat - '0'.toNat)))

theorem fits_natCast_iff : fits n = true ↔ n ≤ 0x7FFFFFFFFFFFFFFF := by
  simp only [fits, Bool.and_eq_true, decide_eq_true_eq]
  omega

/-- A number with a sign. -/
def signed (negative : Bool) (n : Nat) : Int :=
  if negative then -n else n

theorem fits_signed_of_le {negative : Bool} {m : Nat} (hle : m ≤ n)
    (h : fits (signed negative n) = true) : fits (signed negative m) = true := by
  cases negative <;> simp [fits, signed] at h ⊢ <;> omega

/-- A number is read on where only digits follow, and as far as it fits. -/
theorem toOption_readDigits {negative : Bool} (h : fits (signed negative n) = true) :
    (readDigits negative (signed negative n) digits).toOption =
      if digits.all Char.isDigit then ofInt? (signed negative (appendDigits n digits))
      else none := by
  induction digits generalizing n with
  | nil => exact (if_pos h).symm
  | cons c rest ih =>
      rw [readDigits, digit?, List.all_cons]
      cases hc : c.isDigit with
      | false => rfl
      | true =>
          have hnext : (if negative = true then 10 * signed negative n - (c.toNat - '0'.toNat : Nat)
              else 10 * signed negative n + (c.toNat - '0'.toNat : Nat)) =
              signed negative (10 * n + (c.toNat - '0'.toNat)) := by
            cases negative <;> simp [signed]
            omega
          simp only [hnext, if_true, Bool.true_and]
          split
          next hfits => exact ih hfits
          next hfits =>
            -- More digits do not bring the number back into the range.
            have hle := le_appendDigits (10 * n + (c.toNat - '0'.toNat)) rest
            have hnone : ofInt? (signed negative (appendDigits n (c :: rest))) = none :=
              if_neg fun h => hfits (fits_signed_of_le hle h)
            rw [hnone, ite_self]
            rfl

/-- The number that a row of digits spells. -/
def unsigned? (digits : List Char) : Option Nat :=
  if digits ≠ [] ∧ digits.all Char.isDigit = true then some (Decimal.digitsValue digits) else none

/-- The number that a text spells, however large it is: a row of digits after an optional sign. -/
def numeral? (text : List Char) : Option Int :=
  if text.head? = some '-' then (unsigned? text.tail).map (signed true)
  else if text.head? = some '+' then (unsigned? text.tail).map (signed false)
  else (unsigned? text).map (signed false)

/-- A row of digits with a sign is read if it spells a number that fits. -/
theorem toOption_readDigits_zero (negative : Bool) (hne : digits ≠ []) :
    (readDigits negative 0 digits).toOption =
      ((unsigned? digits).map (signed negative)).bind ofInt? := by
  have hzero : signed negative 0 = 0 := by cases negative <;> rfl
  have hfits : fits (signed negative 0) = true := by
    rw [hzero]
    rfl
  have hread := @toOption_readDigits 0 digits negative hfits
  rw [hzero] at hread
  rw [hread, unsigned?]
  by_cases hdigits : digits.all Char.isDigit = true
  · rw [if_pos hdigits, if_pos ⟨hne, hdigits⟩]
    rfl
  · rw [if_neg hdigits, if_neg fun h => hdigits h.2]
    rfl

/-- Exactly the texts that spell a number of the range are read. -/
theorem toOption_read? (text : List Char) :
    (read? text).toOption = (numeral? text).bind ofInt? := by
  unfold read?
  split
  next => rfl
  next => rfl
  next => rfl
  next digits hne => exact toOption_readDigits_zero false hne
  next digits hne => exact toOption_readDigits_zero true hne
  next hne _ _ hplus hminus =>
    have hhead {c : Char} (hc : ∀ rest, text = c :: rest → False) : text.head? ≠ some c :=
      fun h => (List.head?_eq_some_iff.mp h).elim hc
    rw [toOption_readDigits_zero false hne, numeral?, if_neg (hhead hminus),
      if_neg (hhead hplus)]

theorem head?_ne_of_isDigit {c : Char} (hc : c.isDigit = false)
    (hdigits : ∀ c ∈ digits, c.isDigit = true) : digits.head? ≠ some c := fun h =>
  Bool.false_ne_true (hc.symm.trans (hdigits c (List.mem_of_head? h)))

/-- Digits are read as the number that they spell, if it fits. -/
theorem read?_of_isDigit (hne : digits ≠ []) (hdigits : ∀ c ∈ digits, c.isDigit = true) :
    (read? digits).toOption = ofInt? (Decimal.digitsValue digits) := by
  have hspelled : numeral? digits = some (Decimal.digitsValue digits : Int) := by
    rw [numeral?, if_neg (head?_ne_of_isDigit rfl hdigits),
      if_neg (head?_ne_of_isDigit rfl hdigits), unsigned?,
      if_pos ⟨hne, List.all_eq_true.mpr hdigits⟩]
    rfl
  rw [toOption_read?, hspelled, Option.bind_some]

end Integer

namespace Decimal

/-- Digits with a point among them or at their end are read. -/
theorem readDigits?_of_isDigit {whole fraction : List Char} (hne : whole ≠ [] ∨ fraction ≠ [])
    (hwhole : ∀ c ∈ whole, c.isDigit = true) (hfraction : ∀ c ∈ fraction, c.isDigit = true) :
    readDigits? (whole ++ '.' :: fraction) =
      some ⟨digitsValue (whole ++ fraction), -fraction.length⟩ := by
  have hdot : Char.isDigit '.' = false := rfl
  have htake : (whole ++ '.' :: fraction).takeWhile Char.isDigit = whole := by
    rw [List.takeWhile_append_of_pos hwhole, List.takeWhile_cons_of_neg (by simp), List.append_nil]
  have hdrop : (whole ++ '.' :: fraction).dropWhile Char.isDigit = '.' :: fraction := by
    rw [List.dropWhile_append_of_pos hwhole, List.dropWhile_cons_of_neg (by simp)]
  have hempty : (whole.isEmpty && fraction.isEmpty) = false := by
    rcases hne with hne | hne <;> simp [hne]
  rw [readDigits?, htake, hdrop]
  simp only [List.takeWhile_eq_self_iff.mpr hfraction, List.dropWhile_eq_nil_iff.mpr hfraction]
  simp [hempty, readExponent?]

/-- A number with a point is read, whatever its digits are. -/
theorem exists_read?_of_isDigit {whole fraction : List Char} (hne : whole ≠ [] ∨ fraction ≠ [])
    (hwhole : ∀ c ∈ whole, c.isDigit = true) (hfraction : ∀ c ∈ fraction, c.isDigit = true) :
    ∃ x, read? (whole ++ '.' :: fraction) = some x := by
  have hhead {c : Char} {rest : List Char} (h : whole ++ '.' :: fraction = c :: rest) :
      c = '.' ∨ c.isDigit = true := by
    cases whole with
    | nil => exact .inl (List.cons.inj h).1.symm
    | cons d whole =>
        obtain ⟨rfl, -⟩ := List.cons.inj h
        exact .inr (hwhole _ List.mem_cons_self)
  have hsign : read? (whole ++ '.' :: fraction) = readMagnitude? (whole ++ '.' :: fraction) := by
    unfold read?
    split
    next h => exact absurd (hhead h) (by decide)
    next h => exact absurd (hhead h) (by decide)
    next => rfl
  rw [hsign, readMagnitude?, readDigits?_of_isDigit hne hwhole hfraction]
  split_ifs <;> exact ⟨_, rfl⟩

end Decimal

namespace LiteralKind

variable {kind : LiteralKind} {text : String}

/-- The text is made of digits and spells a number beyond the integers. -/
def IsTooLarge (text : String) : Prop :=
  text.toList ≠ [] ∧ (∀ c ∈ text.toList, c.isDigit = true) ∧
    0x7FFFFFFFFFFFFFFF < Decimal.digitsValue text.toList

/-- A literal is refused only if it is an integer that is too large. -/
theorem of_value_eq_error (h : Expr.Admits kind text) {error : RuntimeError}
    (herror : kind.value text = .error error) :
    kind = .int ∧ IsTooLarge text ∧ error = .invalidLiteral .int text := by
  cases kind with
  | int =>
      obtain ⟨-, hne, hdigits⟩ | ⟨hkind, -⟩ := h.digits_of_number (.inl rfl)
      · rw [value, Integer.read?_of_isDigit hne hdigits, Integer.ofInt?] at herror
        by_cases hfits : Integer.fits (Decimal.digitsValue text.toList) = true
        · rw [if_pos hfits] at herror
          cases herror
        · rw [if_neg hfits] at herror
          cases herror
          rw [Integer.fits_natCast_iff, Nat.not_le] at hfits
          exact ⟨rfl, ⟨hne, hdigits, hfits⟩, rfl⟩
      · cases hkind
  | decimal =>
      obtain ⟨hkind, -⟩ | ⟨-, whole, fraction, htext, hne, hwhole, hfraction⟩ :=
        h.digits_of_number (.inr rfl)
      · cases hkind
      · obtain ⟨x, hread⟩ := Decimal.exists_read?_of_isDigit hne hwhole hfraction
        rw [value, htext, hread] at herror
        cases herror
  | string => cases herror
  | bool => rcases h with rfl | rfl <;> cases herror

end LiteralKind

end ExprLang
