import ExprLang.Decimal.Shortest

/-!
# Decimals as text

A decimal is written in positional notation with the fewest digits that read back, without a point
if it is whole and never with an exponent. More spellings are read than are written: a leading or
trailing point, an exponent, and names for what is not finite.
-/

namespace ExprLang.Decimal

/-- Positional notation for digits with their power of ten. -/
def Digits.positional (number : Digits) : List Char :=
  let digits := Nat.toDigits 10 number.digits
  let places := (-number.exponent).toNat
  if places = 0 then digits ++ List.replicate number.exponent.toNat '0'
  else if places < digits.length then
    digits.take (digits.length - places) ++ '.' :: digits.drop (digits.length - places)
  else '0' :: '.' :: List.replicate (places - digits.length) '0' ++ digits

/-- The text of a decimal. -/
def text (x : Float) : String :=
  let signed (negative : Bool) (body : List Char) : String :=
    .ofList (if negative then '-' :: body else body)
  match form x with
  | .notANumber => "NaN"
  | .infinite negative => signed negative ['i', 'n', 'f']
  | .finite parts =>
    signed parts.negative
      (if parts.significand = 0 then ['0'] else (shortest parts).positional)

/-- The value of a list of ASCII digits. -/
def digitsValue (digits : List Char) : Nat :=
  digits.foldl (fun n c => 10 * n + (c.toNat - '0'.toNat)) 0

/-- The decimal nearest to `digits * 10 ^ exponent`, a tie going to the even significand. Beyond
the range of decimals it is infinite or zero whatever the digits are. -/
def ofDigits (number : Digits) : Float :=
  let size := (Nat.toDigits 10 number.digits).length + number.exponent
  if number.digits = 0 ∨ size < -400 then 0.0
  else if 400 < size then 1.0 / 0.0
  else .ofScientific number.digits (number.exponent < 0) number.exponent.natAbs

/-- Reads the part of a number after its digits: nothing, or a power of ten. -/
def readExponent? : List Char → Option Int
  | [] => some 0
  | c :: rest =>
    if c = 'e' ∨ c = 'E' then
      let (negative, digits) :=
        match rest with
        | '+' :: digits => (false, digits)
        | '-' :: digits => (true, digits)
        | digits => (false, digits)
      if digits.isEmpty || !digits.all Char.isDigit then none
      else some (if negative then -digitsValue digits else digitsValue digits)
    else none

/-- Reads digits with at most one point among them and at least one digit, and then a power of
ten if there is one. -/
def readDigits? (text : List Char) : Option Digits :=
  let whole := text.takeWhile Char.isDigit
  let (fraction, rest) :=
    match text.dropWhile Char.isDigit with
    | '.' :: rest => (rest.takeWhile Char.isDigit, rest.dropWhile Char.isDigit)
    | rest => ([], rest)
  if whole.isEmpty && fraction.isEmpty then none
  else
    (readExponent? rest).map fun exponent =>
      ⟨digitsValue (whole ++ fraction), exponent - fraction.length⟩

/-- Reads a decimal without its sign. The names of what is not finite may be in capitals. -/
def readMagnitude? (text : List Char) : Option Float :=
  let name := String.ofList (text.map Char.toLower)
  if name = "inf" ∨ name = "infinity" then some (1.0 / 0.0)
  else if name = "nan" then some (0.0 / 0.0)
  else (readDigits? text).map ofDigits

/-- Reads a decimal with an optional sign. -/
def read? : List Char → Option Float
  | '+' :: text => readMagnitude? text
  | '-' :: text => (readMagnitude? text).map (-·)
  | text => readMagnitude? text

end ExprLang.Decimal
