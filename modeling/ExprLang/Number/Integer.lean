/-!
# Integers as text

Integers are those of 64 bits in two's complement. `Integer.read?` reads a decimal text with an
optional sign; of two faults in it the one further left is reported, where a number that leaves the
range is a fault at the digit that makes it leave.
-/

namespace ExprLang.Integer

/-- Whether a number fits into 64 bits. -/
def fits (n : Int) : Bool :=
  -0x8000000000000000 ≤ n && n < 0x8000000000000000

/-- The integer of 64 bits equal to a number, if there is one. -/
def ofInt? (n : Int) : Option Int64 :=
  if fits n then some (.ofInt n) else none

/-- An integer is found exactly for the numbers that fit, and keeps their value. -/
theorem ofInt?_eq_some_iff {n : Int} {i : Int64} : ofInt? n = some i ↔ i.toInt = n := by
  have hlower := i.le_toInt
  have hupper := i.toInt_lt
  simp only [ofInt?, fits, Bool.and_eq_true, decide_eq_true_eq]
  constructor
  · intro h
    split at h
    next hfits =>
      cases h
      exact Int64.toInt_ofInt_of_le (by omega) (by omega)
    next => cases h
  · rintro rfl
    rw [if_pos (by omega), Int64.ofInt_toInt]

/-- Why a text is not an integer. -/
inductive ReadError where
  | empty
  | invalidDigit
  | tooLarge
  | tooSmall
  deriving DecidableEq, Repr

/-- The wording of the fault. -/
def ReadError.message : ReadError → String
  | .empty => "cannot parse integer from empty string"
  | .invalidDigit => "invalid digit found in string"
  | .tooLarge => "number too large to fit in target type"
  | .tooSmall => "number too small to fit in target type"

/-- The value of an ASCII digit. -/
def digit? (c : Char) : Option Nat :=
  if c.isDigit then some (c.toNat - '0'.toNat) else none

/-- Continues a number by the digits that follow it, all counted with the sign of the number. -/
def readDigits (negative : Bool) : Int → List Char → Except ReadError Int64
  | n, [] => .ok (.ofInt n)
  | n, c :: rest =>
    match digit? c with
    | none => .error .invalidDigit
    | some d =>
      let next := if negative then 10 * n - d else 10 * n + d
      if fits next then readDigits negative next rest
      else .error (if negative then .tooSmall else .tooLarge)

/-- Reads an integer: at least one ASCII digit after an optional sign. -/
def read? : List Char → Except ReadError Int64
  | [] => .error .empty
  | ['+'] | ['-'] => .error .invalidDigit
  | '+' :: digits => readDigits false 0 digits
  | '-' :: digits => readDigits true 0 digits
  | digits => readDigits false 0 digits

/-- The decimal text of an integer. -/
def text (n : Int64) : String :=
  match n.toInt with
  | .ofNat m => .ofList (Nat.toDigits 10 m)
  | .negSucc m => .ofList ('-' :: Nat.toDigits 10 (m + 1))

end ExprLang.Integer
