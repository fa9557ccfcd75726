import ExprLang.Decimal.Order
import ExprLang.Evaluation.Error

/-!
# Operations on values

What the operators do with values. Integers are exact or overflow, and become decimals where the
other operand is one; a power is always a decimal. Comparisons do not convert: an integer and a
decimal are ordered by their exact values. Values of different sorts are neither equal nor
different.
-/

namespace ExprLang

namespace Value

/-- The order of two numbers, which there is none of if one of them is not a number. -/
def orderNumbers? : Value → Value → Option (Option Ordering)
  | int a, int b => some (some (compare a b))
  | int a, decimal b => some (Decimal.orderInteger? a b)
  | decimal a, int b => some ((Decimal.orderInteger? b a).map Ordering.swap)
  | decimal a, decimal b => some ((Decimal.form a).order? (Decimal.form b))
  | _, _ => none

/-- Whether two values are equal, if they can be compared. -/
def equals? : Value → Value → Option Bool
  | bool a, bool b => some (a == b)
  | string a, string b => some (a == b)
  | object a, object b => some (a == b)
  | left, right => (left.orderNumbers? right).map (· == some .eq)

/-- Whether two values are of one sort, or both numbers, and equal. -/
def isEqual (left right : Value) : Bool :=
  (left.equals? right).getD false

/-- The order of two values, if they have one: strings go by their characters. -/
def order? : Value → Value → Option (Option Ordering)
  | string a, string b => some (some (compare a b))
  | left, right => left.orderNumbers? right

/-- Two numbers as operands of one operation. -/
inductive Pair where
  | ints (left right : Int64)
  | decimals (left right : Float)

/-- Two numbers, as decimals if one of them is one. -/
def pair? : Value → Value → Option Pair
  | int a, int b => some (.ints a b)
  | int a, decimal b => some (.decimals (Decimal.ofInt a) b)
  | decimal a, int b => some (.decimals a (Decimal.ofInt b))
  | decimal a, decimal b => some (.decimals a b)
  | _, _ => none

end Value

namespace BinaryOp

/-- The operators that answer how two values are ordered. -/
def holds : BinaryOp → Ordering → Bool
  | greater, ordering => ordering == .gt
  | less, ordering => ordering == .lt
  | greaterOrEqual, ordering => ordering != .lt
  | _, ordering => ordering != .gt

/-- The exact result of an operation on integers, if it is an integer. Division cuts off the
fraction, and the remainder has the sign of the dividend; it belongs to a quotient, so there is none
where the quotient is too large. -/
def onIntegers? (op : BinaryOp) (a b : Int) : Option Int64 :=
  match op with
  | add => Integer.ofInt? (a + b)
  | subtract => Integer.ofInt? (a - b)
  | multiply => Integer.ofInt? (a * b)
  | divide => Integer.ofInt? (a.tdiv b)
  | _ => (Integer.ofInt? (a.tdiv b)).bind fun _ => Integer.ofInt? (a.tmod b)

/-- The result of an operation on decimals. -/
def onDecimals (op : BinaryOp) (a b : Float) : Float :=
  match op with
  | add => a + b
  | subtract => a - b
  | multiply => a * b
  | divide => a / b
  | _ => Decimal.remainder a b

/-- Whether the operator divides. -/
def divides : BinaryOp → Bool
  | divide | modulo => true
  | _ => false

/-- Adds, subtracts, multiplies or divides. -/
def arithmetic (op : BinaryOp) : Value.Pair → Except RuntimeError Value
  | .ints a b =>
    if op.divides && b == 0 then .error .divisionByZero
    else
      match op.onIntegers? a.toInt b.toInt with
      | some n => .ok (.int n)
      | none => .error (.overflow op.symbol)
  | .decimals a b =>
    if op.divides && (Decimal.form b).isZero then .error .divisionByZero
    else .ok (.decimal (op.onDecimals a b))

/-- Raises to a power. -/
def power : Value.Pair → Value
  | .ints a b => .decimal ((Decimal.ofInt a).pow (Decimal.ofInt b))
  | .decimals a b => .decimal (a.pow b)

/-- Applies an operator to two values. -/
def apply (op : BinaryOp) (left right : Value) : Except RuntimeError Value :=
  let invalid : RuntimeError := .invalidOperands op left.kind right.kind
  match op with
  | and | or =>
    match left, right with
    | .bool a, .bool b => .ok (.bool (if op = and then a && b else a || b))
    | _, _ => .error invalid
  | equal | notEqual =>
    match left.equals? right with
    | some same => .ok (.bool (if op = equal then same else !same))
    | none => .error invalid
  | greater | less | greaterOrEqual | lessOrEqual =>
    match left.order? right with
    | some ordering => .ok (.bool (ordering.any op.holds))
    | none => .error invalid
  | exponent =>
    match Value.pair? left right with
    | some pair => .ok (power pair)
    | none => .error invalid
  | add | subtract | multiply | divide | modulo =>
    match Value.pair? left right with
    | some pair => op.arithmetic pair
    | none => .error invalid

end BinaryOp

namespace UnaryOp

/-- What a step adds to its operand. -/
def step : UnaryOp → Int
  | decrementBefore | decrementAfter => -1
  | _ => 1

/-- The operand after a step. -/
def stepped (op : UnaryOp) : Value → Except RuntimeError Value
  | .int n =>
    match Integer.ofInt? (n.toInt + op.step) with
    | some next => .ok (.int next)
    | none => .error (.overflow op.symbol)
  | .decimal x => .ok (.decimal (x + .ofInt op.step))
  | value => .error (.invalidOperand op value.kind)

/-- Applies an operator that does not change its operand. -/
def apply (op : UnaryOp) (value : Value) : Except RuntimeError Value :=
  match op, value with
  | not, .bool b => .ok (.bool !b)
  | negate, .int n =>
    match Integer.ofInt? (-n.toInt) with
    | some negated => .ok (.int negated)
    | none => .error (.overflow op.symbol)
  | negate, .decimal x => .ok (.decimal (-x))
  | plus, .int n => .ok (.int n)
  | plus, .decimal x => .ok (.decimal x)
  | _, _ => .error (.invalidOperand op value.kind)

end UnaryOp

end ExprLang
