import ExprLang.Evaluation.Operation
import ExprLang.Proofs.Decimal.Exact
import ExprLang.Proofs.Decimal.Form

/-!
# Comparisons

Numbers are compared by their exact values, whatever mixture of integers and decimals they are, and
strings by their characters. All six comparisons of two values go by the one order that these have.
-/

namespace ExprLang

/-- The order of two exact values, neither of which may be missing. -/
def orderExact? (a b : Option (WithBotTop ℚ)) : Option Ordering :=
  a.bind fun r => b.map (compare r)

theorem map_swap_orderExact? (a b : Option (WithBotTop ℚ)) :
    (orderExact? a b).map Ordering.swap = orderExact? b a := by
  cases a <;> cases b <;> simp [orderExact?, ← Std.OrientedOrd.eq_swap]

namespace Value

variable {left right : Value} {a b : Option (WithBotTop ℚ)} {order : Option Ordering}

/-- The exact value of a number. There is none for a decimal that is not a number. -/
def number? : Value → Option (Option (WithBotTop ℚ))
  | int n => some (some (n.toInt : ℚ))
  | decimal x => some (Decimal.form x).exactValue?
  | _ => none

/-- Numbers are ordered by their exact values. -/
theorem orderNumbers?_eq (left right : Value) : left.orderNumbers? right =
    left.number?.bind fun a => right.number?.map (orderExact? a) := by
  cases left <;> cases right <;> try rfl
  case int.int n m => exact congrArg (some ∘ some) (Decimal.compare_eq_compare_coe n m)
  case int.decimal n x => exact congrArg some (Decimal.orderInteger?_eq n x)
  case decimal.int x n =>
    rw [orderNumbers?, Decimal.orderInteger?_eq]
    exact congrArg some (map_swap_orderExact? (some (n.toInt : ℚ)) (Decimal.form x).exactValue?)
  case decimal.decimal x y =>
    exact congrArg some (Decimal.Form.order?_eq (Decimal.form x) (Decimal.form y))

theorem order?_of_number? (hleft : left.number? = some a) (hright : right.number? = some b) :
    left.order? right = some (orderExact? a b) := by
  have hnumbers : left.order? right = left.orderNumbers? right := by
    cases left <;> first | rfl | cases hleft
  rw [hnumbers, orderNumbers?_eq, hleft, hright]
  rfl

/-- Two values have an order if they are numbers or strings. -/
theorem numbers_or_strings_of_order? (h : left.order? right = some order) :
    (∃ a b, left.number? = some a ∧ right.number? = some b ∧ order = orderExact? a b) ∨
      ∃ s t, left = .string s ∧ right = .string t ∧ order = some (compare s t) := by
  unfold order? at h
  split at h
  next s t =>
    cases h
    exact .inr ⟨s, t, rfl, rfl, rfl⟩
  next =>
    rw [orderNumbers?_eq, Option.bind_eq_some_iff] at h
    obtain ⟨a, hleft, h⟩ := h
    obtain ⟨b, hright, rfl⟩ := Option.map_eq_some_iff.mp h
    exact .inl ⟨a, b, hleft, hright, rfl⟩

/-- Two values that have an order are equal if it is that of equal ones. -/
theorem equals?_of_order? (h : left.order? right = some order) :
    left.equals? right = some (order == some .eq) := by
  rcases numbers_or_strings_of_order? h with ⟨a, b, hleft, hright, rfl⟩ | ⟨s, t, rfl, rfl, rfl⟩
  · have hnumbers : left.equals? right = (left.orderNumbers? right).map (· == some .eq) := by
      cases left <;> first | rfl | cases hleft
    rw [hnumbers, orderNumbers?_eq, hleft, hright]
    rfl
  · refine congrArg some (Bool.eq_iff_iff.mpr ?_)
    rw [beq_iff_eq, beq_iff_eq, Option.some_inj, Std.compare_eq_iff_eq]

end Value

namespace BinaryOp

variable {op : BinaryOp} {left right : Value} {a b : Option (WithBotTop ℚ)}
  {order : Option Ordering}

/-- The operators that ask for the order of two values. -/
def orderings : List BinaryOp :=
  [less, lessOrEqual, greater, greaterOrEqual]

/-- The operators that compare two values. -/
def comparisons : List BinaryOp :=
  equal :: notEqual :: orderings

theorem eq_of_mem_orderings (h : op ∈ orderings) :
    op = less ∨ op = lessOrEqual ∨ op = greater ∨ op = greaterOrEqual := by
  simpa [orderings] using h

theorem eq_of_mem_comparisons (h : op ∈ comparisons) :
    op = equal ∨ op = notEqual ∨ op = less ∨ op = lessOrEqual ∨ op = greater ∨
      op = greaterOrEqual := by
  simpa [comparisons, orderings] using h

/-- What a comparison answers of two values that have the given order. -/
def admits (order : Option Ordering) : BinaryOp → Bool
  | equal => order == some .eq
  | notEqual => order != some .eq
  | op => order.any op.holds

/-- What a comparison says of two exact values. What is not a number is unlike all numbers, itself
included, and in no order with them. -/
def Relates (a b : Option (WithBotTop ℚ)) : BinaryOp → Prop
  | equal => ∃ r ∈ a, ∃ s ∈ b, r = s
  | notEqual => ¬ ∃ r ∈ a, ∃ s ∈ b, r = s
  | less => ∃ r ∈ a, ∃ s ∈ b, r < s
  | lessOrEqual => ∃ r ∈ a, ∃ s ∈ b, r ≤ s
  | greater => ∃ r ∈ a, ∃ s ∈ b, s < r
  | greaterOrEqual => ∃ r ∈ a, ∃ s ∈ b, s ≤ r
  | _ => False

/-- An operator that asks for the order of two values looks at nothing else. -/
theorem apply_of_mem_orderings (hop : op ∈ orderings) (left right : Value) :
    op.apply left right =
      match left.order? right with
      | some order => .ok (.bool (op.admits order))
      | none => .error (.invalidOperands op left.kind right.kind) := by
  rcases eq_of_mem_orderings hop with rfl | rfl | rfl | rfl <;> rfl

theorem apply_of_order? (hop : op ∈ comparisons) (h : left.order? right = some order) :
    op.apply left right = .ok (.bool (op.admits order)) := by
  have hequals := Value.equals?_of_order? h
  rcases List.mem_cons.mp hop with rfl | hrest
  · simp only [apply, hequals]
    rfl
  · rcases List.mem_cons.mp hrest with rfl | horderings
    · simp only [apply, hequals]
      rfl
    · rw [apply_of_mem_orderings horderings, h]

theorem admits_orderExact?_iff (hop : op ∈ comparisons) :
    op.admits (orderExact? a b) = true ↔ op.Relates a b := by
  have hcases := eq_of_mem_comparisons hop
  cases a with
  | none =>
      rcases hcases with rfl | rfl | rfl | rfl | rfl | rfl <;>
        simp [orderExact?, admits, Relates]
  | some r =>
      cases b with
      | none =>
          rcases hcases with rfl | rfl | rfl | rfl | rfl | rfl <;>
            simp [orderExact?, admits, Relates]
      | some s =>
          rcases hcases with rfl | rfl | rfl | rfl | rfl | rfl <;>
            simp [orderExact?, admits, Relates, holds, compare_lt_iff_lt, compare_gt_iff_gt,
              @eq_comm _ s r]

/-- The operator answers whether something holds. -/
def Decides (op : BinaryOp) (left right : Value) (p : Prop) : Prop :=
  ∃ answer, op.apply left right = .ok (.bool answer) ∧ (answer = true ↔ p)

/-- A comparison of two numbers answers according to their exact values. -/
theorem decides_of_number? (hop : op ∈ comparisons) (hleft : left.number? = some a)
    (hright : right.number? = some b) : op.Decides left right (op.Relates a b) :=
  ⟨_, apply_of_order? hop (Value.order?_of_number? hleft hright), admits_orderExact?_iff hop⟩

end BinaryOp

namespace Decimal

/-- An integer and a decimal are compared exactly: the order that is found and the answers of the
operators are those of the numbers themselves. -/
structure ComparesExactly (n : Int64) (x : Float) : Prop where
  order_eq_none_iff : orderInteger? n x = none ↔ x.isNaN = true
  order_infinite : ∀ negative, form x = .infinite negative →
    orderInteger? n x = some (if negative then .gt else .lt)
  order_finite : ∀ parts, form x = .finite parts →
    orderInteger? n x = some (compare (n.toInt : ℚ) parts.toRat)
  decides : ∀ op ∈ BinaryOp.comparisons,
    op.Decides (.int n) (.decimal x) (op.Relates (some (n.toInt : ℚ)) (form x).exactValue?) ∧
      op.Decides (.decimal x) (.int n) (op.Relates (form x).exactValue? (some (n.toInt : ℚ)))

theorem comparesExactly (n : Int64) (x : Float) : ComparesExactly n x where
  order_eq_none_iff := by
    rw [orderInteger?_eq, Option.map_eq_none_iff, isNaN_iff]
    cases form x <;> simp [Form.exactValue?]
  order_infinite negative h := by
    rw [orderInteger?_eq, h]
    cases negative <;> rfl
  order_finite parts h := by
    rw [orderInteger?_eq, h, Form.exactValue?, Option.map_some, compare_coe]
  decides op hop :=
    ⟨BinaryOp.decides_of_number? hop rfl rfl, BinaryOp.decides_of_number? hop rfl rfl⟩

end Decimal

end ExprLang
