import ExprLang.Proofs.Evaluation.Comparison

/-!
# One order behind the comparisons

The six comparisons never contradict each other. They are answered together or refused together,
two strings or two numbers with exact values are in exactly one of three orders, and comparisons
follow from one another along chains of values, integers and decimals mixed.
-/

namespace ExprLang

/-! ## Chains of orders -/

/-- What the order of a first and a second and that of the second and a third tell of the first and
the third. -/
theorem compare_then {α : Type*} [Ord α] [Std.TransOrd α] {a b c : α}
    (h : compare a b = compare b c ∨ compare a b = .eq ∨ compare b c = .eq) :
    compare a c = (compare a b).then (compare b c) := by
  rcases h with h | h | h
  · cases hab : compare a b with
    | lt => exact Std.TransCmp.lt_trans hab (h ▸ hab)
    | eq => exact Std.TransCmp.congr_left hab
    | gt => exact Std.TransCmp.gt_trans hab (h ▸ hab)
  · rw [h, Std.TransCmp.congr_left h]
    rfl
  · rw [h, ← Std.TransCmp.congr_right h]
    cases compare a b <;> rfl

namespace Value

variable {left right first second third : Value} {order next : Ordering}

/-- The values that are in an order: numbers with exact values, and strings. -/
theorem exact_or_strings_of_order? (h : left.order? right = some (some order)) :
    (∃ r s, left.number? = some (some r) ∧ right.number? = some (some s) ∧ order = compare r s) ∨
      ∃ s t, left = .string s ∧ right = .string t ∧ order = compare s t := by
  rcases numbers_or_strings_of_order? h with ⟨a, b, hleft, hright, horder⟩ | ⟨s, t, hs, ht, horder⟩
  · obtain ⟨r, rfl, h⟩ := Option.bind_eq_some_iff.mp horder.symm
    obtain ⟨s, rfl, rfl⟩ := Option.map_eq_some_iff.mp h
    exact .inl ⟨r, s, hleft, hright, rfl⟩
  · cases horder
    exact .inr ⟨s, t, hs, ht, rfl⟩

theorem order?_swap {order : Option Ordering} (h : left.order? right = some order) :
    right.order? left = some (order.map Ordering.swap) := by
  rcases numbers_or_strings_of_order? h with ⟨a, b, hleft, hright, rfl⟩ | ⟨s, t, rfl, rfl, rfl⟩
  · rw [order?_of_number? hright hleft, map_swap_orderExact?]
  · exact congrArg (some ∘ some) Std.OrientedOrd.eq_swap

/-- Orders follow from one another where both go the same way. -/
theorem order?_then (h : first.order? second = some (some order))
    (h' : second.order? third = some (some next))
    (hchain : order = next ∨ order = .eq ∨ next = .eq) :
    first.order? third = some (some (order.then next)) := by
  rcases exact_or_strings_of_order? h with ⟨r, s, hfirst, hsecond, rfl⟩ | ⟨s, t, rfl, rfl, rfl⟩ <;>
    rcases exact_or_strings_of_order? h' with
      ⟨s', t', hsecond', hthird, rfl⟩ | ⟨s', t', hs, rfl, rfl⟩
  · obtain rfl : s = s' := by simpa [hsecond] using hsecond'
    rw [order?_of_number? hfirst hthird, ← compare_then hchain]
    rfl
  · rw [hs] at hsecond
    cases hsecond
  · cases hsecond'
  · cases hs
    rw [← compare_then hchain]
    rfl

theorem equals?_comm (left right : Value) : left.equals? right = right.equals? left := by
  cases h : left.order? right with
  | some order =>
      rw [equals?_of_order? h, equals?_of_order? (order?_swap h)]
      cases order with
      | none => rfl
      | some order => cases order <;> rfl
  | none =>
      -- Without an order, only truth values and objects can be equal.
      cases left <;> cases right <;> first
        | rfl
        | exact congrArg some BEq.comm
        | cases h

/-- Without an order, equal values are one and the same. -/
theorem eq_of_equals? (horder : left.order? right = none) (h : left.equals? right = some true) :
    left = right := by
  cases left <;> cases right <;> first
    | exact congrArg _ (by simpa [equals?] using h)
    | cases h
    | cases horder

/-- Two strings, or two numbers that have exact values. -/
def IsOrdered (left right : Value) : Prop :=
  (∃ s t, left = string s ∧ right = string t) ∨
    ∃ r s, left.number? = some (some r) ∧ right.number? = some (some s)

/-- A decimal that is not a number. -/
def IsNaN (value : Value) : Prop :=
  value.number? = some none

theorem order?_of_isNaN (hleft : left.number?.isSome = true) (hright : right.number?.isSome = true)
    (h : left.IsNaN ∨ right.IsNaN) : left.order? right = some none := by
  obtain ⟨a, ha⟩ := Option.isSome_iff_exists.mp hleft
  obtain ⟨b, hb⟩ := Option.isSome_iff_exists.mp hright
  rw [order?_of_number? ha hb]
  rcases h with h | h
  · obtain rfl : a = none := Option.some_inj.mp (ha.symm.trans h)
    rfl
  · obtain rfl : b = none := Option.some_inj.mp (hb.symm.trans h)
    cases a <;> rfl

theorem IsOrdered.exists_order (h : left.IsOrdered right) :
    ∃ order, left.order? right = some (some order) := by
  rcases h with ⟨s, t, rfl, rfl⟩ | ⟨r, s, hleft, hright⟩
  · exact ⟨_, rfl⟩
  · exact ⟨_, order?_of_number? hleft hright⟩

/-- Strings are ordered by the code points of their characters. -/
theorem compare_eq_lt_iff (s t : String) :
    compare s t = .lt ↔ s.toList.map Char.toNat < t.toList.map Char.toNat := by
  have hmono : StrictMono (List.map Char.toNat) := fun _ _ h => List.map_lt (fun _ _ h => h) h
  rw [hmono.lt_iff_lt, ← String.lt_iff]
  exact compareOfLessAndEq_eq_lt

end Value

namespace BinaryOp

variable {op : BinaryOp} {left right first second third : Value}

/-- The operator answers yes. -/
def Holds (op : BinaryOp) (left right : Value) : Prop :=
  op.apply left right = .ok (.bool true)

/-- The comparison that follows from two comparisons, of a first value with a second one and of
that one with a third. -/
def chain? : BinaryOp → BinaryOp → Option BinaryOp
  | equal, equal => some equal
  | equal, less | less, equal | less, less | less, lessOrEqual | lessOrEqual, less => some less
  | equal, lessOrEqual | lessOrEqual, equal | lessOrEqual, lessOrEqual => some lessOrEqual
  | equal, greater | greater, equal | greater, greater | greater, greaterOrEqual
  | greaterOrEqual, greater => some greater
  | equal, greaterOrEqual | greaterOrEqual, equal | greaterOrEqual, greaterOrEqual =>
    some greaterOrEqual
  | _, _ => none

theorem mem_of_chain? {next result : BinaryOp} (h : op.chain? next = some result) :
    op ∈ equal :: orderings ∧ next ∈ equal :: orderings ∧ result ∈ equal :: orderings := by
  unfold chain? at h
  split at h <;> cases h <;> simp [orderings]

theorem eq_of_mem_cons_orderings (h : op ∈ equal :: orderings) :
    op = equal ∨ op = less ∨ op = lessOrEqual ∨ op = greater ∨ op = greaterOrEqual :=
  (List.mem_cons.mp h).imp_right eq_of_mem_orderings

theorem mem_comparisons (h : op ∈ equal :: orderings) : op ∈ comparisons := by
  rcases List.mem_cons.mp h with rfl | h
  · exact List.mem_cons_self
  · exact List.mem_cons_of_mem _ (List.mem_cons_of_mem _ h)

theorem eq_of_equal_chain? {next result : BinaryOp} :
    (equal.chain? next = some result → result = next) ∧
      (next.chain? equal = some result → result = next) := by
  cases next <;> simp [chain?, eq_comm]

/-- The orders that two comparisons in a chain admit make one that the resulting comparison admits.
-/
theorem admits_then {next result : BinaryOp} {o o' : Ordering} (h : op.chain? next = some result)
    (hop : op.admits (some o) = true) (hnext : next.admits (some o') = true) :
    (o = o' ∨ o = .eq ∨ o' = .eq) ∧ result.admits (some (o.then o')) = true := by
  unfold chain? at h
  split at h <;> cases h <;> cases o <;> cases o' <;> simp_all [admits, holds]

theorem apply_of_order?_eq_none (hop : op ∈ orderings) (h : left.order? right = none) :
    op.apply left right = .error (.invalidOperands op left.kind right.kind) := by
  rw [apply_of_mem_orderings hop, h]

/-- Where one of these comparisons answers yes, the values are in an order that it admits, or they
are one and the same. -/
theorem Holds.order_or_eq (h : op.Holds left right) (hop : op ∈ equal :: orderings) :
    (∃ order, left.order? right = some (some order) ∧ op.admits (some order) = true) ∨
      op = equal ∧ left = right := by
  cases horder : left.order? right with
  | some order =>
      rw [Holds, apply_of_order? (mem_comparisons hop) horder] at h
      have hadmits : op.admits order = true := by simpa using h
      cases order with
      | some order => exact .inl ⟨order, rfl, hadmits⟩
      | none =>
          rcases eq_of_mem_cons_orderings hop with rfl | rfl | rfl | rfl | rfl <;> cases hadmits
  | none =>
      rcases List.mem_cons.mp hop with rfl | hop
      · refine .inr ⟨rfl, Value.eq_of_equals? horder ?_⟩
        cases hequals : left.equals? right <;> simp only [Holds, apply, hequals] at h <;> cases h
        rfl
      · rw [Holds, apply_of_order?_eq_none hop horder] at h
        cases h

/-- Comparisons follow from one another along a chain of values. -/
theorem Holds.chain {next result : BinaryOp} (hchain : op.chain? next = some result)
    (h : op.Holds first second) (h' : next.Holds second third) : result.Holds first third := by
  obtain ⟨hop, hnext, hresult⟩ := mem_of_chain? hchain
  rcases h.order_or_eq hop with ⟨order, horder, hadmits⟩ | ⟨rfl, rfl⟩
  · rcases h'.order_or_eq hnext with ⟨order', horder', hadmits'⟩ | ⟨rfl, rfl⟩
    · obtain ⟨hsame, hadmitted⟩ := admits_then hchain hadmits hadmits'
      rw [Holds, apply_of_order? (mem_comparisons hresult)
        (Value.order?_then horder horder' hsame), hadmitted]
    · rwa [eq_of_equal_chain?.2 hchain]
  · rwa [eq_of_equal_chain?.1 hchain]

end BinaryOp

namespace Value

open BinaryOp

/-- What the comparisons of three values have to do with one another. -/
structure Coherent (first second third : Value) : Prop where
  /-- `==` and `!=` are answered with opposites or refused, and refused together. -/
  opposite : (∃ same, equal.apply first second = .ok (.bool same) ∧
      notEqual.apply first second = .ok (.bool !same)) ∨
    equal.apply first second = .error (.invalidOperands equal first.kind second.kind) ∧
      notEqual.apply first second = .error (.invalidOperands notEqual first.kind second.kind)
  /-- The four orderings are answered together and refused together. -/
  uniform : (∀ op ∈ orderings, ∃ answer, op.apply first second = .ok (.bool answer)) ∨
    ∀ op ∈ orderings,
      op.apply first second = .error (.invalidOperands op first.kind second.kind)
  /-- Exactly one of `<`, `==` and `>` holds, and the other orderings go by these. -/
  total : first.IsOrdered second → ∃ below same above : Bool,
    [below, same, above].count true = 1 ∧
      less.apply first second = .ok (.bool below) ∧
      equal.apply first second = .ok (.bool same) ∧
      greater.apply first second = .ok (.bool above) ∧
      lessOrEqual.apply first second = .ok (.bool (below || same)) ∧
      greaterOrEqual.apply first second = .ok (.bool (above || same)) ∧
      greater.apply second first = .ok (.bool below)
  /-- What is not a number is unlike all numbers and in no order with them. -/
  unordered : first.number?.isSome = true → second.number?.isSome = true →
    first.IsNaN ∨ second.IsNaN →
      notEqual.apply first second = .ok (.bool true) ∧
        ∀ op ∈ equal :: orderings, op.apply first second = .ok (.bool false)
  /-- It does not matter which of two values is on the left of `==`. -/
  symmetric : ∀ answer, equal.apply first second = .ok answer ↔
    equal.apply second first = .ok answer
  /-- Comparisons follow from one another, as `a < c` from `a == b` and `b < c`. -/
  chain : ∀ op next result : BinaryOp, op.chain? next = some result → op.Holds first second →
    next.Holds second third → result.Holds first third
  /-- Strings are in the order of the code points of their characters. -/
  strings : ∀ s t, first = string s → second = string t →
    (less.Holds first second ↔ s.toList.map Char.toNat < t.toList.map Char.toNat)

/-- The comparisons of any three values form one coherent order. -/
theorem coherent (first second third : Value) : Coherent first second third where
  opposite := by
    cases h : first.equals? second with
    | some same => exact .inl ⟨same, by simp only [apply, h]; rfl, by simp only [apply, h]; rfl⟩
    | none => exact .inr ⟨by simp only [apply, h], by simp only [apply, h]⟩
  uniform := by
    cases h : first.order? second with
    | some order =>
        exact .inl fun op hop => ⟨_, apply_of_order? (mem_comparisons (.tail _ hop)) h⟩
    | none => exact .inr fun op hop => apply_of_order?_eq_none hop h
  total h := by
    obtain ⟨order, horder⟩ := h.exists_order
    have happly {op : BinaryOp} (hop : op ∈ comparisons) := apply_of_order? hop horder
    refine ⟨order == .lt, order == .eq, order == .gt, by cases order <;> rfl, ?_⟩
    refine ⟨?_, ?_, ?_, ?_, ?_, ?_⟩
    case refine_6 =>
      rw [apply_of_order? (by decide) (order?_swap horder)]
      cases order <;> rfl
    all_goals
      rw [happly (by decide)]
      cases order <;> rfl
  unordered hfirst hsecond hnan := by
    have horder := order?_of_isNaN hfirst hsecond hnan
    refine ⟨apply_of_order? (by decide) horder, fun op hop => ?_⟩
    rw [apply_of_order? (mem_comparisons hop) horder]
    rcases eq_of_mem_cons_orderings hop with rfl | rfl | rfl | rfl | rfl <;> rfl
  symmetric answer := by
    have hcomm := equals?_comm first second
    cases h : first.equals? second <;> rw [h] at hcomm <;>
      simp only [apply, h, ← hcomm, reduceCtorEq]
  chain op next result hchain h h' := h.chain hchain h'
  strings := by
    rintro s t rfl rfl
    rw [← compare_eq_lt_iff, Holds, apply_of_order? (by decide) rfl]
    simp [admits, holds]

end Value

end ExprLang
