import ExprLang.Proofs.Evaluation.Literals
import ExprLang.Proofs.Evaluation.Order
import ExprLang.Proofs.Evaluation.Outcome

/-!
# Integers without wrapping

An operation on integers answers the exact result or fails. So an arithmetic expression, however
deep it is, either answers what it has as its value over unbounded integers, or fails for a part of
it that has no result in the range.
-/

namespace ExprLang

namespace Integer

variable {n : Int} {i : Int64} {symbol : String} {result : Except RuntimeError Value}

/-- A number of the range of the integers. -/
def InRange (n : Int) : Prop :=
  Int64.minValue.toInt ≤ n ∧ n ≤ Int64.maxValue.toInt

instance : DecidablePred InRange := fun n =>
  inferInstanceAs (Decidable (Int64.minValue.toInt ≤ n ∧ n ≤ Int64.maxValue.toInt))

theorem inRange_toInt (i : Int64) : InRange i.toInt :=
  ⟨i.minValue_le_toInt, i.toInt_le⟩

theorem fits_iff_inRange : fits n = true ↔ InRange n := by
  simp only [fits, InRange, Int64.toInt_minValue, Int64.toInt_maxValue, Bool.and_eq_true,
    decide_eq_true_eq]
  omega

theorem exists_of_inRange (h : InRange n) : ∃ i : Int64, i.toInt = n ∧ ofInt? n = some i := by
  have hofInt : ofInt? n = some (.ofInt n) := if_pos (fits_iff_inRange.mpr h)
  exact ⟨_, ofInt?_eq_some_iff.mp hofInt, hofInt⟩

theorem ofInt?_eq_none (h : ¬ InRange n) : ofInt? n = none :=
  if_neg fun hfits => h (fits_iff_inRange.mp hfits)

/-- An operation answers its exact result where that is in the range, and overflows elsewhere. -/
structure IsExact (result : Except RuntimeError Value) (symbol : String) (exact : Int) : Prop where
  of_inRange : InRange exact → ∃ i : Int64, i.toInt = exact ∧ result = .ok (.int i)
  of_not_inRange : ¬ InRange exact → result = .error (.overflow symbol)

theorem IsExact.eq_ok_iff {exact : Int} {value : Value} (h : IsExact result symbol exact) :
    result = .ok value ↔ ∃ i : Int64, i.toInt = exact ∧ value = .int i := by
  constructor
  · rintro rfl
    by_cases hin : InRange exact
    · obtain ⟨i, hi, hvalue⟩ := h.of_inRange hin
      cases hvalue
      exact ⟨i, hi, rfl⟩
    · cases h.of_not_inRange hin
  · rintro ⟨i, rfl, rfl⟩
    obtain ⟨j, hj, hresult⟩ := h.of_inRange (inRange_toInt i)
    rw [hresult, Int64.toInt_inj.mp hj]

/-- A quotient is in the range, with one exception. -/
theorem inRange_tdiv {a b : Int64} (hb : b.toInt ≠ 0)
    (hne : ¬ (a.toInt = Int64.minValue.toInt ∧ b.toInt = -1)) :
    InRange (a.toInt.tdiv b.toInt) := by
  have ha := inRange_toInt a
  simp only [InRange, Int64.toInt_minValue, Int64.toInt_maxValue] at ha hne ⊢
  obtain hone | htwo : b.toInt.natAbs = 1 ∨ 2 ≤ b.toInt.natAbs := by omega
  · rcases Int.natAbs_eq_iff.mp hone with hone | hone <;> rw [hone]
    · rw [Int.natCast_one, Int.tdiv_one]
      exact ha
    · rw [Int.natCast_one, Int.tdiv_neg, Int.tdiv_one]
      omega
  · have hhalf : (a.toInt.tdiv b.toInt).natAbs ≤ a.toInt.natAbs / 2 := by
      rw [Int.natAbs_tdiv]
      exact Nat.div_le_div_left htwo (by decide)
    omega

theorem natAbs_tmod_lt (a : Int) {b : Int} (hb : b ≠ 0) : (a.tmod b).natAbs < b.natAbs := by
  rw [Int.natAbs_tmod]
  exact Nat.mod_lt _ (Int.natAbs_pos.mpr hb)

/-- A remainder is in the range. -/
theorem inRange_tmod {a b : Int64} (hb : b.toInt ≠ 0) : InRange (a.toInt.tmod b.toInt) := by
  have hdivisor := inRange_toInt b
  have hlt := natAbs_tmod_lt a.toInt hb
  simp only [InRange, Int64.toInt_minValue, Int64.toInt_maxValue] at hdivisor ⊢
  omega

end Integer

open Integer

/-! ## Operations -/

namespace BinaryOp

variable {op : BinaryOp} {a b : Int64}

/-- The operators that calculate with integers. -/
def arithmetics : List BinaryOp :=
  [add, subtract, multiply, divide, modulo]

theorem eq_of_mem_arithmetics (h : op ∈ arithmetics) :
    op = add ∨ op = subtract ∨ op = multiply ∨ op = divide ∨ op = modulo := by
  simpa [arithmetics] using h

/-- The result over unbounded integers. A quotient is cut off towards zero, and there is none of a
division by zero. -/
def unbounded? : BinaryOp → Int → Int → Option Int
  | add, a, b => some (a + b)
  | subtract, a, b => some (a - b)
  | multiply, a, b => some (a * b)
  | divide, a, b => if b = 0 then none else some (a.tdiv b)
  | modulo, a, b => if b = 0 then none else some (a.tmod b)
  | _, _, _ => none

/-- The operator whose result has to be in the range. A remainder goes with its quotient. -/
def ranged : BinaryOp → BinaryOp
  | modulo => divide
  | op => op

/-- An operator that does not divide by zero has a result over unbounded integers, and answers it
where all that has to be in the range is there. -/
theorem exists_results (hop : op ∈ arithmetics) (a : Int64) (h : op.divides = true → b.toInt ≠ 0) :
    ∃ m n, op.ranged.unbounded? a.toInt b.toInt = some m ∧
      op.unbounded? a.toInt b.toInt = some n ∧ (InRange m → InRange n) ∧
      op.onIntegers? a.toInt b.toInt = (ofInt? m).bind fun _ => ofInt? n := by
  have hsame (m : Int) : ofInt? m = (ofInt? m).bind fun _ => ofInt? m := by
    cases h : ofInt? m <;> rfl
  rcases eq_of_mem_arithmetics hop with rfl | rfl | rfl | rfl | rfl
  case inr.inr.inr.inl => exact ⟨_, _, if_neg (h rfl), if_neg (h rfl), id, hsame _⟩
  case inr.inr.inr.inr =>
    exact ⟨_, _, if_neg (h rfl), if_neg (h rfl), fun _ => inRange_tmod (h rfl), rfl⟩
  all_goals exact ⟨_, _, rfl, rfl, id, hsame _⟩

theorem apply_ints (hop : op ∈ arithmetics) (a b : Int64) :
    op.apply (.int a) (.int b) = op.arithmetic (.ints a b) := by
  rcases eq_of_mem_arithmetics hop with rfl | rfl | rfl | rfl | rfl <;> rfl

/-- What an operator can do with two integers. -/
theorem apply_cases (hop : op ∈ arithmetics) (a b : Int64) :
    (op.divides = true ∧ b.toInt = 0 ∧
      op.apply (.int a) (.int b) = .error .divisionByZero) ∨
    (∃ m, op.ranged.unbounded? a.toInt b.toInt = some m ∧ ¬ InRange m ∧
      op.apply (.int a) (.int b) = .error (.overflow op.symbol)) ∨
    ∃ m i, op.ranged.unbounded? a.toInt b.toInt = some m ∧ InRange m ∧
      op.unbounded? a.toInt b.toInt = some i.toInt ∧ op.apply (.int a) (.int b) = .ok (.int i) := by
  rw [apply_ints hop, arithmetic]
  split
  next hzero =>
    obtain ⟨hdivides, hb⟩ := Bool.and_eq_true_iff.mp hzero
    exact .inl ⟨hdivides, congrArg Int64.toInt (eq_of_beq hb), rfl⟩
  next hzero =>
    have hdivisor : op.divides = true → b.toInt ≠ 0 := fun hdivides hb =>
      hzero (Bool.and_eq_true_iff.mpr ⟨hdivides, beq_iff_eq.mpr (Int64.toInt_inj.mp hb)⟩)
    obtain ⟨m, n, hm, hn, hrange, hresult⟩ := exists_results hop a hdivisor
    rw [hresult]
    by_cases hin : InRange m
    · obtain ⟨j, -, hj⟩ := exists_of_inRange hin
      obtain ⟨i, rfl, hi⟩ := exists_of_inRange (hrange hin)
      rw [hj, Option.bind_some, hi]
      exact .inr (.inr ⟨m, i, hm, hin, hn, rfl⟩)
    · rw [ofInt?_eq_none hin]
      exact .inr (.inl ⟨m, hm, hin, rfl⟩)

theorem unbounded?_divide {a b m : Int} (h : divide.unbounded? a b = some m) :
    b ≠ 0 ∧ m = a.tdiv b := by
  rw [unbounded?] at h
  split at h <;> cases h
  next hb => exact ⟨hb, rfl⟩

/-- What a division can do with two integers. -/
theorem apply_division (hop : op ∈ [divide, modulo]) (a b : Int64) :
    (b = 0 ∧ op.apply (.int a) (.int b) = .error .divisionByZero) ∨
    (b ≠ 0 ∧ ¬ InRange (a.toInt.tdiv b.toInt) ∧
      op.apply (.int a) (.int b) = .error (.overflow op.symbol)) ∨
    ∃ i, b ≠ 0 ∧ InRange (a.toInt.tdiv b.toInt) ∧ op.unbounded? a.toInt b.toInt = some i.toInt ∧
      op.apply (.int a) (.int b) = .ok (.int i) := by
  have hmem : op ∈ arithmetics ∧ op.ranged = divide := by
    rcases List.mem_cons.mp hop with rfl | hop
    · exact ⟨by decide, rfl⟩
    · rw [List.mem_singleton.mp hop]
      exact ⟨by decide, rfl⟩
  have hzero : b.toInt = 0 ↔ b = 0 := Int64.toInt_inj (y := 0)
  have hcases := apply_cases hmem.1 a b
  rw [hmem.2] at hcases
  rcases hcases with ⟨-, hb, happly⟩ | ⟨m, hm, hout, happly⟩ | ⟨m, i, hm, hin, hi, happly⟩
  · exact .inl ⟨hzero.mp hb, happly⟩
  · obtain ⟨hb, rfl⟩ := unbounded?_divide hm
    exact .inr (.inl ⟨fun h => hb (hzero.mpr h), hout, happly⟩)
  · obtain ⟨hb, rfl⟩ := unbounded?_divide hm
    exact .inr (.inr ⟨i, fun h => hb (hzero.mpr h), hin, hi, happly⟩)

/-- A division has a result, with two exceptions. -/
theorem exists_division (hop : op ∈ [divide, modulo]) (hb : b ≠ 0)
    (hne : ¬ (a = .minValue ∧ b = -1)) :
    ∃ i : Int64, op.unbounded? a.toInt b.toInt = some i.toInt ∧
      op.apply (.int a) (.int b) = .ok (.int i) := by
  have hzero : b.toInt ≠ 0 := fun h => hb (Int64.toInt_inj.mp h)
  have hin : InRange (a.toInt.tdiv b.toInt) :=
    inRange_tdiv hzero fun h => hne ⟨Int64.toInt_inj.mp h.1, Int64.toInt_inj.mp h.2⟩
  rcases apply_division hop a b with ⟨h, -⟩ | ⟨-, hout, -⟩ | ⟨i, -, -, hi, happly⟩
  · exact absurd h hb
  · exact absurd hin hout
  · exact ⟨i, hi, happly⟩

/-- The operators whose results themselves have to be in the range are exact. -/
theorem isExact_apply {n : Int} (hop : op ∈ arithmetics) (hdivides : op.divides = false)
    (hranged : op.ranged.unbounded? a.toInt b.toInt = some n)
    (h : op.unbounded? a.toInt b.toInt = some n) :
    IsExact (op.apply (.int a) (.int b)) op.symbol n := by
  rcases apply_cases hop a b with ⟨hdiv, -⟩ | ⟨m, hm, hout, happly⟩ | ⟨m, i, hm, hin, hi, happly⟩
  · cases hdivides.symm.trans hdiv
  · obtain rfl : n = m := Option.some_inj.mp (hranged.symm.trans hm)
    exact ⟨fun hin => absurd hin hout, fun _ => happly⟩
  · obtain rfl : n = m := Option.some_inj.mp (hranged.symm.trans hm)
    exact ⟨fun _ => ⟨i, (Option.some_inj.mp (h.symm.trans hi)).symm, happly⟩, absurd hin⟩

end BinaryOp

namespace UnaryOp

variable {op : UnaryOp}

theorem isExact_negate (a : Int64) : IsExact (negate.apply (.int a)) "-" (-a.toInt) where
  of_inRange h := by
    obtain ⟨i, hi, hofInt⟩ := exists_of_inRange h
    exact ⟨i, hi, by simp only [apply, hofInt]⟩
  of_not_inRange h := by
    simp only [apply, ofInt?_eq_none h]
    rfl

theorem isExact_stepped (op : UnaryOp) (a : Int64) :
    IsExact (op.stepped (.int a)) op.symbol (a.toInt + op.step) where
  of_inRange h := by
    obtain ⟨i, hi, hofInt⟩ := exists_of_inRange h
    exact ⟨i, hi, by simp only [stepped, hofInt]⟩
  of_not_inRange h := by simp only [stepped, ofInt?_eq_none h]

end UnaryOp

/-- What the operators do with integers. -/
structure Integer.NeverWraps (a b : Int64) : Prop where
  add : IsExact (BinaryOp.add.apply (.int a) (.int b)) "+" (a.toInt + b.toInt)
  subtract : IsExact (BinaryOp.subtract.apply (.int a) (.int b)) "-" (a.toInt - b.toInt)
  multiply : IsExact (BinaryOp.multiply.apply (.int a) (.int b)) "*" (a.toInt * b.toInt)
  byZero : ∀ op ∈ [BinaryOp.divide, .modulo],
    (op.apply (.int a) (.int b) = .error .divisionByZero ↔ b = 0)
  overflow : a = .minValue → b = -1 → ∀ op ∈ [BinaryOp.divide, .modulo],
    op.apply (.int a) (.int b) = .error (.overflow op.symbol)
  /-- The quotient is cut off towards zero, and the remainder is smaller than the divisor and has
  the sign of the dividend. -/
  quotient : b ≠ 0 → ¬ (a = .minValue ∧ b = -1) → ∃ q r : Int64,
    BinaryOp.divide.apply (.int a) (.int b) = .ok (.int q) ∧
      BinaryOp.modulo.apply (.int a) (.int b) = .ok (.int r) ∧
      q.toInt = a.toInt.tdiv b.toInt ∧ a.toInt = q.toInt * b.toInt + r.toInt ∧
      r.toInt.natAbs < b.toInt.natAbs ∧ (r ≠ 0 → r.toInt.sign = a.toInt.sign)
  negate : IsExact (UnaryOp.negate.apply (.int a)) "-" (-a.toInt)
  increment : ∀ op ∈ [UnaryOp.incrementBefore, .incrementAfter],
    IsExact (op.stepped (.int a)) "++" (a.toInt + 1)
  decrement : ∀ op ∈ [UnaryOp.decrementBefore, .decrementAfter],
    IsExact (op.stepped (.int a)) "--" (a.toInt - 1)
  /-- A step of an integer that is read at a place stores the exact result, or overflows before
  anything is stored. -/
  step : ∀ (op : UnaryOp) (place : Place) (machine now : Machine),
    place.read.run machine = .ok (.int a) now →
      (InRange (a.toInt + op.step) → ∃ i : Int64, i.toInt = a.toInt + op.step ∧
        ∀ next, (place.write (.int i)).run now = .ok () next →
          (place.step op).run machine = .ok (if op.isAfter then .int a else .int i) next) ∧
      (¬ InRange (a.toInt + op.step) →
        (place.step op).run machine = .error (.overflow op.symbol) now)

theorem Integer.neverWraps (a b : Int64) : NeverWraps a b where
  add := BinaryOp.isExact_apply (by decide) rfl rfl rfl
  subtract := BinaryOp.isExact_apply (by decide) rfl rfl rfl
  multiply := BinaryOp.isExact_apply (by decide) rfl rfl rfl
  byZero op hop := by
    rcases BinaryOp.apply_division hop a b with h | ⟨hb, -, happly⟩ | ⟨i, hb, -, -, happly⟩
    · exact ⟨fun _ => h.1, fun _ => h.2⟩
    · simp [happly, hb]
    · simp [happly, hb]
  overflow := by
    rintro rfl rfl op hop
    rcases BinaryOp.apply_division hop .minValue (-1) with ⟨hb, -⟩ | ⟨-, -, happly⟩ | ⟨i, -, hin, -⟩
    · cases hb
    · exact happly
    · exact absurd hin (by decide)
  quotient hb hne := by
    have hzero : b.toInt ≠ 0 := fun h => hb (Int64.toInt_inj.mp h)
    obtain ⟨q, hq, hdivide⟩ := BinaryOp.exists_division (.head _) hb hne
    obtain ⟨r, hr, hmodulo⟩ := BinaryOp.exists_division (.tail _ (.head _)) hb hne
    have hq : q.toInt = a.toInt.tdiv b.toInt := Option.some_inj.mp (hq.symm.trans (if_neg hzero))
    have hr : r.toInt = a.toInt.tmod b.toInt := Option.some_inj.mp (hr.symm.trans (if_neg hzero))
    refine ⟨q, r, hdivide, hmodulo, hq, ?_, ?_, fun hne => ?_⟩
    · rw [hq, hr, Int.tdiv_mul_add_tmod]
    · rw [hr]
      exact natAbs_tmod_lt a.toInt hzero
    · have hrest : ¬ b.toInt ∣ a.toInt := fun hdvd =>
        hne (Int64.toInt_inj.mp (hr.trans (Int.tmod_eq_zero_of_dvd hdvd)))
      rw [hr, Int.sign_tmod, if_neg hrest]
  negate := UnaryOp.isExact_negate a
  increment := List.forall_mem_cons.mpr
    ⟨UnaryOp.isExact_stepped _ a, List.forall_mem_singleton.mpr (UnaryOp.isExact_stepped _ a)⟩
  decrement := List.forall_mem_cons.mpr
    ⟨UnaryOp.isExact_stepped _ a, List.forall_mem_singleton.mpr (UnaryOp.isExact_stepped _ a)⟩
  step op place machine now hread := by
    have hexact := UnaryOp.isExact_stepped op a
    rw [Place.run_step hread]
    refine ⟨fun hin => ?_, fun hout => ?_⟩
    · obtain ⟨i, hi, hstepped⟩ := hexact.of_inRange hin
      rw [hstepped]
      exact ⟨i, hi, fun next hwrite => EvalM.run_bind_of_ok hwrite _⟩
    · rw [hexact.of_not_inRange hout]
      rfl

/-! ## Expressions -/

/-- The number that an integer is. -/
def Value.integer? : Value → Option Int
  | int n => some n.toInt
  | _ => none

namespace Expr

/-- An expression that calculates with integers. Its variables have integers as their values where
they have values. -/
inductive IsArithmetic (environment : Environment) : Expr → Prop
  | constant (text : String) : IsArithmetic environment (.constant .int text)
  | var {name : String}
      (h : ∀ value, environment.get? name = some value → ∃ n, value = .int n) :
      IsArithmetic environment (.var name)
  | group {inner : Expr} (h : IsArithmetic environment inner) :
      IsArithmetic environment (.group inner)
  | plus {operand : Expr} (h : IsArithmetic environment operand) :
      IsArithmetic environment (.unary .plus operand)
  | negate {operand : Expr} (h : IsArithmetic environment operand) :
      IsArithmetic environment (.unary .negate operand)
  | binary {op : BinaryOp} {left right : Expr} (hop : op ∈ BinaryOp.arithmetics)
      (hleft : IsArithmetic environment left) (hright : IsArithmetic environment right) :
      IsArithmetic environment (.binary op left right)

/-- The value of an arithmetic expression over unbounded integers. -/
def unbounded? (environment : Environment) : Expr → Option Int
  | constant _ text => Integer.numeral? text.toList
  | var name => (environment.get? name).bind Value.integer?
  | group inner => inner.unbounded? environment
  | unary .plus operand => operand.unbounded? environment
  | unary .negate operand => (operand.unbounded? environment).map (- ·)
  | binary op left right => do
    op.unbounded? (← left.unbounded? environment) (← right.unbounded? environment)
  | _ => none

/-- What keeps an arithmetic expression from having a value, although its operands have values. -/
inductive Fault (environment : Environment) : Expr → RuntimeError → Prop
  | literal {text : String} (h : ∀ n ∈ Integer.numeral? text.toList, ¬ InRange n) :
      Fault environment (.constant .int text) (.invalidLiteral .int text)
  | unknown {name : String} (h : environment.scopes.find? name = none) :
      Fault environment (.var name) (.unknownVariable name)
  | uninitialized {name : String} {kind : DeclarationKind}
      (h : environment.scopes.find? name = some ⟨kind, none⟩) :
      Fault environment (.var name) (.uninitialized name)
  | negate {operand : Expr} {n : Int} (hoperand : operand.unbounded? environment = some n)
      (h : ¬ InRange (-n)) : Fault environment (.unary .negate operand) (.overflow "-")
  | byZero {op : BinaryOp} {left right : Expr} (hop : op.divides = true)
      (h : right.unbounded? environment = some 0) :
      Fault environment (.binary op left right) .divisionByZero
  | overflow {op : BinaryOp} {left right : Expr} {a b n : Int} (hop : op ∈ BinaryOp.arithmetics)
      (hleft : left.unbounded? environment = some a)
      (hright : right.unbounded? environment = some b)
      (hresult : op.ranged.unbounded? a b = some n) (h : ¬ InRange n) :
      Fault environment (.binary op left right) (.overflow op.symbol)

/-- An evaluation that leaves the machine as it is and answers the value over unbounded integers, or
else fails for a fault of a part. -/
inductive EvaluatesExactly (mode : LogicMode) (machine : Machine) (expr : Expr) : Prop
  | value (i : Int64) (hrun : (expr.evaluate mode).run machine = .ok (.int i) machine)
      (hvalue : expr.unbounded? machine.environment = some i.toInt)
  | failure (error : RuntimeError) (part : Expr)
      (hrun : (expr.evaluate mode).run machine = .error error machine)
      (hpart : expr.Contains part) (hfault : part.Fault machine.environment error)

variable {mode : LogicMode} {machine : Machine} {expr : Expr}

theorem evaluatesExactly_constant (text : String) :
    (constant .int text).EvaluatesExactly mode machine := by
  have hvalue : LiteralKind.int.value text =
      (((Integer.numeral? text.toList).bind Integer.ofInt?).map Value.int).elim
        (.error (.invalidLiteral .int text)) .ok := by
    rw [LiteralKind.value, Integer.toOption_read?]
    cases (Integer.numeral? text.toList).bind Integer.ofInt? <;> rfl
  by_cases h : ∃ n ∈ Integer.numeral? text.toList, InRange n
  · obtain ⟨n, hn, hin⟩ := h
    obtain ⟨i, rfl, hi⟩ := exists_of_inRange hin
    refine .value i ?_ hn
    rw [evaluate, hvalue, hn, Option.bind_some, hi]
    rfl
  · have hout : ∀ n ∈ Integer.numeral? text.toList, ¬ InRange n := fun n hn hin => h ⟨n, hn, hin⟩
    refine .failure _ _ ?_ (.refl _) (.literal hout)
    have hnone : (Integer.numeral? text.toList).bind Integer.ofInt? = none :=
      Option.bind_eq_none_iff.mpr fun n hn => ofInt?_eq_none (hout n hn)
    rw [evaluate, hvalue, hnone]
    rfl

theorem evaluatesExactly_var {name : String}
    (h : ∀ value, machine.environment.get? name = some value → ∃ n, value = .int n) :
    (var name).EvaluatesExactly mode machine := by
  have hrun : ((var name).evaluate mode).run machine =
      (EvalM.ofExcept (machine.environment.lookup name)).run machine := by
    rw [evaluate, Place.run_read Place.isPlain_var, Place.current]
  rw [Environment.lookup] at hrun
  split at hrun
  next kind value hfind =>
    have hget : machine.environment.get? name = some value := by
      rw [Environment.get?, hfind, Option.bind_some]
    obtain ⟨i, rfl⟩ := h value hget
    refine .value i hrun ?_
    rw [unbounded?, hget]
    rfl
  next hfind => exact .failure _ _ hrun (.refl _) (.uninitialized hfind)
  next hfind => exact .failure _ _ hrun (.refl _) (.unknown hfind)

theorem evaluatesExactly_negate {operand : Expr} (h : operand.EvaluatesExactly mode machine) :
    (unary .negate operand).EvaluatesExactly mode machine := by
  rcases h with ⟨i, hrun, hvalue⟩ | ⟨error, part, hrun, hpart, hfault⟩
  · have hbind := EvalM.run_bind_of_ok hrun fun value =>
      EvalM.ofExcept (UnaryOp.negate.apply value)
    have hexact := UnaryOp.isExact_negate i
    by_cases hin : InRange (-i.toInt)
    · obtain ⟨j, hj, happly⟩ := hexact.of_inRange hin
      rw [happly] at hbind
      refine .value j hbind ?_
      rw [unbounded?, hvalue, hj]
      rfl
    · rw [hexact.of_not_inRange hin] at hbind
      exact .failure _ _ hbind (.refl _) (.negate hvalue hin)
  · have hbind := EvalM.run_bind_of_error hrun fun value =>
      EvalM.ofExcept (UnaryOp.negate.apply value)
    exact .failure error part hbind (.operand List.mem_cons_self hpart) hfault

theorem evaluatesExactly_binary {op : BinaryOp} {left right : Expr}
    (hop : op ∈ BinaryOp.arithmetics) (hleft : left.EvaluatesExactly mode machine)
    (hright : right.EvaluatesExactly mode machine) :
    (binary op left right).EvaluatesExactly mode machine := by
  have heval : (binary op left right).evaluate mode = left.evaluate mode >>= fun first =>
      right.evaluate mode >>= fun second => EvalM.ofExcept (op.apply first second) := by
    rcases BinaryOp.eq_of_mem_arithmetics hop with rfl | rfl | rfl | rfl | rfl <;> rfl
  rcases hleft with ⟨a, hrun, ha⟩ | ⟨error, part, hrun, hpart, hfault⟩
  case failure =>
    refine .failure error part ?_ (.operand List.mem_cons_self hpart) hfault
    rw [heval, EvalM.run_bind_of_error hrun]
  rcases hright with ⟨b, hrun', hb⟩ | ⟨error, part, hrun', hpart, hfault⟩
  case failure =>
    refine .failure error part ?_
      (.operand (List.mem_cons_of_mem _ List.mem_cons_self) hpart) hfault
    rw [heval, EvalM.run_bind_of_ok hrun, EvalM.run_bind_of_error hrun']
  have hboth : ((binary op left right).evaluate mode).run machine =
      (EvalM.ofExcept (op.apply (.int a) (.int b))).run machine := by
    rw [heval, EvalM.run_bind_of_ok hrun, EvalM.run_bind_of_ok hrun']
  rcases BinaryOp.apply_cases hop a b with
    ⟨hdivides, hzero, happly⟩ | ⟨n, hn, hout, happly⟩ | ⟨-, i, -, -, hi, happly⟩
  · rw [happly] at hboth
    exact .failure _ _ hboth (.refl _) (.byZero hdivides (hb.trans (congrArg some hzero)))
  · rw [happly] at hboth
    exact .failure _ _ hboth (.refl _) (.overflow hop ha hb hn hout)
  · rw [happly] at hboth
    refine .value i hboth ?_
    rw [unbounded?, ha, hb]
    exact hi

/-- An arithmetic expression is evaluated exactly, or fails for a fault of a part of it. -/
theorem IsArithmetic.evaluatesExactly (h : expr.IsArithmetic machine.environment) :
    expr.EvaluatesExactly mode machine := by
  induction h with
  | constant text => exact evaluatesExactly_constant text
  | var h => exact evaluatesExactly_var h
  | group h ih =>
      rcases ih with ⟨i, hrun, hvalue⟩ | ⟨error, part, hrun, hpart, hfault⟩
      · exact .value i hrun hvalue
      · exact .failure error part hrun (.operand List.mem_cons_self hpart) hfault
  | plus h ih =>
      rcases ih with ⟨i, hrun, hvalue⟩ | ⟨error, part, hrun, hpart, hfault⟩
      · exact .value i (EvalM.run_bind_of_ok hrun _) hvalue
      · exact .failure error part (EvalM.run_bind_of_error hrun _)
          (.operand List.mem_cons_self hpart) hfault
  | negate h ih => exact evaluatesExactly_negate ih
  | binary hop hleft hright ihleft ihright => exact evaluatesExactly_binary hop ihleft ihright

/-- Operators on integers never wrap, and whole arithmetic expressions do not either. -/
theorem exact_arithmetic :
    (∀ a b : Int64, Integer.NeverWraps a b) ∧
      ∀ (mode : LogicMode) (machine : Machine) (expr : Expr),
        expr.IsArithmetic machine.environment → expr.EvaluatesExactly mode machine :=
  ⟨Integer.neverWraps, fun _ _ _ => IsArithmetic.evaluatesExactly⟩

/-- A sum of a product and a literal. -/
theorem exact_arithmetic_sum :
    let machine := Machine.ofEnvironment (Environment.empty.define "x" (.int 5))
    let expr : Expr :=
      .binary .add (.unary .negate (.group (.binary .multiply (.var "x") (.constant .int "3"))))
        (.constant .int "4")
    expr.IsArithmetic machine.environment ∧ expr.unbounded? machine.environment = some (-11) ∧
      expr.EvaluatesExactly .eager machine := by
  intro machine expr
  have hvar (value : Value) (h : machine.environment.get? "x" = some value) :
      ∃ n, value = .int n := ⟨5, (Option.some_inj.mp h).symm⟩
  have harithmetic : expr.IsArithmetic machine.environment :=
    .binary (by decide)
      (.negate (.group (.binary (by decide) (.var hvar) (.constant "3")))) (.constant "4")
  exact ⟨harithmetic, rfl, exact_arithmetic.2 .eager machine expr harithmetic⟩

/-- The least integer cannot be written: its digits are read before they are negated. -/
example (machine : Machine) :
    ((unary .negate (constant .int "9223372036854775808")).evaluate .eager).run machine =
      .error (.invalidLiteral .int "9223372036854775808") machine := by
  rfl

end Expr

end ExprLang
