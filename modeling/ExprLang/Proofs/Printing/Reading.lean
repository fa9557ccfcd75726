import ExprLang.Proofs.Grammar.Soundness
import ExprLang.Proofs.Printing.Leading
import ExprLang.Proofs.Printing.Words

/-!
# Reading the words of an expression

The parser gets through the words of an expression of the grammar's shape exactly if as many levels
are left as the expression needs, whatever comes after the words as long as it cannot be taken for
a part of the expression.
-/

namespace ExprLang

open Grammar TokenStream

namespace Grammar

/-! ## What can follow -/

/-- No suffix, no call and no operator after its operand begins with the token. -/
structure EndsOperand (kind : Token.Kind) : Prop where
  ne_leftParen : kind ≠ .leftParen
  ne_leftBracket : kind ≠ .leftBracket
  ne_dot : kind ≠ .dot
  after?_eq_none : UnaryOp.after? kind = none

/-- A condition with its branches cannot go on with the token. -/
structure EndsTernary (kind : Token.Kind) : Prop extends EndsOperand kind where
  stops : Stops 0 kind
  ne_question : kind ≠ .question

/-- No expression can go on with the token. -/
structure EndsAssignment (kind : Token.Kind) : Prop extends EndsTernary kind where
  ofToken?_eq_none : AssignOp.ofToken? kind = none

variable {follower : Token.Kind} {floor : Nat}

theorem EndsOperand.of_binary {op : BinaryOp} (h : BinaryOp.ofToken? follower = some op) :
    EndsOperand follower := by
  cases follower <;> first | exact ⟨by decide, by decide, by decide, rfl⟩ | cases h

theorem EndsTernary.of_assign {op : AssignOp} (h : AssignOp.ofToken? follower = some op) :
    EndsTernary follower := by
  cases follower <;>
    first | exact ⟨⟨by decide, by decide, by decide, rfl⟩, .of_eq_none rfl, by decide⟩ | cases h

theorem endsOperand_question : EndsOperand .question :=
  ⟨by decide, by decide, by decide, rfl⟩

theorem endsAssignment_of_mem
    (h : follower ∈ [.comma, .rightParen, .rightBracket, .colon, .eof]) :
    EndsAssignment follower := by
  simp only [List.mem_cons, List.not_mem_nil, or_false] at h
  rcases h with rfl | rfl | rfl | rfl | rfl <;>
    exact ⟨⟨⟨by decide, by decide, by decide, rfl⟩, .of_eq_none rfl, by decide⟩, rfl⟩

/-! ## Single constructs -/

variable {stream : TokenStream} {levels : Nat}

section Operands

variable {inner argument operand : ParseM Expr} {target : Expr}

theorem primary_of_identifier (h : stream.current.kind = .identifier) :
    (primary inner argument).run stream =
      (discard advance >>= fun _ => named argument stream.current.text).run stream := by
  rw [primary, run_current_bind]
  simp only [h]

theorem primary_of_leftParen (h : stream.current.kind = .leftParen) :
    (primary inner argument).run stream =
      (discard advance >>= fun _ => inner >>= fun expr =>
        discard (expect .rightParen) >>= fun _ => pure (.group expr)).run stream := by
  rw [primary, run_current_bind]
  simp only [h]

theorem primary_of_literal {literal : LiteralKind}
    (h : LiteralKind.ofToken? stream.current.kind = some literal) :
    (primary inner argument).run stream =
      (discard advance >>= fun _ => pure (.constant literal stream.current.text)).run stream := by
  rw [primary, run_current_bind]
  split
  next heq => rw [heq] at h; cases h
  next heq => rw [heq] at h; cases h
  next => simp only [h]

theorem named_of_leftParen (h : stream.current.kind = .leftParen) (name : String) :
    (named argument name).run stream =
      (discard advance >>= fun _ => stepBound >>= fun bound => arguments argument bound >>=
        fun list => discard (expect .rightParen) >>= fun _ => pure (.call name list)).run
        stream := by
  rw [named, run_kind_bind, if_pos h]

theorem named_of_ne_leftParen (h : stream.current.kind ≠ .leftParen) (name : String) :
    (named argument name).run stream = (pure (.var name) : ParseM Expr).run stream := by
  rw [named, run_kind_bind, if_neg h]

theorem suffixes_of_leftBracket (h : stream.current.kind = .leftBracket) :
    (suffixes (levels + 1) target).run stream =
      (discard advance >>= fun _ => binary levels 0 >>= fun position =>
        discard (expect .rightBracket) >>= fun _ =>
          suffixes levels (.index target position)).run stream := by
  rw [suffixes, run_kind_bind]
  simp only [h]

theorem suffixes_of_dot (h : stream.current.kind = .dot) :
    (suffixes (levels + 1) target).run stream =
      (discard advance >>= fun _ => expect .identifier >>= fun name =>
        named (assignment levels) name.text >>= fun part =>
          suffixes levels (.member target part)).run stream := by
  rw [suffixes, run_kind_bind]
  simp only [h]

theorem tooDeep_suffixes_zero
    (h : stream.current.kind = .leftBracket ∨ stream.current.kind = .dot) :
    TooDeep (suffixes 0 target) stream := by
  refine ⟨stream.current.span, stream, ?_⟩
  rw [suffixes, run_kind_bind]
  rcases h with h | h <;> simp only [h, run_refuseDepth]

theorem suffixes_of_ne (hbracket : stream.current.kind ≠ .leftBracket)
    (hdot : stream.current.kind ≠ .dot) :
    (suffixes levels target).run stream = (pure target : ParseM Expr).run stream := by
  cases levels with
  | zero =>
      rw [suffixes, run_kind_bind]
      split <;> first | rfl | contradiction
  | succ levels =>
      rw [suffixes, run_kind_bind]
      split <;> first | rfl | contradiction

theorem unary_of_before? {op : UnaryOp} (h : UnaryOp.before? stream.current.kind = some op) :
    (unary operand).run stream =
      (advance >>= fun token => operand >>= fun expr => applyUnary op expr token).run stream := by
  rw [unary, run_kind_bind]
  simp only [h]

theorem unary_of_before?_eq_none (h : UnaryOp.before? stream.current.kind = none) :
    (unary operand).run stream =
      (operand >>= fun expr => kind >>= fun next =>
        match UnaryOp.after? next with
        | some op => advance >>= fun token => applyUnary op expr token
        | none => pure expr).run stream := by
  rw [unary, run_kind_bind]
  cases hbefore : UnaryOp.before? stream.current.kind with
  | none => rfl
  | some op =>
      rw [hbefore] at h
      contradiction

theorem applyUnary_of_place {op : UnaryOp} {token : Token}
    (h : op.mutates = true → target.isPlace = true) :
    applyUnary op target token = pure (.unary op target) := by
  rw [applyUnary, if_neg]
  simpa using h

end Operands

section Chains

variable {left : Expr} {op : BinaryOp}

theorem tooDeep_operators_zero (hop : BinaryOp.ofToken? stream.current.kind = some op)
    (hfloor : floor ≤ op.precedence) : TooDeep (operators 0 floor left) stream := by
  refine ⟨stream.current.span, stream, ?_⟩
  rw [operators, run_kind_bind]
  simp only [hop]
  rw [if_neg (Nat.not_lt.mpr hfloor), run_refuseDepth]

theorem operators_of_ofToken? (hop : BinaryOp.ofToken? stream.current.kind = some op)
    (hfloor : floor ≤ op.precedence) :
    (operators (levels + 1) floor left).run stream =
      (discard advance >>= fun _ => binary levels op.rightFloor >>= fun right =>
        operators levels floor (.binary op left right)).run stream := by
  rw [operators, run_kind_bind]
  simp only [hop]
  rw [if_neg (Nat.not_lt.mpr hfloor)]

theorem operators_of_stops (h : Stops floor stream.current.kind) :
    (operators levels floor left).run stream = (pure left : ParseM Expr).run stream := by
  cases levels with
  | zero =>
      rw [operators, run_kind_bind]
      split
      next op hop => rw [if_pos (h op hop)]
      next => rfl
  | succ levels =>
      rw [operators, run_kind_bind]
      split
      next op hop => rw [if_pos (h op hop)]
      next => rfl

end Chains

section Branches

variable {condition : Expr}

theorem branches_of_question {branch : ParseM Expr} {bound : Nat}
    (h : stream.current.kind = .question) :
    (branches branch (bound + 1) condition).run stream =
      (discard advance >>= fun _ => branch >>= fun ifTrue =>
        discard (expect .colon) >>= fun _ => branch >>= fun ifFalse =>
          branches branch bound (.ternary condition ifTrue ifFalse)).run stream := by
  rw [branches, run_kind_bind, if_pos h]

end Branches

end Grammar

namespace Expr

/-! ## What the words of an expression lead to -/

/-- The words of an operand lead to the suffixes after it. -/
def OperandReads (expr : Expr) : Prop :=
  ∀ ⦃levels stream next⦄, stream.Offers expr.words next → next.current.kind ≠ .leftParen →
    Leads (primary (Grammar.ternary levels) (Grammar.assignment levels) >>= suffixes levels) stream
      (expr.room ≤ levels) (suffixes (levels - expr.suffixCount) expr) next

/-- The words of a variable or a call are those of a name and of what follows it. -/
def PartReads (expr : Expr) : Prop :=
  ∃ name rest, expr.words = .ofLetters name :: rest ∧ IsName name ∧
    ∀ ⦃levels stream next⦄, stream.Offers rest next → next.current.kind ≠ .leftParen →
      Leads (named (Grammar.assignment levels) name) stream (expr.room ≤ levels) (pure expr) next

/-- The words of an operand with its operator are read as a whole. -/
def UnaryReads (expr : Expr) : Prop :=
  ∀ ⦃levels stream next⦄, stream.Offers expr.words next → EndsOperand next.current.kind →
    Leads (Grammar.unary (primary (Grammar.ternary levels) (Grammar.assignment levels) >>=
      suffixes levels)) stream (expr.room ≤ levels) (pure expr) next

/-- The words of a chain lead to the operators after it. -/
def ChainReads (expr : Expr) : Prop :=
  ∀ ⦃levels floor stream next⦄, expr.bindsAt floor = true → stream.Offers expr.words next →
    EndsOperand next.current.kind → Takes 0 expr next.current.kind →
    Leads (Grammar.unary (primary (Grammar.ternary levels) (Grammar.assignment levels) >>=
      suffixes levels) >>= operators levels floor) stream (expr.room ≤ levels)
      (operators (levels - expr.operatorCount) floor expr) next

/-- The words of a chain are read as a whole. -/
def BinaryReads (expr : Expr) : Prop :=
  ∀ ⦃levels floor stream next⦄, expr.bindsAt floor = true → stream.Offers expr.words next →
    EndsOperand next.current.kind → Stops floor next.current.kind →
    Leads (Grammar.binary levels floor) stream (expr.room + 1 ≤ levels) (pure expr) next

/-- The words of a condition with its branches are read as a whole. -/
def TernaryReads (expr : Expr) : Prop :=
  ∀ ⦃levels stream next⦄, stream.Offers expr.words next → EndsTernary next.current.kind →
    Leads (Grammar.ternary levels) stream (expr.ternaryRoom ≤ levels) (pure expr) next

/-- The words of an expression are read as a whole. -/
def AssignmentReads (expr : Expr) : Prop :=
  ∀ ⦃levels stream next⦄, stream.Offers expr.words next → EndsAssignment next.current.kind →
    Leads (Grammar.assignment levels) stream (expr.assignmentRoom ≤ levels) (pure expr) next

/-- What the words of an expression lead to on each level that it has. -/
structure Reads (expr : Expr) : Prop where
  operand : expr.isOperand = true → expr.OperandReads
  part : expr.isPart = true → expr.PartReads
  unary : expr.isUnary = true → expr.UnaryReads
  chain : expr.bindsAt 0 = true → expr.ChainReads
  ternary : expr.isTernary = true → expr.TernaryReads
  assignment : expr.AssignmentReads

end Expr

end ExprLang
