import ExprLang.Proofs.Grammar.Passing
import ExprLang.Proofs.Grammar.Room

/-!
# What a successful reading has read

Whatever the parser answers is spelled by the tokens that it passed and has the shape of the grammar
at every node. The loops keep an invariant on the expression read so far: the operator that comes
next may take it as its left operand.
-/

namespace ExprLang.Grammar

open TokenStream

/-- The answers of a reading are spelled by the tokens that it passes, and meet a condition on the
expression and on the kind of the token after it. -/
def Reads (reading : ParseM Expr) (condition : Expr → Token.Kind → Prop) : Prop :=
  ∀ ⦃stream : TokenStream⦄ ⦃expr : Expr⦄ ⦃next : TokenStream⦄, stream.Ended →
    reading.run stream = .ok expr next →
    ∃ tokens, stream.Passes tokens next ∧ expr.Spelled tokens ∧ expr.Grammatical ∧
      condition expr next.current.kind

/-- The answers of a reading that goes on after an expression, which must meet a condition of its
own, are spelled by the tokens of the expression and those that the reading passes. -/
def Extends (reading : Expr → ParseM Expr) (before after : Expr → Token.Kind → Prop) : Prop :=
  ∀ ⦃stream : TokenStream⦄ ⦃expr : Expr⦄ ⦃tokens : List Token⦄ ⦃answer : Expr⦄
    ⦃next : TokenStream⦄, stream.Ended → expr.Spelled tokens → expr.Grammatical →
    before expr stream.current.kind → (reading expr).run stream = .ok answer next →
    ∃ more, stream.Passes more next ∧ answer.Spelled (tokens ++ more) ∧ answer.Grammatical ∧
      after answer next.current.kind

variable {stream next : TokenStream} {levels floor : Nat}

/-- No operator of at least the given precedence follows. -/
def Stops (floor : Nat) (kind : Token.Kind) : Prop :=
  ∀ op, BinaryOp.ofToken? kind = some op → op.precedence < floor

/-- An operator of at least the given precedence that follows can take the expression as its left
operand. -/
def Takes (floor : Nat) (expr : Expr) (kind : Token.Kind) : Prop :=
  ∀ op, BinaryOp.ofToken? kind = some op → floor ≤ op.precedence →
    expr.bindsAt op.leftFloor = true

theorem Stops.of_lt {kind : Token.Kind} {op : BinaryOp}
    (hop : BinaryOp.ofToken? kind = some op) (hlt : op.precedence < floor) : Stops floor kind := by
  intro other hother
  rw [hop] at hother
  cases hother
  exact hlt

theorem Stops.of_eq_none {kind : Token.Kind} (h : BinaryOp.ofToken? kind = none) :
    Stops floor kind := by
  intro op hop
  rw [h] at hop
  cases hop

theorem Reads.of_bind {reading : ParseM Expr} {condition : Expr → Token.Kind → Prop} {β : Type}
    {after : Expr → ParseM β} {result : β} (hreads : Reads reading condition)
    (hended : stream.Ended) (h : (reading >>= after).run stream = .ok result next) :
    ∃ expr middle tokens, stream.Passes tokens middle ∧ middle.Ended ∧ expr.Spelled tokens ∧
      expr.Grammatical ∧ condition expr middle.current.kind ∧
      (after expr).run middle = .ok result next := by
  obtain ⟨expr, middle, hread, h⟩ := bind_eq_ok_iff.mp h
  obtain ⟨tokens, hpasses, hspelled, hgrammatical, hcondition⟩ := hreads hended hread
  exact ⟨expr, middle, tokens, hpasses, hpasses.ended hended, hspelled, hgrammatical, hcondition, h⟩

theorem Reads.imp {reading : ParseM Expr} {condition weaker : Expr → Token.Kind → Prop}
    (hreads : Reads reading condition)
    (himp : ∀ ⦃expr kind⦄, condition expr kind → weaker expr kind) : Reads reading weaker := by
  intro stream expr next hended h
  obtain ⟨tokens, hpasses, hspelled, hgrammatical, hcondition⟩ := hreads hended h
  exact ⟨tokens, hpasses, hspelled, hgrammatical, himp hcondition⟩

/-! ## Calls -/

/-- The arguments of a call are read one after another, each with its comma if there is one. -/
theorem arguments_sound {argument : ParseM Expr}
    (hargument : Reads argument fun expr _ => expr.assignmentRoom ≤ levels) {bound : Nat}
    {list : List Expr} (hended : stream.Ended)
    (h : (arguments argument bound).run stream = .ok list next) :
    ∃ row : List Argument, list = row.map Argument.expr ∧
      stream.Passes (row.flatMap Argument.row) next ∧
      (∀ piece ∈ row, piece.expr.Spelled piece.tokens ∧ piece.expr.Grammatical ∧
        piece.expr.assignmentRoom ≤ levels) ∧
      ∀ piece ∈ row, ∀ comma ∈ piece.comma, comma.kind = .comma := by
  induction bound generalizing stream list with
  | zero =>
      cases h
      exact ⟨[], rfl, .refl _, by simp, by simp⟩
  | succ bound ih =>
      rw [arguments, run_kind_bind] at h
      split at h
      · cases h
        exact ⟨[], rfl, .refl _, by simp, by simp⟩
      · cases h
        exact ⟨[], rfl, .refl _, by simp, by simp⟩
      obtain ⟨first, middle, tokens, hpasses, hmiddle, hspelled, hgrammatical, hroom, h⟩ :=
        hargument.of_bind hended h
      rw [run_kind_bind] at h
      dsimp only at h
      split at h
      next hcomma =>
        obtain ⟨behind, hstep, hbehind, h⟩ :=
          of_discard_advance_bind hmiddle (by rw [hcomma]; decide) h
        obtain ⟨rest, last, hrest, h⟩ := bind_eq_ok_iff.mp h
        cases h
        obtain ⟨row, rfl, hrow, hpieces, hcommas⟩ := ih hbehind hrest
        refine ⟨⟨first, tokens, some middle.current⟩ :: row, rfl, ?_, ?_, ?_⟩
        · exact (hpasses.trans hstep).trans hrow
        · exact List.forall_mem_cons.mpr ⟨⟨hspelled, hgrammatical, hroom⟩, hpieces⟩
        · refine List.forall_mem_cons.mpr ⟨?_, hcommas⟩
          rintro comma ⟨⟩
          exact hcomma
      next =>
        obtain ⟨rest, last, hrest, h⟩ := bind_eq_ok_iff.mp h
        cases h
        obtain ⟨row, rfl, hrow, hpieces, hcommas⟩ := ih hmiddle hrest
        refine ⟨⟨first, tokens, none⟩ :: row, rfl, ?_, ?_, ?_⟩
        · simpa [Argument.row] using hpasses.trans hrow
        · exact List.forall_mem_cons.mpr ⟨⟨hspelled, hgrammatical, hroom⟩, hpieces⟩
        · refine List.forall_mem_cons.mpr ⟨?_, hcommas⟩
          rintro comma ⟨⟩

/-- A name with what follows it is a variable or a call. -/
theorem named_sound {argument : ParseM Expr}
    (hargument : Reads argument fun expr _ => expr.assignmentRoom ≤ levels) {name : Token}
    (hname : name.kind = .identifier) {expr : Expr} (hended : stream.Ended)
    (h : (named argument name.text).run stream = .ok expr next) :
    ∃ tokens, stream.Passes tokens next ∧ expr.Spelled (name :: tokens) ∧ expr.Grammatical ∧
      expr.isPart = true ∧ expr.room ≤ levels := by
  rw [named, run_kind_bind] at h
  split at h
  next hopening =>
    obtain ⟨inside, hstep, hinside, h⟩ :=
      of_discard_advance_bind hended (by rw [hopening]; decide) h
    rw [run_stepBound_bind] at h
    obtain ⟨list, behind, hlist, h⟩ := bind_eq_ok_iff.mp h
    obtain ⟨row, rfl, hrow, hpieces, hcommas⟩ := arguments_sound hargument hinside hlist
    obtain ⟨last, hkind, hclosing, _, h⟩ :=
      of_discard_expect_bind (hrow.ended hinside) (by decide) h
    cases h
    refine ⟨_, (hstep.trans hrow).trans hclosing, ?_, ?_, rfl, ?_⟩
    · exact .call hname hopening (fun piece hmem => (hpieces piece hmem).1) hcommas hkind
    · refine .intro trivial ?_
      intro child hchild
      obtain ⟨piece, hmem, rfl⟩ := List.mem_map.mp hchild
      exact (hpieces piece hmem).2.1
    · rw [Expr.room, Expr.roomAll_le_iff]
      intro child hchild
      obtain ⟨piece, hmem, rfl⟩ := List.mem_map.mp hchild
      exact (hpieces piece hmem).2.2
  next =>
    cases h
    exact ⟨[], .refl _, .var hname, .intro trivial (List.forall_mem_nil _), rfl, Nat.zero_le _⟩

/-! ## Operands -/

theorem primary_reads {inner argument : ParseM Expr}
    (hinner : Reads inner fun expr _ => expr.isTernary = true ∧ expr.ternaryRoom ≤ levels)
    (hargument : Reads argument fun expr _ => expr.assignmentRoom ≤ levels) :
    Reads (primary inner argument) fun expr _ =>
      expr.isOperand = true ∧ expr.suffixCount = 0 ∧ expr.room ≤ levels := by
  intro stream expr next hended h
  rw [primary, run_current_bind] at h
  split at h
  next hname =>
    obtain ⟨behind, hstep, hbehind, h⟩ :=
      of_discard_advance_bind hended (by rw [hname]; decide) h
    obtain ⟨tokens, hpasses, hspelled, hgrammatical, hpart, hroom⟩ :=
      named_sound hargument hname hbehind h
    exact ⟨_, hstep.trans hpasses, hspelled, hgrammatical, Expr.isOperand_of_isPart hpart,
      Expr.suffixCount_of_isPart hpart, hroom⟩
  next hopening =>
    obtain ⟨inside, hstep, hinside, h⟩ :=
      of_discard_advance_bind hended (by rw [hopening]; decide) h
    obtain ⟨held, behind, tokens, hpasses, hbehind, hspelled, hgrammatical, ⟨hternary, hroom⟩, h⟩ :=
      hinner.of_bind hinside h
    obtain ⟨last, hkind, hclosing, _, h⟩ := of_discard_expect_bind hbehind (by decide) h
    cases h
    refine ⟨_, (hstep.trans hpasses).trans hclosing, .group hopening hspelled hkind, ?_, rfl, rfl,
      hroom⟩
    exact .intro hternary (List.forall_mem_singleton.mpr hgrammatical)
  next =>
    split at h
    next literal hliteral =>
      have hkind : stream.current.kind ≠ .eof := ne_eof_of_eq_some rfl hliteral
      obtain ⟨behind, hstep, _, h⟩ := of_discard_advance_bind hended hkind h
      cases h
      exact ⟨_, hstep, .constant hliteral, .intro trivial (List.forall_mem_nil _), rfl, rfl,
        Nat.zero_le _⟩
    next => cases h

/-- A suffix takes one level, and what stands in it is read with the levels that are left. -/
theorem suffixes_extends_succ {budget : Nat}
    (hposition : Reads (binary levels 0) fun expr kind =>
      expr.bindsAt 0 = true ∧ expr.room + 1 ≤ levels ∧ Stops 0 kind)
    (hargument : Reads (assignment levels) fun expr _ => expr.assignmentRoom ≤ levels)
    (hrest : Extends (suffixes levels)
      (fun expr _ => expr.isOperand = true ∧ expr.room ≤ budget ∧
        expr.suffixCount + levels = budget)
      (fun expr _ => expr.isOperand = true ∧ expr.room ≤ budget)) :
    Extends (suffixes (levels + 1))
      (fun expr _ => expr.isOperand = true ∧ expr.room ≤ budget ∧
        expr.suffixCount + (levels + 1) = budget)
      (fun expr _ => expr.isOperand = true ∧ expr.room ≤ budget) := by
  intro stream expr tokens answer next hended hspelled hgrammatical hbefore h
  obtain ⟨hoperand, hroom, hcount⟩ := hbefore
  rw [suffixes, run_kind_bind] at h
  split at h
  next hopening =>
    obtain ⟨inside, hstep, hinside, h⟩ :=
      of_discard_advance_bind hended (by rw [hopening]; decide) h
    obtain ⟨position, behind, second, hpasses, hbehind, hsecond, hgood, ⟨hbinds, hleft, _⟩, h⟩ :=
      hposition.of_bind hinside h
    obtain ⟨last, hkind, hclosing, hlast, h⟩ := of_discard_expect_bind hbehind (by decide) h
    -- The target has taken a level for each of its suffixes; the position is read with the rest.
    have hindex : (expr.index position).Grammatical :=
      .intro ⟨hoperand, hbinds⟩ (Expr.Everywhere.pair hgrammatical hgood)
    have hbound : (expr.index position).room ≤ budget := by
      rw [Expr.room]
      omega
    obtain ⟨more, hmore, hanswer, hwhole, hafter⟩ := hrest hlast
      (.index hspelled hopening hsecond hkind) hindex
      ⟨rfl, hbound, by rw [Expr.suffixCount]; omega⟩ h
    refine ⟨_, ((hstep.trans hpasses).trans hclosing).trans hmore, ?_, hwhole, hafter⟩
    simpa using hanswer
  next hdot =>
    obtain ⟨behind, hstep, hbehind, h⟩ := of_discard_advance_bind hended (by rw [hdot]; decide) h
    obtain ⟨after, hkind, hname, hafter, h⟩ := of_expect_bind hbehind (by decide) h
    obtain ⟨part, last, hpart, h⟩ := bind_eq_ok_iff.mp h
    obtain ⟨second, hpasses, hsecond, hgood, hispart, hleft⟩ :=
      named_sound hargument hkind hafter hpart
    have hmember : (expr.member part).Grammatical :=
      .intro ⟨hoperand, hispart⟩ (Expr.Everywhere.pair hgrammatical hgood)
    have hbound : (expr.member part).room ≤ budget := by
      rw [Expr.room]
      omega
    obtain ⟨more, hmore, hanswer, hwhole, hpost⟩ := hrest (hpasses.ended hafter)
      (.member hspelled hdot hsecond) hmember
      ⟨rfl, hbound, by rw [Expr.suffixCount]; omega⟩ h
    refine ⟨_, ((hstep.trans hname).trans hpasses).trans hmore, ?_, hwhole, hpost⟩
    simpa using hanswer
  next =>
    cases h
    exact ⟨[], .refl _, by simpa using hspelled, hgrammatical, hoperand, hroom⟩

theorem of_applyUnary {op : UnaryOp} {operand expr : Expr} {token : Token}
    (h : (applyUnary op operand token).run stream = .ok expr next) :
    expr = .unary op operand ∧ next = stream ∧ (op.mutates = true → operand.isPlace = true) := by
  rw [applyUnary] at h
  split at h
  · cases h
  next hplace =>
    cases h
    exact ⟨rfl, rfl, by simpa using hplace⟩

/-- An operand stands alone, after an operator or before one. -/
theorem unary_reads {operand : ParseM Expr}
    (hoperand : Reads operand fun expr _ => expr.isOperand = true ∧ expr.room ≤ levels) :
    Reads (unary operand) fun expr _ => expr.isUnary = true ∧ expr.room ≤ levels := by
  intro stream expr next hended h
  rw [unary, run_kind_bind] at h
  split at h
  next op hsign =>
    have hkind : stream.current.kind ≠ .eof := ne_eof_of_eq_some rfl hsign
    obtain ⟨behind, hstep, hbehind, h⟩ := of_advance_bind hended hkind h
    obtain ⟨held, middle, tokens, hpasses, _, hspelled, hgrammatical, ⟨hheld, hroom⟩, h⟩ :=
      hoperand.of_bind hbehind h
    obtain ⟨rfl, rfl, hplace⟩ := of_applyUnary h
    refine ⟨_, hstep.trans hpasses, .before hsign hspelled, ?_, rfl, hroom⟩
    exact .intro ⟨hheld, hplace⟩ (List.forall_mem_singleton.mpr hgrammatical)
  next =>
    obtain ⟨held, middle, tokens, hpasses, hmiddle, hspelled, hgrammatical, ⟨hheld, hroom⟩, h⟩ :=
      hoperand.of_bind hended h
    rw [run_kind_bind] at h
    split at h
    next op hsign =>
      have hkind : middle.current.kind ≠ .eof := ne_eof_of_eq_some rfl hsign
      obtain ⟨behind, hstep, _, h⟩ := of_advance_bind hmiddle hkind h
      obtain ⟨rfl, rfl, hplace⟩ := of_applyUnary h
      refine ⟨_, hpasses.trans hstep, .after hspelled hsign, ?_, rfl, hroom⟩
      exact .intro ⟨hheld, hplace⟩ (List.forall_mem_singleton.mpr hgrammatical)
    next =>
      cases h
      exact ⟨tokens, hpasses, hspelled, hgrammatical, Expr.isUnary_of_isOperand hheld, hroom⟩

/-! ## Chains -/

/-- An operator takes one level, and its right operand is read with the levels that are left. -/
theorem operators_extends_succ {budget : Nat}
    (hright : ∀ floor, Reads (binary levels floor) fun expr kind =>
      expr.bindsAt floor = true ∧ expr.room + 1 ≤ levels ∧ Stops floor kind)
    (hrest : Extends (operators levels floor)
      (fun expr kind => expr.bindsAt floor = true ∧ expr.room ≤ budget ∧
        expr.operatorCount + levels = budget ∧ Takes floor expr kind)
      (fun expr kind => expr.bindsAt floor = true ∧ expr.room ≤ budget ∧ Stops floor kind)) :
    Extends (operators (levels + 1) floor)
      (fun expr kind => expr.bindsAt floor = true ∧ expr.room ≤ budget ∧
        expr.operatorCount + (levels + 1) = budget ∧ Takes floor expr kind)
      (fun expr kind => expr.bindsAt floor = true ∧ expr.room ≤ budget ∧ Stops floor kind) := by
  intro stream expr tokens answer next hended hspelled hgrammatical hbefore h
  obtain ⟨hbinds, hroom, hcount, htakes⟩ := hbefore
  rw [operators, run_kind_bind] at h
  split at h
  next op hop =>
    split at h
    next hfloor =>
      cases h
      exact ⟨[], .refl _, by simpa using hspelled, hgrammatical, hbinds, hroom, .of_lt hop hfloor⟩
    next hfloor =>
      have hkind : stream.current.kind ≠ .eof := ne_eof_of_eq_some rfl hop
      obtain ⟨behind, hstep, hbehind, h⟩ := of_discard_advance_bind hended hkind h
      obtain ⟨right, middle, second, hpasses, hmiddle, hsecond, hgood, ⟨hrightBinds, hleft,
        hstops⟩, h⟩ := (hright op.rightFloor).of_bind hbehind h
      have hfloor : floor ≤ op.precedence := Nat.le_of_not_lt hfloor
      have hfold : (Expr.binary op expr right).Grammatical :=
        .intro ⟨htakes op hop hfloor, hrightBinds⟩ (Expr.Everywhere.pair hgrammatical hgood)
      have hbound : (Expr.binary op expr right).room ≤ budget := by
        rw [Expr.room]
        omega
      -- The right operand ended at an operator too loose for it, so that one can take the fold.
      have hnext : Takes floor (.binary op expr right) middle.current.kind := by
        intro other hother _
        exact decide_eq_true (BinaryOp.leftFloor_le_precedence (hstops other hother))
      obtain ⟨more, hmore, hanswer, hwhole, hafter⟩ := hrest hmiddle
        (.binary hspelled hop hsecond) hfold
        ⟨decide_eq_true hfloor, hbound, by rw [Expr.operatorCount]; omega, hnext⟩ h
      refine ⟨_, (hstep.trans hpasses).trans hmore, ?_, hwhole, hafter⟩
      simpa using hanswer
  next hnone =>
    cases h
    exact ⟨[], .refl _, by simpa using hspelled, hgrammatical, hbinds, hroom, .of_eq_none hnone⟩

/-! ## Conditions -/

theorem branches_of_ne_question {branch : ParseM Expr} {bound : Nat} {condition : Expr}
    (hkind : stream.current.kind ≠ .question) :
    (branches branch bound condition).run stream = .ok condition stream := by
  cases bound with
  | zero => rfl
  | succ bound => rw [branches, run_kind_bind, if_neg hkind]; rfl

/-- The last branch goes on as far as it can, so that a condition never follows another. -/
theorem ternary_reads_succ
    (hcondition : Reads (binary levels 0) fun expr kind =>
      expr.bindsAt 0 = true ∧ expr.room + 1 ≤ levels ∧ Stops 0 kind)
    (hbranch : Reads (ternary levels) fun expr kind =>
      expr.isTernary = true ∧ expr.ternaryRoom ≤ levels ∧ kind ≠ .question) :
    Reads (ternary (levels + 1)) fun expr kind =>
      expr.isTernary = true ∧ expr.ternaryRoom ≤ levels + 1 ∧ kind ≠ .question := by
  intro stream expr next hended h
  rw [ternary] at h
  obtain ⟨condition, middle, first, hpasses, hmiddle, hspelled, hgrammatical, ⟨hbinds, hroom, _⟩,
    h⟩ := hcondition.of_bind hended h
  rw [run_stepBound_bind, branches, run_kind_bind] at h
  split at h
  next hquestion =>
    obtain ⟨behind, hstep, hbehind, h⟩ :=
      of_discard_advance_bind hmiddle (by rw [hquestion]; decide) h
    obtain ⟨ifTrue, inside, second, htrue, hinside, hsecond, htrueGood, ⟨htrueShape, htrueRoom, _⟩,
      h⟩ := hbranch.of_bind hbehind h
    obtain ⟨beyond, hcolon, hcolonStep, hbeyond, h⟩ :=
      of_discard_expect_bind hinside (by decide) h
    obtain ⟨ifFalse, last, third, hfalse, _, hthird, hfalseGood, ⟨hfalseShape, hfalseRoom, hlast⟩,
      h⟩ := hbranch.of_bind hbeyond h
    rw [branches_of_ne_question hlast] at h
    cases h
    refine ⟨_, ((((hpasses.trans hstep).trans htrue).trans hcolonStep).trans hfalse), ?_, ?_, rfl,
      ?_, hlast⟩
    · simpa using Expr.Spelled.ternary hspelled hquestion hsecond hcolon hthird
    · refine .intro ⟨hbinds, htrueShape, hfalseShape⟩ ?_
      exact List.forall_mem_cons.mpr ⟨hgrammatical, Expr.Everywhere.pair htrueGood hfalseGood⟩
    · unfold Expr.ternaryRoom at *
      rw [Expr.room, Expr.ternaryLevels]
      omega
  next hquestion =>
    cases h
    refine ⟨first, hpasses, hspelled, hgrammatical, Expr.isTernary_of_bindsAt hbinds, ?_, hquestion⟩
    rw [Expr.ternaryRoom, Expr.ternaryLevels_of_bindsAt hbinds]
    omega

/-! ## Assignments -/

theorem declarationOr_reads {other : ParseM Expr}
    (hother : Reads other fun expr _ => expr.isTernary = true ∧ expr.ternaryRoom ≤ levels) :
    Reads (declarationOr other) fun expr _ =>
      expr.isDeclaration = true ∨ expr.isTernary = true ∧ expr.ternaryRoom ≤ levels := by
  intro stream expr next hended h
  rw [declarationOr, run_kind_bind] at h
  split at h
  next declaration hword =>
    have hkind : stream.current.kind ≠ .eof := ne_eof_of_eq_some rfl hword
    obtain ⟨behind, hstep, hbehind, h⟩ := of_discard_advance_bind hended hkind h
    obtain ⟨last, hname, hpasses, _, h⟩ := of_expect_bind hbehind (by decide) h
    cases h
    exact ⟨_, hstep.trans hpasses, .declaration hword hname, .intro trivial
      (List.forall_mem_nil _), .inl rfl⟩
  next =>
    obtain ⟨tokens, hpasses, hspelled, hgrammatical, hcondition⟩ := hother hended h
    exact ⟨tokens, hpasses, hspelled, hgrammatical, .inr hcondition⟩

theorem of_checkTarget {op : AssignOp} {target : Expr} {token : Token} {answer : PUnit}
    (h : (checkTarget op target token).run stream = .ok answer next) :
    next = stream ∧ (target.isPlace = true ∨ target.isDeclaration = true ∧ op = .assign) := by
  unfold checkTarget at h
  split at h
  · split at h
    next hop =>
      cases h
      exact ⟨rfl, .inr ⟨rfl, hop⟩⟩
    next => cases h
  · split at h
    next hplace =>
      cases h
      exact ⟨rfl, .inl hplace⟩
    next => cases h

theorem assignment_reads_succ
    (htarget : Reads (ternary levels) fun expr kind =>
      expr.isTernary = true ∧ expr.ternaryRoom ≤ levels ∧ kind ≠ .question)
    (hvalue : Reads (assignment levels) fun expr _ => expr.assignmentRoom ≤ levels) :
    Reads (assignment (levels + 1)) fun expr _ => expr.assignmentRoom ≤ levels + 1 := by
  intro stream expr next hended h
  rw [assignment] at h
  obtain ⟨target, middle, first, hpasses, hmiddle, hspelled, hgrammatical, hcondition, h⟩ :=
    (declarationOr_reads (htarget.imp fun _ _ h => ⟨h.1, h.2.1⟩)).of_bind hended h
  have htargetRoom : (if target.isDeclaration then 0 else target.ternaryRoom) ≤ levels := by
    rcases hcondition with hdeclaration | ⟨-, hroom⟩
    · rw [if_pos hdeclaration]
      exact Nat.zero_le _
    · split <;> omega
  rw [run_kind_bind] at h
  split at h
  next =>
    cases h
    refine ⟨first, hpasses, hspelled, hgrammatical, ?_⟩
    change expr.assignmentRoom ≤ levels + 1
    rw [Expr.assignmentRoom]
    rcases hcondition with hdeclaration | ⟨hternary, hroom⟩
    · cases expr <;> first | exact Nat.le_add_left _ _ | cases hdeclaration
    · rw [Expr.assignmentLevels_of_isTernary hternary]
      exact Nat.succ_le_succ hroom
  next op hsign =>
    have hkind : middle.current.kind ≠ .eof := ne_eof_of_eq_some rfl hsign
    obtain ⟨behind, hstep, hbehind, h⟩ := of_advance_bind hmiddle hkind h
    obtain ⟨_, inside, hcheck, hstored⟩ := bind_eq_ok_iff.mp h
    obtain ⟨rfl, hfits⟩ := of_checkTarget hcheck
    obtain ⟨value, last, second, hread, _, hsecond, hgood, hroom, hstored⟩ :=
      hvalue.of_bind hbehind hstored
    cases hstored
    refine ⟨_, (hpasses.trans hstep).trans hread, ?_, .intro hfits
      (Expr.Everywhere.pair hgrammatical hgood), ?_⟩
    · simpa using Expr.Spelled.assignment hspelled hsign hsecond
    · exact Nat.succ_le_succ (Nat.max_le.mpr ⟨htargetRoom, hroom⟩)

/-! ## All levels -/

/-- What the mutually recursive readings with the same number of levels answer. -/
structure Sound (levels : Nat) : Prop where
  assignment : Reads (assignment levels) fun expr _ => expr.assignmentRoom ≤ levels
  ternary : Reads (ternary levels) fun expr kind =>
    expr.isTernary = true ∧ expr.ternaryRoom ≤ levels ∧ kind ≠ .question
  binary : ∀ floor, Reads (binary levels floor) fun expr kind =>
    expr.bindsAt floor = true ∧ expr.room + 1 ≤ levels ∧ Stops floor kind
  operators : ∀ floor budget, Extends (operators levels floor)
    (fun expr kind => expr.bindsAt floor = true ∧ expr.room ≤ budget ∧
      expr.operatorCount + levels = budget ∧ Takes floor expr kind)
    (fun expr kind => expr.bindsAt floor = true ∧ expr.room ≤ budget ∧ Stops floor kind)
  suffixes : ∀ budget, Extends (suffixes levels)
    (fun expr _ => expr.isOperand = true ∧ expr.room ≤ budget ∧
      expr.suffixCount + levels = budget)
    (fun expr _ => expr.isOperand = true ∧ expr.room ≤ budget)

/-- Without levels only the two loops can succeed, and they stop where they stand. -/
theorem sound_zero : Sound 0 where
  assignment := by
    intro stream expr next hended h
    cases h
  ternary := by
    intro stream expr next hended h
    cases h
  binary := by
    intro floor stream expr next hended h
    cases h
  operators := by
    intro floor budget stream expr tokens answer next hended hspelled hgrammatical hbefore h
    obtain ⟨hbinds, hroom, -, -⟩ := hbefore
    rw [Grammar.operators, run_kind_bind] at h
    split at h
    next op hop =>
      split at h
      next hfloor =>
        cases h
        exact ⟨[], .refl _, by simpa using hspelled, hgrammatical, hbinds, hroom,
          .of_lt hop hfloor⟩
      next => cases h
    next hnone =>
      cases h
      exact ⟨[], .refl _, by simpa using hspelled, hgrammatical, hbinds, hroom,
        .of_eq_none hnone⟩
  suffixes := by
    intro budget stream expr tokens answer next hended hspelled hgrammatical hbefore h
    obtain ⟨hoperand, hroom, -⟩ := hbefore
    rw [Grammar.suffixes, run_kind_bind] at h
    split at h
    · cases h
    · cases h
    · cases h
      exact ⟨[], .refl _, by simpa using hspelled, hgrammatical, hoperand, hroom⟩

/-- An operand is a primary expression with its suffixes. -/
theorem Sound.operand (h : Sound levels) :
    Reads (primary (Grammar.ternary levels) (Grammar.assignment levels) >>=
      Grammar.suffixes levels) fun expr _ => expr.isOperand = true ∧ expr.room ≤ levels := by
  intro stream expr next hended hrun
  obtain ⟨head, middle, first, hpasses, hmiddle, hspelled, hgrammatical, ⟨hhead, hcount, hroom⟩,
    hrun⟩ :=
    (primary_reads (h.ternary.imp fun _ _ h => ⟨h.1, h.2.1⟩) h.assignment).of_bind hended hrun
  obtain ⟨more, hmore, hanswer, hwhole, hafter⟩ := h.suffixes levels hmiddle hspelled hgrammatical
    ⟨hhead, hroom, by omega⟩ hrun
  exact ⟨_, hpasses.trans hmore, hanswer, hwhole, hafter⟩

theorem sound_succ (h : Sound levels) : Sound (levels + 1) where
  assignment := assignment_reads_succ h.ternary h.assignment
  ternary := ternary_reads_succ (h.binary 0) h.ternary
  binary := by
    intro floor stream expr next hended hrun
    rw [Grammar.binary] at hrun
    obtain ⟨left, middle, first, hpasses, hmiddle, hspelled, hgrammatical, ⟨hunary, hroom⟩, hrun⟩ :=
      (unary_reads h.operand).of_bind hended hrun
    have hcount := Expr.operatorCount_of_isUnary hunary
    -- No operator has taken a level yet, so all of them are the budget of the chain.
    obtain ⟨more, hmore, hanswer, hwhole, hbinds, hbound, hstops⟩ :=
      h.operators floor levels hmiddle hspelled hgrammatical
        ⟨Expr.bindsAt_of_isUnary hunary, hroom, by omega, fun _ _ _ =>
          Expr.bindsAt_of_isUnary hunary⟩ hrun
    exact ⟨_, hpasses.trans hmore, hanswer, hwhole, hbinds, Nat.succ_le_succ hbound, hstops⟩
  operators := fun _ budget => operators_extends_succ h.binary (h.operators _ budget)
  suffixes := fun budget =>
    suffixes_extends_succ (h.binary 0) h.assignment (h.suffixes budget)

theorem sound (levels : Nat) : Sound levels := by
  -- Every construct that holds others reads them with fewer levels.
  induction levels with
  | zero => exact sound_zero
  | succ levels ih => exact sound_succ ih

end ExprLang.Grammar
