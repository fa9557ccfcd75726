import ExprLang.Proofs.Printing.Reading

/-!
# Every expression of the grammar's shape can be read

By induction on the expression, its words lead to what comes after them on every level of the
grammar that the expression has.
-/

namespace ExprLang

open Grammar TokenStream

/-! ## The words of operators and literals -/

theorem BinaryOp.ofToken?_symbol (op : BinaryOp) :
    BinaryOp.ofToken? (Word.ofSymbol op.symbol).kind = some op := by
  cases op <;> decide

theorem AssignOp.ofToken?_symbol (op : AssignOp) :
    AssignOp.ofToken? (Word.ofSymbol op.symbol).kind = some op := by
  cases op <;> decide

theorem UnaryOp.before?_symbol {op : UnaryOp} (h : ¬ op.isAfter = true) :
    UnaryOp.before? (Word.ofSymbol op.symbol).kind = some op := by
  cases op <;> first | decide | exact absurd rfl h

theorem UnaryOp.after?_symbol {op : UnaryOp} (h : op.isAfter = true) :
    UnaryOp.after? (Word.ofSymbol op.symbol).kind = some op := by
  cases op <;> first | decide | cases h

theorem DeclarationKind.ofToken?_keyword (kind : DeclarationKind) :
    DeclarationKind.ofToken? (Word.ofLetters kind.keyword).kind = some kind := by
  cases kind <;> decide

theorem LiteralKind.ofToken?_ofLiteral {kind : LiteralKind} {text : String}
    (h : Expr.Admits kind text) :
    LiteralKind.ofToken? (Word.ofLiteral kind text).kind = some kind := by
  cases kind with
  | int => rfl
  | decimal => rfl
  | string => rfl
  | bool => rcases h with rfl | rfl <;> decide

theorem Word.ofLiteral_text (kind : LiteralKind) (text : String) :
    (Word.ofLiteral kind text).text = text := by
  cases kind <;> rfl

namespace Expr

variable {expr : Expr} {levels : Nat} {stream next : TokenStream}

/-- Words between two symbols. -/
theorem exists_enclosed {opening closing : String} {inner : List Word}
    (h : stream.Offers (.ofSymbol opening :: (inner ++ [.ofSymbol closing])) next) :
    ∃ inside behind, Steps stream inside ∧ Steps behind next ∧ inside.Offers inner behind ∧
      stream.current.kind = (Word.ofSymbol opening).kind ∧
      behind.current.kind = (Word.ofSymbol closing).kind := by
  obtain ⟨inside, hopen, hopening, hinside⟩ := exists_steps h
  obtain ⟨behind, hinner, hbehind⟩ := hinside.split
  obtain ⟨last, hclose, hclosing, hlast⟩ := exists_steps hbehind
  obtain rfl := hlast.eq_of_nil
  exact ⟨inside, behind, hopen, hclose, hinner, congrArg Word.kind hopening,
    congrArg Word.kind hclosing⟩

/-! ## Calls -/

theorem arguments_of_ne {argument : ParseM Expr} {bound : Nat}
    (hparen : stream.current.kind ≠ .rightParen) (heof : stream.current.kind ≠ .eof) :
    (arguments argument (bound + 1)).run stream =
      (argument >>= fun first => Grammar.kind >>= fun follower =>
        (if follower = .comma then discard advance else pure ()) >>= fun _ =>
          arguments argument bound >>= fun rest => pure (first :: rest)).run stream := by
  rw [arguments, run_kind_bind]
  split
  next heq => exact absurd heq hparen
  next heq => exact absurd heq heof
  next =>
    congr 2
    funext first
    congr 1
    funext follower
    split <;> rfl

theorem length_le_length_wordsAll {list : List Expr} (h : ∀ expr ∈ list, expr.words ≠ []) :
    list.length ≤ (wordsAll list).length := by
  induction list with
  | nil => exact Nat.le_refl _
  | cons first rest ih =>
      obtain ⟨hfirst, hrest⟩ := List.forall_mem_cons.mp h
      have hpos : 1 ≤ first.words.length := List.length_pos_iff.mpr hfirst
      have hle := ih hrest
      rw [wordsAll, List.length_append, List.length_cons]
      cases rest with
      | nil => simpa using hpos
      | cons second rest =>
          simp only [List.isEmpty_cons, Bool.false_eq_true, if_false, List.length_cons] at hle ⊢
          omega

/-- The words of the arguments of a call lead to its closing parenthesis. -/
theorem leads_arguments {list : List Expr}
    (hlist : ∀ expr ∈ list, expr.AssignmentReads ∧
      ∃ word rest, expr.words = word :: rest ∧ expr.Begins word.kind)
    {bound : Nat} (hbound : list.length ≤ bound) (hoffers : stream.Offers (wordsAll list) next)
    (hnext : next.current.kind = .rightParen) :
    Leads (arguments (Grammar.assignment levels) bound) stream (roomAll list ≤ levels) (pure list)
      next := by
  induction list generalizing bound stream with
  | nil =>
      obtain rfl := hoffers.eq_of_nil
      refine (Leads.of_eq ?_).congr (iff_of_true trivial (Nat.zero_le _))
      cases bound with
      | zero => rfl
      | succ bound =>
          rw [arguments, run_kind_bind]
          simp only [hnext]
  | cons first rest ih =>
      obtain ⟨⟨hfirst, word, others, hwords, hbegins⟩, hrest⟩ := List.forall_mem_cons.mp hlist
      obtain ⟨bound, rfl⟩ : ∃ smaller, bound = smaller + 1 :=
        Nat.exists_eq_succ_of_ne_zero (by rw [List.length_cons] at hbound; omega)
      rw [wordsAll] at hoffers
      obtain ⟨middle, hfront, hback⟩ := hoffers.split
      have hcurrent : stream.current.kind = word.kind := by
        rw [hwords] at hfront
        exact congrArg Word.kind hfront.current_eq
      -- The comma after the argument is passed, unless the argument is the last.
      obtain ⟨behind, hends, hcomma, hbehind⟩ : ∃ behind, EndsAssignment middle.current.kind ∧
          (∀ {β : Type} (after : PUnit → ParseM β),
            ((if middle.current.kind = .comma then discard advance else pure ()) >>= after).run
              middle = (after ()).run behind) ∧
          behind.Offers (wordsAll rest) next := by
        cases rest with
        | nil =>
            obtain rfl := Offers.eq_of_nil hback
            refine ⟨middle, endsAssignment_of_mem (by simp [hnext]), ?_, [], .refl _, rfl⟩
            intro β after
            rw [hnext, if_neg (by decide)]
            rfl
        | cons second rest =>
            obtain ⟨behind, hsteps, hword, hbehind⟩ := exists_steps hback
            have hkind : middle.current.kind = .comma :=
              (congrArg Word.kind hword).trans (by decide)
            refine ⟨behind, endsAssignment_of_mem (by simp [hkind]), ?_, hbehind⟩
            intro β after
            rw [hkind, if_pos rfl]
            exact hsteps.discard_advance_bind after
      refine Leads.step (arguments_of_ne (hcurrent ▸ hbegins.ne_rightParen)
        (hcurrent ▸ hbegins.ne_eof)) ?_
      have hread : Leads (Grammar.assignment levels) stream (first.assignmentRoom ≤ levels)
          (pure first) middle := hfirst hfront hends
      have hothers := (ih hrest (Nat.le_of_succ_le_succ hbound) hbehind).bind fun rest =>
        pure (first :: rest)
      refine (((hread.bind _).then_step (hcomma _)).trans fun _ => hothers).congr ?_
      rw [roomAll]
      exact Nat.max_le.symm

/-- A name is read together with the arguments after it. -/
theorem partReads (hpart : expr.isPart = true) (htext : expr.HasText)
    (hchildren : ∀ child ∈ expr.children, child.AssignmentReads ∧
      ∃ word rest, child.words = word :: rest ∧ child.Begins word.kind) : expr.PartReads := by
  cases expr with
  | var name =>
      refine ⟨name, [], rfl, htext, ?_⟩
      intro levels stream next hoffers hnext
      obtain rfl := hoffers.eq_of_nil
      exact (Leads.of_eq (named_of_ne_leftParen hnext name)).congr
        (iff_of_true trivial (Nat.zero_le _))
  | call name list =>
      refine ⟨name, _, rfl, htext, ?_⟩
      intro levels stream next hoffers _
      obtain ⟨inside, behind, hopen, hclose, hwords, hopening, hclosing⟩ := exists_enclosed hoffers
      have hopening : stream.current.kind = .leftParen := hopening.trans (by decide)
      have hclosing : behind.current.kind = .rightParen := hclosing.trans (by decide)
      have hbound : list.length ≤ inside.ahead.length + 1 := by
        have hne : ∀ argument ∈ list, argument.words ≠ [] := by
          intro argument hmem
          obtain ⟨-, word, rest, hwords, -⟩ := hchildren argument hmem
          simp [hwords]
        have hle := (length_le_length_wordsAll hne).trans hwords.length_le
        omega
      refine Leads.step (named_of_leftParen hopening name) ?_
      refine Leads.step (hopen.discard_advance_bind _) ?_
      refine Leads.step (run_stepBound_bind _ _) ?_
      exact ((leads_arguments hchildren hbound hwords hclosing).bind _).then_step
        (hclose.discard_expect_bind hclosing _)
  | _ => cases hpart

/-! ## Operands -/

/-- What is read without suffixes leads to the suffixes after it. -/
theorem leads_suffixes {head : ParseM Expr} (hcount : expr.suffixCount = 0)
    (h : Leads head stream (expr.room ≤ levels) (pure expr) next) :
    Leads (head >>= suffixes levels) stream (expr.room ≤ levels)
      (suffixes (levels - expr.suffixCount) expr) next := by
  rw [hcount]
  exact h.bind _

theorem operandReads_of_part (hpart : expr.isPart = true) (hreads : expr.PartReads) :
    expr.OperandReads := by
  intro levels stream next hoffers hnext
  obtain ⟨name, rest, hwords, hname, hrest⟩ := hreads
  rw [hwords] at hoffers
  obtain ⟨behind, hsteps, hword, hbehind⟩ := exists_steps hoffers
  have hkind : stream.current.kind = .identifier :=
    (congrArg Word.kind hword).trans hname.kind_eq
  have htext : stream.current.text = name := congrArg Word.text hword
  refine leads_suffixes (suffixCount_of_isPart hpart) ?_
  refine Leads.step (primary_of_identifier hkind) ?_
  refine Leads.step (hsteps.discard_advance_bind _) ?_
  rw [htext]
  exact hrest hbehind hnext

/-- An operand is read as a whole if no suffix follows. -/
theorem OperandReads.ends (h : expr.OperandReads) (hoffers : stream.Offers expr.words next)
    (hparen : next.current.kind ≠ .leftParen) (hbracket : next.current.kind ≠ .leftBracket)
    (hdot : next.current.kind ≠ .dot) :
    Leads (primary (Grammar.ternary levels) (Grammar.assignment levels) >>= suffixes levels) stream
      (expr.room ≤ levels) (pure expr) next :=
  (h hoffers hparen).then_step (suffixes_of_ne hbracket hdot)

theorem operandReads_constant {kind : LiteralKind} {text : String} (htext : Admits kind text) :
    (constant kind text).OperandReads := by
  intro levels stream next hoffers _
  obtain ⟨behind, hsteps, hword, hbehind⟩ := exists_steps hoffers
  obtain rfl := hbehind.eq_of_nil
  have hkind : LiteralKind.ofToken? stream.current.kind = some kind :=
    (congrArg (fun word => LiteralKind.ofToken? word.kind) hword).trans
      (LiteralKind.ofToken?_ofLiteral htext)
  have hvalue : stream.current.text = text :=
    (congrArg Word.text hword).trans (Word.ofLiteral_text kind text)
  refine leads_suffixes rfl ?_
  refine Leads.step (primary_of_literal hkind) ?_
  refine Leads.step (hsteps.discard_advance_bind _) ?_
  rw [hvalue]
  exact (Leads.of_eq rfl).congr (iff_of_true trivial (Nat.zero_le _))

theorem operandReads_group {inner : Expr} (hinner : inner.TernaryReads) :
    (group inner).OperandReads := by
  intro levels stream next hoffers _
  obtain ⟨inside, behind, hopen, hclose, hwords, hopening, hclosing⟩ := exists_enclosed hoffers
  have hopening : stream.current.kind = .leftParen := hopening.trans (by decide)
  have hclosing : behind.current.kind = .rightParen := hclosing.trans (by decide)
  have hends : EndsAssignment behind.current.kind := endsAssignment_of_mem (by simp [hclosing])
  refine leads_suffixes rfl ?_
  refine Leads.step (primary_of_leftParen hopening) ?_
  refine Leads.step (hopen.discard_advance_bind _) ?_
  exact ((hinner hwords hends.toEndsTernary).bind _).then_step
    (hclose.discard_expect_bind hclosing _)

theorem operandReads_member {target part : Expr} (htarget : target.OperandReads)
    (hpart : part.PartReads) : (member target part).OperandReads := by
  intro levels stream next hoffers hnext
  obtain ⟨middle, hfirst, hsecond⟩ := hoffers.split
  obtain ⟨name, rest, hwords, hname, hrest⟩ := hpart
  rw [hwords] at hsecond
  obtain ⟨behind, hdot, hdotWord, hbehind⟩ := exists_steps hsecond
  obtain ⟨last, hstep, hnameWord, hlast⟩ := exists_steps hbehind
  have hdotKind : middle.current.kind = .dot := (congrArg Word.kind hdotWord).trans (by decide)
  have hnameKind : behind.current.kind = .identifier :=
    (congrArg Word.kind hnameWord).trans hname.kind_eq
  have hnameText : behind.current.text = name := congrArg Word.text hnameWord
  have hsuffix : Leads (suffixes (levels - target.suffixCount) target) middle
      (target.suffixCount + 1 + part.room ≤ levels)
      (suffixes (levels - (target.suffixCount + 1)) (member target part)) next := by
    -- The suffix is refused for its depth at its first token, before it is read.
    cases hleft : levels - target.suffixCount with
    | zero => exact .of_not (by omega) (tooDeep_suffixes_zero (.inr hdotKind))
    | succ left =>
        have hless : levels - (target.suffixCount + 1) = left := by omega
        rw [hless]
        refine Leads.step (suffixes_of_dot hdotKind) ?_
        refine Leads.step (hdot.discard_advance_bind _) ?_
        refine Leads.step (hstep.expect_bind hnameKind _) ?_
        rw [hnameText]
        exact ((hrest hlast hnext).bind _).congr (by omega)
  refine ((htarget hfirst (by rw [hdotKind]; decide)).trans fun _ => hsuffix).congr ?_
  rw [room]
  exact Nat.max_le.symm

theorem operandReads_index {target position : Expr} (htarget : target.OperandReads)
    (hbinds : position.bindsAt 0 = true) (hposition : position.BinaryReads) :
    (index target position).OperandReads := by
  intro levels stream next hoffers _
  obtain ⟨middle, hfirst, hsecond⟩ := hoffers.split
  obtain ⟨inside, behind, hopen, hclose, hwords, hopening, hclosing⟩ := exists_enclosed hsecond
  have hopening : middle.current.kind = .leftBracket := hopening.trans (by decide)
  have hclosing : behind.current.kind = .rightBracket := hclosing.trans (by decide)
  have hends : EndsAssignment behind.current.kind := endsAssignment_of_mem (by simp [hclosing])
  have hsuffix : Leads (suffixes (levels - target.suffixCount) target) middle
      (target.suffixCount + 1 + (position.room + 1) ≤ levels)
      (suffixes (levels - (target.suffixCount + 1)) (index target position)) next := by
    cases hleft : levels - target.suffixCount with
    | zero => exact .of_not (by omega) (tooDeep_suffixes_zero (.inl hopening))
    | succ left =>
        have hless : levels - (target.suffixCount + 1) = left := by omega
        rw [hless]
        refine Leads.step (suffixes_of_leftBracket hopening) ?_
        refine Leads.step (hopen.discard_advance_bind _) ?_
        have hread : Leads (Grammar.binary left 0) inside (position.room + 1 ≤ left)
            (pure position) behind := hposition hbinds hwords hends.toEndsOperand hends.stops
        exact ((hread.bind _).then_step (hclose.discard_expect_bind hclosing _)).congr (by omega)
  refine ((htarget hfirst (by rw [hopening]; decide)).trans fun _ => hsuffix).congr ?_
  rw [room]
  exact Nat.max_le.symm

/-- The stream stands at the first word of the expression. -/
theorem begins_current (hoffers : stream.Offers expr.words next)
    (hbegins : ∃ word rest, expr.words = word :: rest ∧ expr.Begins word.kind) :
    expr.Begins stream.current.kind := by
  obtain ⟨word, rest, hwords, hbegins⟩ := hbegins
  rw [hwords] at hoffers
  have hkind : stream.current.kind = word.kind := congrArg Word.kind hoffers.current_eq
  rw [hkind]
  exact hbegins

/-! ## Operators before and after an operand -/

theorem unaryReads_of_operand (hoperand : expr.isOperand = true) (hreads : expr.OperandReads)
    (hbegins : ∃ word rest, expr.words = word :: rest ∧ expr.Begins word.kind) :
    expr.UnaryReads := by
  intro levels stream next hoffers hends
  have hnone := (begins_current hoffers hbegins).before?_eq_none hoperand
  refine Leads.step (unary_of_before?_eq_none hnone) ?_
  refine ((hreads.ends hoffers hends.ne_leftParen hends.ne_leftBracket hends.ne_dot).bind
    _).then_step ?_
  rw [pure_bind, run_kind_bind]
  simp only [hends.after?_eq_none]

theorem unaryReads_before {op : UnaryOp} {operand : Expr} (hop : ¬ op.isAfter = true)
    (hplace : op.mutates = true → operand.isPlace = true) (hreads : operand.OperandReads) :
    (unary op operand).UnaryReads := by
  intro levels stream next hoffers hends
  rw [words, if_neg hop] at hoffers
  obtain ⟨behind, hsteps, hsign, hbehind⟩ := exists_steps hoffers
  have hkind : UnaryOp.before? stream.current.kind = some op :=
    (congrArg (fun word => UnaryOp.before? word.kind) hsign).trans (UnaryOp.before?_symbol hop)
  refine Leads.step (unary_of_before? hkind) ?_
  refine Leads.step (hsteps.advance_bind _) ?_
  refine ((hreads.ends hbehind hends.ne_leftParen hends.ne_leftBracket hends.ne_dot).bind
    _).then_step ?_
  rw [pure_bind, applyUnary_of_place hplace]

theorem unaryReads_after {op : UnaryOp} {operand : Expr} (hop : op.isAfter = true)
    (hplace : op.mutates = true → operand.isPlace = true) (hoperand : operand.isOperand = true)
    (hreads : operand.OperandReads)
    (hbegins : ∃ word rest, operand.words = word :: rest ∧ operand.Begins word.kind) :
    (unary op operand).UnaryReads := by
  intro levels stream next hoffers _
  rw [words, if_pos hop] at hoffers
  obtain ⟨middle, hfirst, hsecond⟩ := hoffers.split
  obtain ⟨behind, hsteps, hsign, hbehind⟩ := exists_steps hsecond
  obtain rfl := hbehind.eq_of_nil
  have hkind : UnaryOp.after? middle.current.kind = some op :=
    (congrArg (fun word => UnaryOp.after? word.kind) hsign).trans (UnaryOp.after?_symbol hop)
  have hne {kind : Token.Kind} (hnone : UnaryOp.after? kind = none) :
      middle.current.kind ≠ kind := by
    rintro rfl
    rw [hkind] at hnone
    cases hnone
  have hnone := (begins_current hfirst hbegins).before?_eq_none hoperand
  refine Leads.step (unary_of_before?_eq_none hnone) ?_
  refine ((hreads.ends hfirst (hne rfl) (hne rfl) (hne rfl)).bind _).then_step ?_
  rw [pure_bind, run_kind_bind]
  simp only [hkind]
  rw [hsteps.advance_bind, applyUnary_of_place hplace]

/-! ## Chains -/

theorem chainReads_of_unary (hunary : expr.isUnary = true) (hreads : expr.UnaryReads) :
    expr.ChainReads := by
  intro levels floor stream next _ hoffers hends _
  rw [operatorCount_of_isUnary hunary]
  exact (hreads hoffers hends).bind _

/-- A chain leads to the next operator, which takes the chain as its left operand. -/
theorem chainReads_binary {op : BinaryOp} {left right : Expr}
    (hleftBinds : left.bindsAt op.leftFloor = true)
    (hrightBinds : right.bindsAt op.rightFloor = true) (hleft : left.ChainReads)
    (hright : right.BinaryReads) : (binary op left right).ChainReads := by
  intro levels floor stream next hbinds hoffers hends htakes
  have hfloor : floor ≤ op.precedence := of_decide_eq_true hbinds
  obtain ⟨middle, hfirst, hsecond⟩ := hoffers.split
  obtain ⟨behind, hsteps, hsign, hbehind⟩ := exists_steps hsecond
  have hop : BinaryOp.ofToken? middle.current.kind = some op :=
    (congrArg (fun word => BinaryOp.ofToken? word.kind) hsign).trans (BinaryOp.ofToken?_symbol op)
  have htaken : Takes 0 left middle.current.kind := by
    intro other hother _
    rw [hop] at hother
    cases hother
    exact hleftBinds
  -- What can take the whole chain cannot be taken for a part of its right operand.
  have hstops : Stops op.rightFloor next.current.kind := by
    intro other hother
    have hbinds := htakes other hother (Nat.zero_le _)
    exact BinaryOp.precedence_lt_rightFloor (of_decide_eq_true hbinds)
  have hfold : Leads (operators (levels - left.operatorCount) floor left) middle
      (left.operatorCount + 1 + (right.room + 1) ≤ levels)
      (operators (levels - (left.operatorCount + 1)) floor (binary op left right)) next := by
    cases hleft : levels - left.operatorCount with
    | zero => exact .of_not (by omega) (tooDeep_operators_zero hop hfloor)
    | succ fewer =>
        have hless : levels - (left.operatorCount + 1) = fewer := by omega
        rw [hless]
        refine Leads.step (operators_of_ofToken? hop hfloor) ?_
        refine Leads.step (hsteps.discard_advance_bind _) ?_
        have hread : Leads (Grammar.binary fewer op.rightFloor) behind (right.room + 1 ≤ fewer)
            (pure right) next := hright hrightBinds hbehind hends hstops
        exact (hread.bind _).congr (by omega)
  have hle : floor ≤ op.leftFloor := hfloor.trans op.precedence_le_leftFloor
  refine ((hleft (bindsAt_mono hleftBinds hle) hfirst (.of_binary hop) htaken).trans fun _ =>
    hfold).congr ?_
  rw [room]
  exact Nat.max_le.symm

theorem binaryReads_of_chain (hreads : expr.ChainReads) : expr.BinaryReads := by
  intro levels floor stream next hbinds hoffers hends hstops
  have htakes : Takes 0 expr next.current.kind := by
    intro op hop _
    have hlt := hstops op hop
    exact bindsAt_mono hbinds (op.leftFloor_le_succ.trans hlt)
  cases levels with
  | zero => exact .of_not (by omega) (tooDeep_refuseDepth _)
  | succ levels =>
      exact ((hreads hbinds hoffers hends htakes).then_step (operators_of_stops hstops)).congr
        Nat.succ_le_succ_iff.symm

/-! ## Conditions -/

theorem ternaryReads_of_binary (hbinds : expr.bindsAt 0 = true) (hreads : expr.BinaryReads) :
    expr.TernaryReads := by
  intro levels stream next hoffers hends
  have hlevels := ternaryLevels_of_bindsAt hbinds
  cases levels with
  | zero => exact .of_not (by rw [ternaryRoom, hlevels]; omega) (tooDeep_refuseDepth _)
  | succ levels =>
      refine (((hreads hbinds hoffers hends.toEndsOperand hends.stops).bind _).then_step ?_).congr
        (by rw [ternaryRoom, hlevels]; omega)
      exact branches_of_ne_question hends.ne_question

theorem ternaryReads_ternary {condition ifTrue ifFalse : Expr}
    (hbinds : condition.bindsAt 0 = true) (hcondition : condition.BinaryReads)
    (htrue : ifTrue.TernaryReads) (hfalse : ifFalse.TernaryReads) :
    (ternary condition ifTrue ifFalse).TernaryReads := by
  intro levels stream next hoffers hends
  obtain ⟨middle, hfirst, hothers⟩ := hoffers.split
  obtain ⟨inside, hquestion, hquestionWord, hinside⟩ := exists_steps hothers
  obtain ⟨behind, hsecond, hbehind⟩ := hinside.split
  obtain ⟨last, hcolon, hcolonWord, hthird⟩ := exists_steps hbehind
  have hquestionKind : middle.current.kind = .question :=
    (congrArg Word.kind hquestionWord).trans (by decide)
  have hcolonKind : behind.current.kind = .colon :=
    (congrArg Word.kind hcolonWord).trans (by decide)
  have hcolonEnds : EndsAssignment behind.current.kind :=
    endsAssignment_of_mem (by simp [hcolonKind])
  cases levels with
  | zero =>
      refine .of_not ?_ (tooDeep_refuseDepth _)
      rw [ternaryRoom, ternaryLevels]
      omega
  | succ levels =>
      -- All three parts are read with the same levels, one less than there are.
      have hread : Leads (Grammar.binary levels 0) stream (condition.room + 1 ≤ levels)
          (pure condition) middle :=
        hcondition hbinds hfirst (hquestionKind ▸ endsOperand_question)
          (hquestionKind ▸ .of_eq_none rfl)
      have hstart := (hread.bind fun condition => stepBound >>= fun bound =>
        branches (Grammar.ternary levels) bound condition).then_step
        ((branches_of_question hquestionKind).trans (hquestion.discard_advance_bind _))
      have htrueRead : Leads (Grammar.ternary levels) inside (ifTrue.ternaryRoom ≤ levels)
          (pure ifTrue) behind := htrue hsecond hcolonEnds.toEndsTernary
      have hmiddle := (htrueRead.bind fun ifTrue => discard (expect .colon) >>= fun _ =>
        Grammar.ternary levels >>= fun ifFalse =>
          branches (Grammar.ternary levels) middle.ahead.length
            (.ternary condition ifTrue ifFalse)).then_step
        (hcolon.discard_expect_bind hcolonKind _)
      have hfalseRead : Leads (Grammar.ternary levels) last (ifFalse.ternaryRoom ≤ levels)
          (pure ifFalse) next := hfalse hthird hends
      have hend := (hfalseRead.bind fun ifFalse =>
        branches (Grammar.ternary levels) middle.ahead.length
          (.ternary condition ifTrue ifFalse)).then_step
        (branches_of_ne_question hends.ne_question)
      have hroom : (ternary condition ifTrue ifFalse).ternaryRoom =
          max (condition.room + 1) (max ifTrue.ternaryRoom ifFalse.ternaryRoom) + 1 := rfl
      refine (hstart.trans fun _ => hmiddle.trans fun _ => hend).congr ?_
      rw [hroom]
      omega

/-! ## Assignments -/

theorem leads_declaration {other : ParseM Expr} {kind : DeclarationKind} {name : String}
    (hname : IsName name) (hoffers : stream.Offers (declaration kind name).words next) :
    Leads (declarationOr other) stream True (pure (declaration kind name)) next := by
  obtain ⟨middle, hsteps, hword, hmiddle⟩ := exists_steps hoffers
  obtain ⟨behind, hstep, hnameWord, hbehind⟩ := exists_steps hmiddle
  obtain rfl := hbehind.eq_of_nil
  have hkind : DeclarationKind.ofToken? stream.current.kind = some kind :=
    (congrArg (fun word => DeclarationKind.ofToken? word.kind) hword).trans
      (DeclarationKind.ofToken?_keyword kind)
  have hnameKind : middle.current.kind = .identifier :=
    (congrArg Word.kind hnameWord).trans hname.kind_eq
  have hnameText : middle.current.text = name := congrArg Word.text hnameWord
  apply Leads.of_eq
  rw [declarationOr, run_kind_bind]
  simp only [hkind]
  rw [hsteps.discard_advance_bind, hstep.expect_bind hnameKind, hnameText]

theorem declarationOr_of_eq_none {other : ParseM Expr}
    (h : DeclarationKind.ofToken? stream.current.kind = none) :
    (declarationOr other).run stream = other.run stream := by
  rw [declarationOr, run_kind_bind]
  simp only [h]

theorem checkTarget_of_fits {op : AssignOp} {target : Expr} {token : Token}
    (h : target.isPlace = true ∨ target.isDeclaration = true ∧ op = .assign) :
    checkTarget op target token = pure () := by
  rcases h with hplace | ⟨hdeclaration, rfl⟩
  · cases target <;> first | rfl | cases hplace
  · cases target <;> first | rfl | cases hdeclaration

theorem assignmentReads_of_ternary (hternary : expr.isTernary = true)
    (hreads : expr.TernaryReads)
    (hbegins : ∃ word rest, expr.words = word :: rest ∧ expr.Begins word.kind) :
    expr.AssignmentReads := by
  intro levels stream next hoffers hends
  have hlevels := assignmentLevels_of_isTernary hternary
  cases levels with
  | zero => exact .of_not (by rw [assignmentRoom, hlevels]; omega) (tooDeep_refuseDepth _)
  | succ levels =>
      have hnone := (begins_current hoffers hbegins).ofToken?_eq_none hternary
      have hread : Leads (declarationOr (Grammar.ternary levels)) stream
          (expr.ternaryRoom ≤ levels) (pure expr) next :=
        Leads.step (declarationOr_of_eq_none hnone) (hreads hoffers hends.toEndsTernary)
      have hroom : expr.assignmentRoom = expr.ternaryRoom + 1 := by
        rw [assignmentRoom, hlevels]
        rfl
      refine ((hread.bind _).then_step ?_).congr (by rw [hroom]; exact Nat.succ_le_succ_iff.symm)
      rw [pure_bind, run_kind_bind]
      simp only [hends.ofToken?_eq_none]

theorem assignmentReads_declaration {kind : DeclarationKind} {name : String}
    (hname : IsName name) : (declaration kind name).AssignmentReads := by
  intro levels stream next hoffers hends
  cases levels with
  | zero => exact .of_not (Nat.not_succ_le_zero _) (tooDeep_refuseDepth _)
  | succ levels =>
      refine (((leads_declaration hname hoffers).bind _).then_step ?_).congr
        (iff_of_true trivial (Nat.le_add_left _ _))
      rw [pure_bind, run_kind_bind]
      simp only [hends.ofToken?_eq_none]

/-- A value is read after a target that the operator can store to. -/
theorem assignmentReads_assignment {op : AssignOp} {target value : Expr}
    (hfits : target.isPlace = true ∨ target.isDeclaration = true ∧ op = .assign)
    (htext : target.HasText) (htarget : target.isTernary = true → target.TernaryReads)
    (hbegins : ∃ word rest, target.words = word :: rest ∧ target.Begins word.kind)
    (hvalue : value.AssignmentReads) : (assignment op target value).AssignmentReads := by
  intro levels stream next hoffers hends
  obtain ⟨middle, hfirst, hsecond⟩ := hoffers.split
  obtain ⟨behind, hsteps, hsign, hbehind⟩ := exists_steps hsecond
  have hop : AssignOp.ofToken? middle.current.kind = some op :=
    (congrArg (fun word => AssignOp.ofToken? word.kind) hsign).trans (AssignOp.ofToken?_symbol op)
  cases levels with
  | zero =>
      refine .of_not ?_ (tooDeep_refuseDepth _)
      rw [assignmentRoom, assignmentLevels]
      omega
  | succ levels =>
      have hread : Leads (declarationOr (Grammar.ternary levels)) stream
          ((if target.isDeclaration then 0 else target.ternaryRoom) ≤ levels) (pure target)
          middle := by
        -- A place is read as a condition without branches, a declaration by itself.
        rcases hfits with hplace | ⟨hdeclaration, -⟩
        · have hternary := isTernary_of_isOperand (isOperand_of_isPlace hplace)
          have hnot : ¬ target.isDeclaration = true := by
            cases target <;> first | exact Bool.false_ne_true | cases hplace
          have hnone := (begins_current hfirst hbegins).ofToken?_eq_none hternary
          rw [if_neg hnot]
          exact Leads.step (declarationOr_of_eq_none hnone)
            (htarget hternary hfirst (.of_assign hop))
        · rw [if_pos hdeclaration]
          cases target with
          | declaration kind name =>
              exact (leads_declaration htext hfirst).congr (iff_of_true trivial (Nat.zero_le _))
          | _ => cases hdeclaration
      have hstored : Leads (Grammar.assignment levels) behind (value.assignmentRoom ≤ levels)
          (pure value) next := hvalue hbehind hends
      have hstart : Leads (Grammar.assignment (levels + 1)) stream
          ((if target.isDeclaration then 0 else target.ternaryRoom) ≤ levels)
          (Grammar.assignment levels >>= fun value => pure (.assignment op target value))
          behind := by
        refine (hread.bind _).then_step ?_
        rw [pure_bind, run_kind_bind]
        simp only [hop]
        rw [hsteps.advance_bind, checkTarget_of_fits hfits, pure_bind]
      refine (hstart.trans fun _ => hstored.bind _).congr ?_
      exact Nat.max_le.symm.trans Nat.succ_le_succ_iff.symm

/-! ## All expressions -/

/-- The words of an expression are read on every level that the expression has. -/
theorem reads (hshape : expr.Grammatical) (htext : expr.Lexical) : expr.Reads := by
  induction hshape with
  | @intro expr hfits hparts ih =>
      have hchild (child : Expr) (hmem : child ∈ expr.children) : child.Reads :=
        ih child hmem (htext.parts child hmem)
      have hwhole (child : Expr) (hmem : child ∈ expr.children) : child.AssignmentReads ∧
          ∃ word rest, child.words = word :: rest ∧ child.Begins word.kind :=
        ⟨(hchild child hmem).assignment,
          exists_words_eq_cons (hparts child hmem) (htext.parts child hmem)⟩
      have hbegins := exists_words_eq_cons (.intro hfits hparts) htext
      -- Each level of the expression is read by way of the one below it.
      have hpart (h : expr.isPart = true) : expr.PartReads := partReads h htext.node hwhole
      have hoperand (h : expr.isOperand = true) : expr.OperandReads := by
        cases expr with
        | constant kind text => exact operandReads_constant htext.node
        | var name => exact operandReads_of_part rfl (hpart rfl)
        | group inner =>
            exact operandReads_group ((hchild inner (by simp [children])).ternary hfits)
        | call name list => exact operandReads_of_part rfl (hpart rfl)
        | member target part =>
            exact operandReads_member ((hchild target (by simp [children])).operand hfits.1)
              ((hchild part (by simp [children])).part hfits.2)
        | index target position =>
            exact operandReads_index ((hchild target (by simp [children])).operand hfits.1) hfits.2
              (binaryReads_of_chain ((hchild position (by simp [children])).chain hfits.2))
        | _ => cases h
      have hunary (h : expr.isUnary = true) : expr.UnaryReads := by
        cases expr with
        | unary op operand =>
            have hreads := (hchild operand (by simp [children])).operand hfits.1
            by_cases hop : op.isAfter = true
            · exact unaryReads_after hop hfits.2 hfits.1 hreads
                (hwhole operand (by simp [children])).2
            · exact unaryReads_before hop hfits.2 hreads
        | _ => exact unaryReads_of_operand h (hoperand h) hbegins
      have hchain (h : expr.bindsAt 0 = true) : expr.ChainReads := by
        cases expr with
        | binary op left right =>
            have hleft := (hchild left (by simp [children])).chain
              (bindsAt_mono hfits.1 (Nat.zero_le _))
            have hright := (hchild right (by simp [children])).chain
              (bindsAt_mono hfits.2 (Nat.zero_le _))
            exact chainReads_binary hfits.1 hfits.2 hleft (binaryReads_of_chain hright)
        | _ => exact chainReads_of_unary h (hunary h)
      have hternary (h : expr.isTernary = true) : expr.TernaryReads := by
        cases expr with
        | ternary condition ifTrue ifFalse =>
            have hcondition := (hchild condition (by simp [children])).chain hfits.1
            exact ternaryReads_ternary hfits.1 (binaryReads_of_chain hcondition)
              ((hchild ifTrue (by simp [children])).ternary hfits.2.1)
              ((hchild ifFalse (by simp [children])).ternary hfits.2.2)
        | _ => exact ternaryReads_of_binary h (binaryReads_of_chain (hchain h))
      refine ⟨hoperand, hpart, hunary, hchain, hternary, ?_⟩
      cases expr with
      | declaration kind name => exact assignmentReads_declaration htext.node
      | assignment op target value =>
          have htarget := hchild target (by simp [children])
          exact assignmentReads_assignment hfits (htext.parts target (by simp [children])).node
            htarget.ternary (hwhole target (by simp [children])).2
            (hchild value (by simp [children])).assignment
      | _ => exact assignmentReads_of_ternary rfl (hternary rfl) hbegins

end Expr

end ExprLang
