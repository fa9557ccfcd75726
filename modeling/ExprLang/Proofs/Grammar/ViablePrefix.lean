import ExprLang.Proofs.Grammar.Completion
import ExprLang.Proofs.Grammar.Refusal

/-!
# What stands before a refused token

A token that is refused for its kind is the first that cannot stand where it stands: the tokens
before it begin some expression of the grammar's shape. Each reading that fails is completed to an
expression that fits the place where it was read, and so is the construct around it.
-/

namespace ExprLang

namespace Grammar

open TokenStream

variable {α β : Type} {stream middle next : TokenStream} {error : GrammarError} {levels floor : Nat}
  {front first tokens : List Token}

/-! ## Readings that fail -/

/-- A reading refuses a token for its kind. -/
structure Refuses (reading : ParseM α) (stream : TokenStream) (error : GrammarError)
    (next : TokenStream) : Prop where
  run : reading.run stream = .error (.grammatical error) next
  found : error.found?.isSome = true

/-- The tokens of a stream before the one that an error concerns. -/
structure Halts (stream : TokenStream) (front : List Token) (error : GrammarError)
    (next : TokenStream) : Prop where
  passes : stream.Passes front next
  concerns : error.Concerns next.current

theorem Halts.here (h : error.Concerns stream.current) : Halts stream [] error stream :=
  ⟨.refl _, h⟩

theorem Halts.after (hpasses : stream.Passes first middle) (h : Halts middle front error next) :
    Halts stream (first ++ front) error next :=
  ⟨hpasses.trans h.passes, h.concerns⟩

theorem not_refuses_pure {a : α} : ¬ Refuses (pure a) stream error next := by
  rintro ⟨hrun, -⟩
  cases hrun

theorem not_refuses_refuseDepth : ¬ Refuses (refuseDepth : ParseM α) stream error next := by
  rintro ⟨hrun, hfound⟩
  cases hrun
  cases hfound

theorem not_refuses_advance : ¬ Refuses advance stream error next := by
  rintro ⟨hrun, -⟩
  obtain ⟨current, ahead, ending⟩ := stream
  cases ahead with
  | cons token ahead => cases hrun
  | nil => cases ending <;> cases hrun

namespace Refuses

variable {reading : ParseM α} {after : α → ParseM β}

theorem of_bind (h : Refuses (reading >>= after) stream error next) :
    Refuses reading stream error next ∨
      ∃ value middle, reading.run stream = .ok value middle ∧
        Refuses (after value) middle error next := by
  obtain ⟨hrun, hfound⟩ := h
  rw [EStateM.run_bind] at hrun
  split at hrun
  next heq => exact .inr ⟨_, _, heq, hrun, hfound⟩
  next heq =>
    cases hrun
    exact .inl ⟨heq, hfound⟩

theorem of_discard (h : Refuses (discard reading) stream error next) :
    Refuses reading stream error next := by
  obtain ⟨hrun, hfound⟩ := h
  rw [run_discard] at hrun
  split at hrun <;> cases hrun
  next heq => exact ⟨heq, hfound⟩

theorem of_kind_bind {after : Token.Kind → ParseM β}
    (h : Refuses (kind >>= after) stream error next) :
    Refuses (after stream.current.kind) stream error next :=
  ⟨h.run, h.found⟩

theorem of_current_bind {after : Token → ParseM β}
    (h : Refuses (current >>= after) stream error next) :
    Refuses (after stream.current) stream error next :=
  ⟨h.run, h.found⟩

theorem of_stepBound_bind {after : Nat → ParseM β}
    (h : Refuses (stepBound >>= after) stream error next) :
    Refuses (after (stream.ahead.length + 1)) stream error next :=
  ⟨h.run, h.found⟩

theorem of_advance_bind {after : Token → ParseM β} (hended : stream.Ended)
    (hkind : stream.current.kind ≠ .eof) (h : Refuses (advance >>= after) stream error next) :
    ∃ middle, stream.Passes [stream.current] middle ∧ middle.Ended ∧
      Refuses (after stream.current) middle error next := by
  rcases h.of_bind with h | ⟨token, middle, hstep, h⟩
  · exact absurd h not_refuses_advance
  · obtain ⟨rfl, hpasses⟩ := passes_of_advance hended hkind hstep
    exact ⟨middle, hpasses, hpasses.ended hended, h⟩

theorem of_discard_advance_bind {after : PUnit → ParseM β} (hended : stream.Ended)
    (hkind : stream.current.kind ≠ .eof)
    (h : Refuses (discard advance >>= after) stream error next) :
    ∃ middle, stream.Passes [stream.current] middle ∧ middle.Ended ∧
      Refuses (after ()) middle error next := by
  rcases h.of_bind with h | ⟨_, middle, hstep, h⟩
  · exact absurd h.of_discard not_refuses_advance
  · obtain ⟨token, hstep⟩ := discard_eq_ok_iff.mp hstep
    have hpasses := (passes_of_advance hended hkind hstep).2
    exact ⟨middle, hpasses, hpasses.ended hended, h⟩

theorem of_expect {expected : Token.Kind} (h : Refuses (expect expected) stream error next) :
    Halts stream [] error next := by
  have h := h.of_current_bind
  split at h
  · exact absurd h not_refuses_advance
  · obtain ⟨hrun, -⟩ := h
    cases hrun
    exact .here ⟨rfl, fun _ hfound => (Option.some.inj hfound).symm⟩

/-- Where one kind of token is expected, either another one is refused or reading goes on. -/
theorem of_expect_bind {after : Token → ParseM β} {expected : Token.Kind} (hended : stream.Ended)
    (hkind : expected ≠ .eof) (h : Refuses (expect expected >>= after) stream error next) :
    Halts stream [] error next ∨
      ∃ middle, stream.current.kind = expected ∧ stream.Passes [stream.current] middle ∧
        middle.Ended ∧ Refuses (after stream.current) middle error next := by
  rcases h.of_bind with h | ⟨token, middle, hstep, h⟩
  · exact .inl h.of_expect
  · obtain ⟨heq, rfl, hpasses⟩ := passes_of_expect hended hkind hstep
    exact .inr ⟨middle, heq, hpasses, hpasses.ended hended, h⟩

theorem of_discard_expect_bind {after : PUnit → ParseM β} {expected : Token.Kind}
    (hended : stream.Ended) (hkind : expected ≠ .eof)
    (h : Refuses (discard (expect expected) >>= after) stream error next) :
    Halts stream [] error next ∨
      ∃ middle, stream.current.kind = expected ∧ stream.Passes [stream.current] middle ∧
        middle.Ended ∧ Refuses (after ()) middle error next := by
  rcases h.of_bind with h | ⟨_, middle, hstep, h⟩
  · exact .inl h.of_discard.of_expect
  · obtain ⟨token, hstep⟩ := discard_eq_ok_iff.mp hstep
    obtain ⟨heq, -, hpasses⟩ := passes_of_expect hended hkind hstep
    exact .inr ⟨middle, heq, hpasses, hpasses.ended hended, h⟩

end Refuses

/-- Where a reading refuses a token for its kind, an expression of a given shape completes the
tokens before it. -/
def Leaves (reading : ParseM Expr) (shape : Expr → Prop) : Prop :=
  ∀ ⦃stream next : TokenStream⦄ ⦃error : GrammarError⦄, stream.Ended →
    Refuses reading stream error next →
    ∃ front expr, Halts stream front error next ∧ expr.Completes front ∧ shape expr

/-- Where a reading that goes on after an expression refuses a token for its kind, an expression of
a given shape completes the tokens of the expression and those before the refused one. -/
def LeavesAfter (reading : Expr → ParseM Expr) (before : Expr → Token.Kind → Prop)
    (shape : Expr → Prop) : Prop :=
  ∀ ⦃stream next : TokenStream⦄ ⦃error : GrammarError⦄ ⦃expr : Expr⦄ ⦃tokens : List Token⦄,
    stream.Ended → expr.Spelled tokens → expr.Grammatical → before expr stream.current.kind →
    Refuses (reading expr) stream error next →
    ∃ front answer, Halts stream front error next ∧ answer.Completes (tokens ++ front) ∧
      shape answer

/-- If a reading and what follows it refuse a token, either the reading leaves its tokens to be
completed or it has read an expression. -/
theorem Leaves.of_bind {reading : ParseM Expr} {shape : Expr → Prop}
    {condition : Expr → Token.Kind → Prop} {after : Expr → ParseM β}
    (hleaves : Leaves reading shape) (hreads : Reads reading condition) (hended : stream.Ended)
    (h : Refuses (reading >>= after) stream error next) :
    (∃ front expr, Halts stream front error next ∧ expr.Completes front ∧ shape expr) ∨
      ∃ expr middle tokens, stream.Passes tokens middle ∧ middle.Ended ∧ expr.Spelled tokens ∧
        expr.Grammatical ∧ condition expr middle.current.kind ∧
        Refuses (after expr) middle error next := by
  rcases h.of_bind with h | ⟨expr, middle, hrun, h⟩
  · exact .inl (hleaves hended h)
  · obtain ⟨tokens, hpasses, hspelled, hgrammatical, hcondition⟩ := hreads hended hrun
    exact .inr ⟨expr, middle, tokens, hpasses, hpasses.ended hended, hspelled, hgrammatical,
      hcondition, h⟩

/-- A reading that goes on after an expression goes on after the longer one that it has read. -/
theorem LeavesAfter.onward {reading : Expr → ParseM Expr} {before : Expr → Token.Kind → Prop}
    {shape : Expr → Prop} {expr : Expr} (h : LeavesAfter reading before shape)
    (hended : stream.Ended) (hpasses : stream.Passes first middle)
    (hspelled : expr.Spelled (tokens ++ first)) (hgrammatical : expr.Grammatical)
    (hbefore : before expr middle.current.kind)
    (hrefuses : Refuses (reading expr) middle error next) :
    ∃ front answer, Halts stream front error next ∧ answer.Completes (tokens ++ front) ∧
      shape answer := by
  obtain ⟨front, answer, hhalts, hcompletes, hshape⟩ :=
    h (hpasses.ended hended) hspelled hgrammatical hbefore hrefuses
  exact ⟨_, answer, .after hpasses hhalts, by simpa using hcompletes, hshape⟩

/-- What completes the first of two readings, or is read after it, completes both. -/
theorem Leaves.bind {reading : ParseM Expr} {after : Expr → ParseM Expr} {before : Expr → Prop}
    {condition takes : Expr → Token.Kind → Prop} {shape : Expr → Prop}
    (hleaves : Leaves reading before) (hreads : Reads reading condition)
    (hrest : LeavesAfter after takes shape) (hshape : ∀ expr, before expr → shape expr)
    (htakes : ∀ expr kind, condition expr kind → takes expr kind) :
    Leaves (reading >>= after) shape := by
  intro stream next error hended h
  rcases hleaves.of_bind hreads hended h with ⟨front, expr, hhalts, hcompletes, hexpr⟩ |
    ⟨expr, middle, tokens, hpasses, hmiddle, hspelled, hgrammatical, hcondition, h⟩
  · exact ⟨front, expr, hhalts, hcompletes, hshape expr hexpr⟩
  · obtain ⟨front, answer, hhalts, hcompletes, hanswer⟩ :=
      hrest hmiddle hspelled hgrammatical (htakes _ _ hcondition) h
    exact ⟨_, answer, .after hpasses hhalts, hcompletes, hanswer⟩

/-! ## Calls -/

theorem arguments_leaves {argument : ParseM Expr}
    (hreads : Reads argument fun expr _ => expr.assignmentRoom ≤ levels)
    (hleaves : Leaves argument fun _ => True) {bound : Nat} (hended : stream.Ended)
    (h : Refuses (arguments argument bound) stream error next) :
    ∃ front row, Halts stream front error next ∧ Argument.Complete row front := by
  induction bound generalizing stream with
  | zero => exact absurd h not_refuses_pure
  | succ bound ih =>
      have h := h.of_kind_bind
      split at h
      · exact absurd h not_refuses_pure
      · exact absurd h not_refuses_pure
      rcases hleaves.of_bind hreads hended h with ⟨front, expr, hhalts, hcompletes, -⟩ |
        ⟨expr, middle, tokens, hpasses, hmiddle, hspelled, hgrammatical, -, h⟩
      · obtain ⟨row, hrow⟩ := Argument.Complete.single hcompletes
        exact ⟨front, row, hhalts, hrow⟩
      have h := h.of_kind_bind
      dsimp only at h
      split at h
      -- The argument belongs to the row of what completes the rest, with or without a comma.
      next hcomma =>
        obtain ⟨behind, hstep, hbehind, h⟩ :=
          h.of_discard_advance_bind hmiddle (by rw [hcomma]; decide)
        rcases h.of_bind with h | ⟨rest, last, -, h⟩
        · obtain ⟨front, row, hhalts, hrow⟩ := ih hbehind h
          refine ⟨_, ⟨expr, tokens, some middle.current⟩ :: row,
            .after (hpasses.trans hstep) hhalts, ?_⟩
          refine .cons ⟨hspelled, hgrammatical⟩ ?_ hrow
          rintro comma ⟨⟩
          exact hcomma
        · exact absurd h not_refuses_pure
      next =>
        rcases h.of_bind with h | ⟨rest, last, -, h⟩
        · obtain ⟨front, row, hhalts, hrow⟩ := ih hmiddle h
          refine ⟨_, ⟨expr, tokens, none⟩ :: row, .after hpasses hhalts, ?_⟩
          have hcons : Argument.Complete (⟨expr, tokens, none⟩ :: row)
              (Argument.row ⟨expr, tokens, none⟩ ++ front) :=
            .cons ⟨hspelled, hgrammatical⟩ nofun hrow
          rwa [Argument.row, Option.toList_none, List.append_nil] at hcons
        · exact absurd h not_refuses_pure

/-- A name with arguments that are not closed is completed to a call. -/
theorem named_leaves {argument : ParseM Expr}
    (hreads : Reads argument fun expr _ => expr.assignmentRoom ≤ levels)
    (hleaves : Leaves argument fun _ => True) {name : Token} (hname : name.kind = .identifier)
    (hended : stream.Ended) (h : Refuses (named argument name.text) stream error next) :
    ∃ (front : List Token) (part : Expr), Halts stream front error next ∧
      part.Completes (name :: front) ∧ part.isPart = true := by
  have h := h.of_kind_bind
  split at h
  next hopening =>
    obtain ⟨inside, hstep, hinside, h⟩ :=
      h.of_discard_advance_bind hended (by rw [hopening]; decide)
    rcases h.of_stepBound_bind.of_bind with h | ⟨list, behind, hlist, h⟩
    · obtain ⟨front, row, hhalts, hrow⟩ := arguments_leaves hreads hleaves hinside h
      exact ⟨_, _, .after hstep hhalts, .call hname hopening hrow, rfl⟩
    · obtain ⟨row, -, hpasses, hpieces, hcommas⟩ := arguments_sound hreads hinside hlist
      have hrow := Argument.Complete.of_forall
        (fun piece hmem => ⟨(hpieces piece hmem).1, (hpieces piece hmem).2.1⟩) hcommas
      rcases h.of_discard_expect_bind (hpasses.ended hinside) (by decide) with
        hhalts | ⟨last, -, -, -, h⟩
      · refine ⟨_, .call name.text (row.map Argument.expr),
          .after (hstep.trans hpasses) hhalts, ?_, rfl⟩
        simpa using Expr.Completes.call hname hopening hrow
      · exact absurd h not_refuses_pure
  next => exact absurd h not_refuses_pure

/-! ## Operands -/

theorem primary_leaves {inner argument : ParseM Expr}
    (hinner : Reads inner fun expr _ => expr.isTernary = true ∧ expr.ternaryRoom ≤ levels)
    (hinnerLeaves : Leaves inner fun expr => expr.isTernary = true)
    (hargument : Reads argument fun expr _ => expr.assignmentRoom ≤ levels)
    (hargumentLeaves : Leaves argument fun _ => True) :
    Leaves (primary inner argument) fun expr => expr.isOperand = true := by
  intro stream next error hended h
  have h := h.of_current_bind
  split at h
  next hname =>
    obtain ⟨behind, hstep, hbehind, h⟩ :=
      h.of_discard_advance_bind hended (by rw [hname]; decide)
    obtain ⟨front, part, hhalts, hcompletes, hpart⟩ :=
      named_leaves hargument hargumentLeaves hname hbehind h
    exact ⟨_, part, .after hstep hhalts, hcompletes, Expr.isOperand_of_isPart hpart⟩
  next hopening =>
    obtain ⟨inside, hstep, hinside, h⟩ :=
      h.of_discard_advance_bind hended (by rw [hopening]; decide)
    rcases hinnerLeaves.of_bind hinner hinside h with ⟨front, held, hhalts, hcompletes, hshape⟩ |
      ⟨held, behind, tokens, hpasses, hbehind, hspelled, hgrammatical, ⟨hshape, -⟩, h⟩
    · exact ⟨_, .group held, .after hstep hhalts, .group hopening hcompletes hshape, rfl⟩
    · rcases h.of_discard_expect_bind hbehind (by decide) with hhalts | ⟨last, -, -, -, h⟩
      · refine ⟨_, .group held, .after (hstep.trans hpasses) hhalts, ?_, rfl⟩
        simpa using Expr.Completes.group hopening (hspelled.completes hgrammatical) hshape
      · exact absurd h not_refuses_pure
  next =>
    split at h
    next literal hliteral =>
      have hkind : stream.current.kind ≠ .eof := ne_eof_of_eq_some rfl hliteral
      obtain ⟨behind, -, -, h⟩ := h.of_discard_advance_bind hended hkind
      exact absurd h not_refuses_pure
    next =>
      obtain ⟨hrun, -⟩ := h
      cases hrun
      exact ⟨[], .var _, .here ⟨rfl, fun _ hfound => (Option.some.inj hfound).symm⟩, .placeholder,
        rfl⟩

/-- A suffix that is not closed belongs to what completes the target. -/
theorem suffixes_leaves_succ
    (hposition : Reads (binary levels 0) fun expr kind =>
      expr.bindsAt 0 = true ∧ expr.room + 1 ≤ levels ∧ Stops 0 kind)
    (hpositionLeaves : Leaves (binary levels 0) fun expr => expr.bindsAt 0 = true)
    (hargument : Reads (assignment levels) fun expr _ => expr.assignmentRoom ≤ levels)
    (hargumentLeaves : Leaves (assignment levels) fun _ => True)
    (hrest : LeavesAfter (suffixes levels) (fun expr _ => expr.isOperand = true)
      fun expr => expr.isOperand = true) :
    LeavesAfter (suffixes (levels + 1)) (fun expr _ => expr.isOperand = true)
      fun expr => expr.isOperand = true := by
  intro stream next error target tokens hended hspelled hgrammatical hoperand h
  rw [suffixes] at h
  have h := h.of_kind_bind
  split at h
  next hopening =>
    obtain ⟨inside, hstep, hinside, h⟩ :=
      h.of_discard_advance_bind hended (by rw [hopening]; decide)
    rcases hpositionLeaves.of_bind hposition hinside h with
      ⟨front, position, hhalts, hcompletes, hbinds⟩ |
        ⟨position, behind, second, hpasses, hbehind, hsecond, hgood, ⟨hbinds, -⟩, h⟩
    · refine ⟨_, .index target position, .after hstep hhalts, ?_, rfl⟩
      simpa using Expr.Completes.index hspelled hgrammatical hopening hcompletes ⟨hoperand, hbinds⟩
    · rcases h.of_discard_expect_bind hbehind (by decide) with
        hhalts | ⟨last, hkind, hclosing, hlast, h⟩
      · refine ⟨_, .index target position, .after (hstep.trans hpasses) hhalts, ?_, rfl⟩
        simpa using Expr.Completes.index hspelled hgrammatical hopening (hsecond.completes hgood)
          ⟨hoperand, hbinds⟩
      · have hindex : (Expr.index target position).Grammatical :=
          .intro ⟨hoperand, hbinds⟩ (Expr.Everywhere.pair hgrammatical hgood)
        have hspelling := Expr.Spelled.index hspelled hopening hsecond hkind
        exact hrest.onward hended ((hstep.trans hpasses).trans hclosing)
          (by simpa using hspelling) hindex rfl h
  next hdot =>
    obtain ⟨behind, hstep, hbehind, h⟩ := h.of_discard_advance_bind hended (by rw [hdot]; decide)
    rcases h.of_expect_bind hbehind (by decide) with hhalts | ⟨inside, hkind, hname, hinside, h⟩
    · refine ⟨_, .member target (.var Token.placeholder.text), .after hstep hhalts, ?_, rfl⟩
      simpa using Expr.Completes.member hspelled hgrammatical hdot .placeholder ⟨hoperand, rfl⟩
    rcases h.of_bind with h | ⟨part, last, hpart, h⟩
    · obtain ⟨front, part, hhalts, hcompletes, hpart⟩ :=
        named_leaves hargument hargumentLeaves hkind hinside h
      refine ⟨_, .member target part, .after (hstep.trans hname) hhalts, ?_, rfl⟩
      simpa using Expr.Completes.member hspelled hgrammatical hdot hcompletes ⟨hoperand, hpart⟩
    · obtain ⟨second, hpasses, hsecond, hgood, hispart, -⟩ :=
        named_sound hargument hkind hinside hpart
      have hmember : (Expr.member target part).Grammatical :=
        .intro ⟨hoperand, hispart⟩ (Expr.Everywhere.pair hgrammatical hgood)
      have hspelling := Expr.Spelled.member hspelled hdot hsecond
      exact hrest.onward hended ((hstep.trans hname).trans hpasses) (by simpa using hspelling)
        hmember rfl h
  next => exact absurd h not_refuses_pure

theorem not_refuses_applyUnary {op : UnaryOp} {operand : Expr} {token : Token} :
    ¬ Refuses (applyUnary op operand token) stream error next := by
  rintro ⟨hrun, hfound⟩
  rw [applyUnary] at hrun
  split at hrun <;> cases hrun
  cases hfound

/-- A step before an operand that is not there yet will work on a member of it. -/
theorem unary_leaves {operand : ParseM Expr}
    (hreads : Reads operand fun expr _ => expr.isOperand = true ∧ expr.room ≤ levels)
    (hleaves : Leaves operand fun expr => expr.isOperand = true) :
    Leaves (unary operand) fun expr => expr.isUnary = true := by
  intro stream next error hended h
  have h := h.of_kind_bind
  split at h
  next op hsign =>
    have hkind : stream.current.kind ≠ .eof := ne_eof_of_eq_some rfl hsign
    obtain ⟨behind, hstep, hbehind, h⟩ := h.of_advance_bind hended hkind
    rcases hleaves.of_bind hreads hbehind h with ⟨front, held, hhalts, hcompletes, hshape⟩ |
      ⟨_, _, _, _, _, _, _, _, h⟩
    · -- What completes the operand may be no place, but a member of it is one.
      obtain ⟨operand, hoperand⟩ := Expr.Completes.before hsign hcompletes hshape
      exact ⟨_, .unary op operand, .after hstep hhalts, hoperand, rfl⟩
    · exact absurd h not_refuses_applyUnary
  next =>
    rcases hleaves.of_bind hreads hended h with ⟨front, held, hhalts, hcompletes, hshape⟩ |
      ⟨held, middle, tokens, hpasses, hmiddle, _, _, _, h⟩
    · exact ⟨front, held, hhalts, hcompletes, Expr.isUnary_of_isOperand hshape⟩
    · have h := h.of_kind_bind
      split at h
      next op hsign =>
        have hkind : middle.current.kind ≠ .eof := ne_eof_of_eq_some rfl hsign
        obtain ⟨behind, -, -, h⟩ := h.of_advance_bind hmiddle hkind
        exact absurd h not_refuses_applyUnary
      next => exact absurd h not_refuses_pure

/-! ## Chains -/

theorem operators_leaves_succ
    (hright : ∀ floor, Reads (binary levels floor) fun expr kind =>
      expr.bindsAt floor = true ∧ expr.room + 1 ≤ levels ∧ Stops floor kind)
    (hrightLeaves : ∀ floor, Leaves (binary levels floor) fun expr => expr.bindsAt floor = true)
    (hrest : LeavesAfter (operators levels floor) (Takes floor)
      fun expr => expr.bindsAt floor = true) :
    LeavesAfter (operators (levels + 1) floor) (Takes floor)
      fun expr => expr.bindsAt floor = true := by
  intro stream next error left tokens hended hspelled hgrammatical htakes h
  rw [operators] at h
  have h := h.of_kind_bind
  split at h
  next op hop =>
    split at h
    · exact absurd h not_refuses_pure
    next hfloor =>
      have hfloor : floor ≤ op.precedence := Nat.le_of_not_lt hfloor
      have hkind : stream.current.kind ≠ .eof := ne_eof_of_eq_some rfl hop
      obtain ⟨behind, hstep, hbehind, h⟩ := h.of_discard_advance_bind hended hkind
      rcases (hrightLeaves op.rightFloor).of_bind (hright op.rightFloor) hbehind h with
        ⟨front, right, hhalts, hcompletes, hbinds⟩ |
          ⟨right, middle, second, hpasses, hmiddle, hsecond, hgood, ⟨hbinds, -, hstops⟩, h⟩
      · refine ⟨_, .binary op left right, .after hstep hhalts, ?_, decide_eq_true hfloor⟩
        simpa using Expr.Completes.binary hspelled hgrammatical hop hcompletes
          ⟨htakes op hop hfloor, hbinds⟩
      · have hfold : (Expr.binary op left right).Grammatical :=
          .intro ⟨htakes op hop hfloor, hbinds⟩ (Expr.Everywhere.pair hgrammatical hgood)
        -- The operator at which the right operand stops has all of this on its left.
        have hnext : Takes floor (.binary op left right) middle.current.kind := by
          intro other hother _
          exact decide_eq_true (BinaryOp.leftFloor_le_precedence (hstops other hother))
        have hspelling := Expr.Spelled.binary hspelled hop hsecond
        exact hrest.onward hended (hstep.trans hpasses) (by simpa using hspelling) hfold hnext h
  next => exact absurd h not_refuses_pure

/-! ## Conditions -/

theorem ternary_leaves_succ
    (hcondition : Reads (binary levels 0) fun expr kind =>
      expr.bindsAt 0 = true ∧ expr.room + 1 ≤ levels ∧ Stops 0 kind)
    (hconditionLeaves : Leaves (binary levels 0) fun expr => expr.bindsAt 0 = true)
    (hbranch : Reads (ternary levels) fun expr kind =>
      expr.isTernary = true ∧ expr.ternaryRoom ≤ levels ∧ kind ≠ .question)
    (hbranchLeaves : Leaves (ternary levels) fun expr => expr.isTernary = true) :
    Leaves (ternary (levels + 1)) fun expr => expr.isTernary = true := by
  intro stream next error hended h
  rw [ternary] at h
  rcases hconditionLeaves.of_bind hcondition hended h with
    ⟨front, condition, hhalts, hcompletes, hbinds⟩ |
      ⟨condition, middle, first, hpasses, hmiddle, hspelled, hgrammatical, ⟨hbinds, -⟩, h⟩
  · exact ⟨front, condition, hhalts, hcompletes, Expr.isTernary_of_bindsAt hbinds⟩
  have h := h.of_stepBound_bind
  rw [branches] at h
  have h := h.of_kind_bind
  split at h
  next hquestion =>
    obtain ⟨behind, hstep, hbehind, h⟩ :=
      h.of_discard_advance_bind hmiddle (by rw [hquestion]; decide)
    have hstep := hpasses.trans hstep
    rcases hbranchLeaves.of_bind hbranch hbehind h with
      ⟨front, ifTrue, hhalts, hcompletes, hshape⟩ |
        ⟨ifTrue, inside, second, htrue, hinside, hsecond, htrueGood, ⟨htrueShape, -⟩, h⟩
    · exact ⟨_, .ternary condition ifTrue _, .after hstep hhalts,
        .ifTrue hspelled hgrammatical hbinds hquestion hcompletes hshape, rfl⟩
    rcases h.of_discard_expect_bind hinside (by decide) with
      hhalts | ⟨beyond, hcolon, hcolonStep, hbeyond, h⟩
    · -- The first branch is complete, and so is anything that it completes.
      refine ⟨_, .ternary condition ifTrue (.var Token.placeholder.text),
        .after (hstep.trans htrue) hhalts, ?_, rfl⟩
      simpa using Expr.Completes.ifTrue hspelled hgrammatical hbinds hquestion
        (hsecond.completes htrueGood) htrueShape
    rcases hbranchLeaves.of_bind hbranch hbeyond h with
      ⟨front, ifFalse, hhalts, hcompletes, hshape⟩ |
        ⟨ifFalse, last, _, _, _, _, _, ⟨-, -, hlast⟩, h⟩
    · refine ⟨_, .ternary condition ifTrue ifFalse,
        .after ((hstep.trans htrue).trans hcolonStep) hhalts, ?_, rfl⟩
      simpa using Expr.Completes.ifFalse hspelled hquestion hsecond hcolon hgrammatical htrueGood
        hcompletes ⟨hbinds, htrueShape, hshape⟩
    · -- After the last branch no condition goes on.
      have hrun := h.run
      rw [branches_of_ne_question hlast] at hrun
      cases hrun
  next => exact absurd h not_refuses_pure

/-! ## Assignments -/

theorem declarationOr_leaves {other : ParseM Expr}
    (hleaves : Leaves other fun expr => expr.isTernary = true) :
    Leaves (declarationOr other) fun _ => True := by
  intro stream next error hended h
  have h := h.of_kind_bind
  split at h
  next declaration hword =>
    have hkind : stream.current.kind ≠ .eof := ne_eof_of_eq_some rfl hword
    obtain ⟨behind, hstep, hbehind, h⟩ := h.of_discard_advance_bind hended hkind
    rcases h.of_expect_bind hbehind (by decide) with hhalts | ⟨last, -, -, -, h⟩
    · exact ⟨_, _, .after hstep hhalts, .declaration hword, trivial⟩
    · exact absurd h not_refuses_pure
  next =>
    obtain ⟨front, expr, hhalts, hcompletes, -⟩ := hleaves hended h
    exact ⟨front, expr, hhalts, hcompletes, trivial⟩

theorem not_refuses_checkTarget {op : AssignOp} {target : Expr} {token : Token} :
    ¬ Refuses (checkTarget op target token) stream error next := by
  rintro ⟨hrun, hfound⟩
  unfold checkTarget at hrun
  split at hrun <;> split at hrun <;> cases hrun <;> cases hfound

theorem assignment_leaves_succ
    (htarget : Reads (ternary levels) fun expr kind =>
      expr.isTernary = true ∧ expr.ternaryRoom ≤ levels ∧ kind ≠ .question)
    (htargetLeaves : Leaves (ternary levels) fun expr => expr.isTernary = true)
    (hvalueLeaves : Leaves (assignment levels) fun _ => True) :
    Leaves (assignment (levels + 1)) fun _ => True := by
  intro stream next error hended h
  rw [assignment] at h
  rcases (declarationOr_leaves htargetLeaves).of_bind
    (declarationOr_reads (htarget.imp fun _ _ h => ⟨h.1, h.2.1⟩)) hended h with
    hleft | ⟨target, middle, first, hpasses, hmiddle, hspelled, hgrammatical, -, h⟩
  · exact hleft
  have h := h.of_kind_bind
  split at h
  next => exact absurd h not_refuses_pure
  next op hsign =>
    have hkind : middle.current.kind ≠ .eof := ne_eof_of_eq_some rfl hsign
    obtain ⟨behind, hstep, hbehind, h⟩ := h.of_advance_bind hmiddle hkind
    rcases h.of_bind with h | ⟨_, inside, hcheck, hstored⟩
    · exact absurd h not_refuses_checkTarget
    obtain ⟨rfl, hfits⟩ := of_checkTarget hcheck
    rcases hstored.of_bind with h | ⟨_, _, _, h⟩
    · obtain ⟨front, value, hhalts, hcompletes, -⟩ := hvalueLeaves hbehind h
      exact ⟨_, _, .after (hpasses.trans hstep) hhalts,
        .assignment hspelled hgrammatical hsign hcompletes hfits, trivial⟩
    · exact absurd h not_refuses_pure

/-! ## All levels -/

/-- What the mutually recursive readings with the same number of levels leave to be completed. -/
structure Leaving (levels : Nat) : Prop where
  assignment : Leaves (assignment levels) fun _ => True
  ternary : Leaves (ternary levels) fun expr => expr.isTernary = true
  binary : ∀ floor, Leaves (binary levels floor) fun expr => expr.bindsAt floor = true
  operators : ∀ floor, LeavesAfter (operators levels floor) (Takes floor)
    fun expr => expr.bindsAt floor = true
  suffixes : LeavesAfter (suffixes levels) (fun expr _ => expr.isOperand = true)
    fun expr => expr.isOperand = true

/-- Without levels nothing is refused but the depth. -/
theorem leaving_zero : Leaving 0 where
  assignment := fun _ _ _ _ h => absurd h not_refuses_refuseDepth
  ternary := fun _ _ _ _ h => absurd h not_refuses_refuseDepth
  binary := fun _ _ _ _ _ h => absurd h not_refuses_refuseDepth
  operators := by
    intro floor stream next error left tokens _ _ _ _ h
    have h := h.of_kind_bind
    split at h
    · split at h
      · exact absurd h not_refuses_pure
      · exact absurd h not_refuses_refuseDepth
    · exact absurd h not_refuses_pure
  suffixes := by
    intro stream next error target tokens _ _ _ _ h
    have h := h.of_kind_bind
    split at h
    · exact absurd h not_refuses_refuseDepth
    · exact absurd h not_refuses_refuseDepth
    · exact absurd h not_refuses_pure

theorem leaving_succ (hsound : Sound levels) (h : Leaving levels) : Leaving (levels + 1) where
  assignment := assignment_leaves_succ hsound.ternary h.ternary h.assignment
  ternary := ternary_leaves_succ (hsound.binary 0) (h.binary 0) hsound.ternary h.ternary
  binary := by
    intro floor stream next error hended hrefuses
    rw [Grammar.binary] at hrefuses
    have hprimary := primary_reads (hsound.ternary.imp fun _ _ h => ⟨h.1, h.2.1⟩) hsound.assignment
    have hprimaryLeaves := primary_leaves (hsound.ternary.imp fun _ _ h => ⟨h.1, h.2.1⟩) h.ternary
      hsound.assignment h.assignment
    have hoperand : Leaves (primary (Grammar.ternary levels) (Grammar.assignment levels) >>=
        Grammar.suffixes levels) fun expr => expr.isOperand = true :=
      hprimaryLeaves.bind hprimary h.suffixes (fun _ h => h) fun _ _ h => h.1
    refine ((unary_leaves hsound.operand hoperand).bind (unary_reads hsound.operand)
      (h.operators floor) (fun _ => Expr.bindsAt_of_isUnary) ?_) hended hrefuses
    exact fun _ _ h _ _ _ => Expr.bindsAt_of_isUnary h.1
  operators := fun _ => operators_leaves_succ hsound.binary h.binary (h.operators _)
  suffixes := suffixes_leaves_succ (hsound.binary 0) (h.binary 0) hsound.assignment h.assignment
    h.suffixes

theorem leaving (levels : Nat) : Leaving levels := by
  induction levels with
  | zero => exact leaving_zero
  | succ levels ih => exact leaving_succ (sound levels) ih

theorem wholeExpression_leaves : Leaves wholeExpression fun _ => True := by
  intro stream next error hended h
  rw [wholeExpression, expression] at h
  rcases (leaving nestingLimit).assignment.of_bind (sound nestingLimit).assignment hended h with
    hleft | ⟨expr, middle, tokens, hpasses, -, hspelled, hgrammatical, -, h⟩
  · exact hleft
  have h := h.of_current_bind
  split at h
  · exact absurd h not_refuses_pure
  · obtain ⟨hrun, -⟩ := h
    cases hrun
    exact ⟨tokens, expr,
      ⟨hpasses, rfl, fun _ hfound => (Option.some.inj hfound).symm⟩,
      hspelled.completes hgrammatical, trivial⟩

end Grammar

variable {source : String} {error : GrammarError}

/-- The token that is refused stands in its text after tokens that can be completed. -/
theorem exists_refused_of_parse (h : parse source = .error (.grammatical error))
    (hfound : error.found?.isSome = true) :
    ∃ before token after, (Text.Cursor.ofText source.toList).tokens.1 = before ++ token :: after ∧
      error.Concerns token ∧ ∃ expr : Expr, expr.Completes before := by
  cases hstream : TokenStream.ofText source with
  | error fault =>
      unfold parse Parser.ofText at h
      rw [hstream] at h
      cases h
  | ok stream =>
      rw [parse_eq_run hstream] at h
      split at h <;> cases h
      next next hrun =>
        -- Nothing stands before the end of a text without tokens, and a name completes nothing.
        by_cases heof : stream.current.kind = .eof
        · rw [run_wholeExpression_of_eof heof] at hrun
          cases hrun
          obtain ⟨after, hcurrent, -⟩ := TokenStream.ofText_eq_ok_iff.mp hstream
          refine ⟨[], stream.current, [], ?_, ⟨rfl, fun kind hkind => ?_⟩, _, .placeholder⟩
          · rw [Text.Cursor.tokens_of_eof hcurrent heof]
            rfl
          · rw [heof]
            exact (Option.some.inj hkind).symm
        · obtain ⟨front, expr, hhalts, hcompletes, -⟩ := Grammar.wholeExpression_leaves
            (TokenStream.ended_of_ofText hstream) ⟨hrun, hfound⟩
          refine ⟨front, next.current, next.ahead, ?_, hhalts.concerns, expr, hcompletes⟩
          rw [TokenStream.tokens_of_ofText hstream heof]
          exact hhalts.passes.toList_eq

/-- A text that is refused for the kind of a token is refused at the first token that cannot stand
where it stands: the tokens before it begin an expression of the grammar's shape. -/
theorem exists_completes_of_parse (h : parse source = .error (.grammatical error))
    (hfound : error.found?.isSome = true) :
    (∃ token ∈ (Text.Cursor.ofText source.toList).tokens.1, error.Concerns token) ∧
      ∀ before token after,
        (Text.Cursor.ofText source.toList).tokens.1 = before ++ token :: after →
          error.span = token.span → ∃ expr : Expr, expr.Completes before := by
  obtain ⟨front, refused, rest, htokens, hconcerns, hcompletes⟩ := exists_refused_of_parse h hfound
  refine ⟨⟨refused, by simp [htokens], hconcerns⟩, fun before token after hsplit hspan => ?_⟩
  -- No two tokens of a text stand at the same place, so its place tells the refused one.
  have hplace : token.span.offset = refused.span.offset := by
    rw [← hspan, hconcerns.span_eq]
  have hpairwise := (Text.Cursor.pairwise_tokens (Text.Cursor.ofText source.toList)).2
  rw [htokens, List.pairwise_append, List.pairwise_cons] at hpairwise
  obtain ⟨-, ⟨hafter, -⟩, hbefore⟩ := hpairwise
  have hfront : token ∉ front := fun hmem =>
    absurd (hbefore token hmem refused List.mem_cons_self) (by omega)
  have hrest : token ∉ rest := fun hmem => absurd (hafter token hmem) (by omega)
  rw [htokens] at hsplit
  obtain ⟨rfl, -, -⟩ := (List.append_cons_inj_of_notMem hfront hrest).mp hsplit
  exact hcompletes

set_option maxRecDepth 4096 in
/-- A bracket is refused in a call whose result a step has no place to work on yet. -/
theorem exists_completes_of_parse_step :
    let source := "++f(1 ]"
    let error : GrammarError := .unexpectedToken .rightBracket ⟨6, 1⟩
    parse source = .error (.grammatical error) ∧ error.found?.isSome = true ∧
      (∃ token ∈ (Text.Cursor.ofText source.toList).tokens.1, error.Concerns token) ∧
        ∀ before token after,
          (Text.Cursor.ofText source.toList).tokens.1 = before ++ token :: after →
            error.span = token.span → ∃ expr : Expr, expr.Completes before := by
  intro source error
  have hparse : parse "++f(1 ]" =
      .error (.grammatical (.unexpectedToken .rightBracket ⟨6, 1⟩)) := by cbv
  exact ⟨hparse, rfl, exists_completes_of_parse hparse rfl⟩

end ExprLang
