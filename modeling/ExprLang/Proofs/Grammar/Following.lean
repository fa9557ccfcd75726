import ExprLang.Proofs.Grammar.Counted
import ExprLang.Proofs.Grammar.Passing

/-!
# Readings with a counter and readings with levels

Reading with a counter comes to an end, and does what reading with the levels left below the limit
does. Two things carry this. Wherever a reading succeeds, the counter is what it was before, so it
tells the levels that are left. And wherever it succeeds, some tokens have been taken, so a loop can
only go round as long as there are tokens.
-/

namespace ExprLang.Grammar.Counted

variable {α β : Type}

namespace Standing

/-- What holds of a parser with a counter at all times: the stream ends as that of a text does, the
counter has never passed the limit, and every round of a loop has taken a token. -/
structure Sound (standing : Standing) : Prop where
  ended : standing.stream.Ended
  closed : ∀ error eof, standing.stream.ending = .unclosed error eof → eof.kind = .eof
  depths_le : ∀ depth ∈ standing.depths, depth ≤ nestingLimit
  rounds_lt : ∀ round ∈ standing.rounds, round.2 < round.1

/-- The counter has a value. -/
structure At (standing : Standing) (depth : Nat) : Prop extends standing.Sound where
  depth_eq : standing.depth = depth

end Standing

/-- From a place on, a reading with a counter comes to an end and agrees with a reading without one.
It only takes tokens off the stream. If it succeeds, it takes at least some number of them and the
counter has a certain value. -/
inductive Follows (standing : Standing) (counted : Nat → CountM α) (reading : ParseM α)
    (gain last : Nat) : Prop where
  | ok {value : α} {next : Standing} (hcounted : Ends counted standing (.ok value) next)
      (hreading : reading.run standing.stream = .ok value next.stream) (hnext : next.At last)
      (hsuffix : next.stream.content <:+ standing.stream.content)
      (hgain : next.stream.remaining + gain ≤ standing.stream.remaining)
  | error {error : SyntaxError} {next : Standing}
      (hcounted : Ends counted standing (.error error) next)
      (hreading : reading.run standing.stream = .error error next.stream) (hnext : next.Sound)
      (hsuffix : next.stream.content <:+ standing.stream.content)

/-! ## Tokens left -/

section Remaining

open TokenStream

variable {stream next : TokenStream} {tokens : List Token} {token : Token}

theorem content_of_passes (h : stream.Passes [token] next) (hkind : token.kind ≠ .eof) :
    stream.content = token :: next.content := by
  change stream.toList.filter _ = _
  rw [h.toList_eq, List.singleton_append, List.filter_cons_of_pos (by simpa using hkind)]
  rfl

theorem remaining_pos (h : stream.current.kind ≠ .eof) : 0 < stream.remaining := by
  refine List.length_pos_of_mem (List.mem_filter.mpr ⟨List.mem_cons_self, ?_⟩)
  simpa using h

theorem remaining_le (stream : TokenStream) : stream.remaining ≤ stream.ahead.length + 1 :=
  List.length_filter_le _ _

end Remaining

/-! ## Steps -/

namespace Standing

variable {standing : Standing} {depth : Nat}

theorem Sound.atDepth (h : standing.Sound) (hdepth : depth ≤ nestingLimit) :
    (standing.atDepth depth).At depth :=
  { h with
    depths_le := List.forall_mem_cons.mpr ⟨hdepth, h.depths_le⟩
    depth_eq := rfl }

theorem At.passed {tokens : List Token} {next : TokenStream} (h : standing.At depth)
    (hpasses : standing.stream.Passes tokens next) :
    At { standing with stream := next } depth :=
  { h with
    ended := hpasses.ended h.ended
    closed := by rw [hpasses.ending_eq]; exact h.closed }

/-- A step that fails keeps the token at which the parser stands. It may only put the end token
behind it. -/
theorem Sound.of_advance {fault : SyntaxError} {next : TokenStream} (h : standing.Sound)
    (hrun : Grammar.advance.run standing.stream = .error fault next) :
    Sound { standing with stream := next } ∧ next.content = standing.stream.content := by
  obtain ⟨⟨current, ahead, ending⟩, depth, depths, rounds⟩ := standing
  cases ahead with
  | cons first rest => cases hrun
  | nil =>
      cases ending with
      | settled => cases hrun
      | stuck error =>
          cases hrun
          exact ⟨h, rfl⟩
      | unclosed error eof =>
          cases hrun
          have heof : eof.kind = .eof := h.closed error eof rfl
          refine ⟨{ h with ended := ?_, closed := nofun }, ?_⟩
          · rintro - last ⟨⟩
            exact heof
          · simp [TokenStream.content, List.filter_cons, heof]

end Standing

theorem deepen_apply (standing : Standing) :
    deepen standing =
      if nestingLimit ≤ standing.depth then
        some (.error (.grammatical (.tooDeep standing.stream.current.span)), standing)
      else some (.ok ⟨⟩, standing.atDepth (standing.depth + 1)) := by
  change (if nestingLimit ≤ standing.depth then liftM refuseDepth
    else depth >>= fun depth => setDepth (depth + 1)) standing = _
  split <;> rfl

theorem nested_apply (counted : CountM α) (standing : Standing) :
    nested counted standing =
      if nestingLimit ≤ standing.depth then
        some (.error (.grammatical (.tooDeep standing.stream.current.span)), standing)
      else
        (counted (standing.atDepth (standing.depth + 1))).map fun (answer, next) =>
          (answer, next.atDepth standing.depth) := by
  change (deepen standing >>= _) = _
  rw [deepen_apply]
  split
  · rfl
  · change (counted _ >>= _) = _
    cases counted (standing.atDepth (standing.depth + 1)) <;> rfl

/-! ## Rules -/

namespace Ends

variable {counted : Nat → CountM α} {after : Nat → α → CountM β} {standing middle next : Standing}

theorem unique {answer other : Except SyntaxError α} {last : Standing}
    (h : Ends counted standing answer next) (hother : Ends counted standing other last) :
    answer = other ∧ next = last := by
  obtain ⟨first, h⟩ := h
  obtain ⟨second, hother⟩ := hother
  have heq := (h _ (Nat.le_max_left first second)).symm.trans
    (hother _ (Nat.le_max_right first second))
  exact Prod.mk.inj (Option.some.inj heq)

/-- What does not depend on the steps. -/
theorem const {counted : CountM α} {answer : Except SyntaxError α}
    (h : counted standing = some (answer, next)) : Ends (fun _ => counted) standing answer next :=
  ⟨0, fun _ _ => h⟩

theorem bind {value : α} {answer : Except SyntaxError β}
    (h : Ends counted standing (.ok value) middle)
    (hafter : Ends (fun steps => after steps value) middle answer next) :
    Ends (fun steps => counted steps >>= after steps) standing answer next := by
  obtain ⟨first, hfirst⟩ := h
  obtain ⟨second, hsecond⟩ := hafter
  refine ⟨max first second, fun steps hle => ?_⟩
  obtain ⟨hle, hle'⟩ := Nat.max_le.mp hle
  change (counted steps standing >>= _) = _
  rw [hfirst steps hle]
  exact hsecond steps hle'

theorem bind_error {fault : SyntaxError} (h : Ends counted standing (.error fault) next) :
    Ends (fun steps => counted steps >>= after steps) standing (.error fault) next := by
  obtain ⟨enough, h⟩ := h
  refine ⟨enough, fun steps hle => ?_⟩
  change (counted steps standing >>= _) = _
  rw [h steps hle]
  rfl

theorem discard {value : α} (h : Ends counted standing (.ok value) next) :
    Ends (fun steps => Functor.discard (counted steps)) standing (.ok ⟨⟩) next := by
  obtain ⟨enough, h⟩ := h
  refine ⟨enough, fun steps hle => ?_⟩
  change (counted steps standing >>= _) = _
  rw [h steps hle]
  rfl

theorem discard_error {fault : SyntaxError} (h : Ends counted standing (.error fault) next) :
    Ends (fun steps => Functor.discard (counted steps)) standing (.error fault) next := by
  obtain ⟨enough, h⟩ := h
  refine ⟨enough, fun steps hle => ?_⟩
  change (counted steps standing >>= _) = _
  rw [h steps hle]
  rfl

/-- The counter is set back whether or not the reading succeeds. -/
theorem nested {answer : Except SyntaxError α} (hlt : standing.depth < nestingLimit)
    (h : Ends counted (standing.atDepth (standing.depth + 1)) answer next) :
    Ends (fun steps => nested (counted steps)) standing answer (next.atDepth standing.depth) := by
  obtain ⟨enough, h⟩ := h
  refine ⟨enough, fun steps hle => ?_⟩
  change Counted.nested (counted steps) standing = _
  rw [nested_apply, if_neg (Nat.not_le_of_lt hlt), h steps hle]
  rfl

theorem shift {other : Standing} {shifted : Nat → CountM α} {answer : Except SyntaxError α}
    (h : Ends counted other answer next)
    (heq : ∀ steps, shifted steps standing = counted steps other) :
    Ends shifted standing answer next := by
  obtain ⟨enough, h⟩ := h
  exact ⟨enough, fun steps hle => (heq steps).trans (h steps hle)⟩

/-- A reading that spends one step needs one more. -/
theorem later {answer : Except SyntaxError α}
    (h : Ends (fun steps => counted (steps + 1)) standing answer next) :
    Ends counted standing answer next := by
  obtain ⟨enough, h⟩ := h
  refine ⟨enough + 1, fun steps hle => ?_⟩
  obtain ⟨steps, rfl⟩ := Nat.exists_eq_add_of_le' (Nat.le_of_add_left_le hle)
  exact h steps (Nat.le_of_succ_le_succ hle)

end Ends

namespace Follows

variable {standing : Standing} {counted : Nat → CountM α} {reading : ParseM α}
  {after : Nat → α → CountM β} {onward : α → ParseM β} {first gain middle last : Nat}

theorem pure (h : standing.At last) (value : α) :
    Follows standing (fun _ => pure value) (pure value) 0 last :=
  .ok (.const rfl) rfl h List.suffix_rfl (Nat.le_refl _)

theorem refuse (h : standing.Sound) (error : GrammarError) :
    Follows standing (fun _ => liftM (Grammar.refuse error : ParseM α)) (Grammar.refuse error) gain
      last :=
  .error (.const rfl) rfl h List.suffix_rfl

theorem bind (h : Follows standing counted reading first middle)
    (hafter : ∀ value next, next.At middle →
      next.stream.remaining + first ≤ standing.stream.remaining →
      Follows next (fun steps => after steps value) (onward value) (gain - first) last) :
    Follows standing (fun steps => counted steps >>= after steps) (reading >>= onward) gain
      last := by
  cases h with
  | @ok value next hcounted hreading hnext hsuffix hgain =>
      have hrun : (reading >>= onward).run standing.stream = (onward value).run next.stream := by
        rw [EStateM.run_bind, hreading]
      cases hafter value next hnext hgain with
      | ok hafter honward hlast hmore hless =>
          exact .ok (hcounted.bind hafter) (hrun.trans honward) hlast (hmore.trans hsuffix)
            (by omega)
      | error hafter honward hlast hmore =>
          exact .error (hcounted.bind hafter) (hrun.trans honward) hlast (hmore.trans hsuffix)
  | error hcounted hreading hnext hsuffix =>
      refine .error hcounted.bind_error ?_ hnext hsuffix
      rw [EStateM.run_bind, hreading]

theorem discard (h : Follows standing counted reading gain last) :
    Follows standing (fun steps => Functor.discard (counted steps)) (Functor.discard reading) gain
      last := by
  have hrun := run_discard reading standing.stream
  cases h with
  | ok hcounted hreading hnext hsuffix hgain =>
      rw [hreading] at hrun
      exact .ok hcounted.discard hrun hnext hsuffix hgain
  | error hcounted hreading hnext hsuffix =>
      rw [hreading] at hrun
      exact .error hcounted.discard_error hrun hnext hsuffix

/-- The counter and the record can be changed before reading, which does not move the stream. -/
theorem shift {other : Standing} {shifted : Nat → CountM α} {same : ParseM α}
    (h : Follows other counted reading gain last) (hstream : other.stream = standing.stream)
    (hshifted : ∀ steps, shifted steps standing = counted steps other)
    (hsame : same.run standing.stream = reading.run standing.stream) :
    Follows standing shifted same gain last := by
  cases h with
  | ok hcounted hreading hnext hsuffix hgain =>
      rw [hstream] at hreading hsuffix hgain
      exact .ok (hcounted.shift hshifted) (hsame.trans hreading) hnext hsuffix hgain
  | error hcounted hreading hnext hsuffix =>
      rw [hstream] at hreading hsuffix
      exact .error (hcounted.shift hshifted) (hsame.trans hreading) hnext hsuffix

theorem later (h : Follows standing (fun steps => counted (steps + 1)) reading gain last) :
    Follows standing counted reading gain last := by
  cases h with
  | ok hcounted hreading hnext hsuffix hgain =>
      exact .ok hcounted.later hreading hnext hsuffix hgain
  | error hcounted hreading hnext hsuffix =>
      exact .error hcounted.later hreading hnext hsuffix

theorem current_left {after : Nat → Token → CountM α}
    (h : Follows standing (fun steps => after steps standing.stream.current) reading gain last) :
    Follows standing (fun steps => liftM current >>= after steps) reading gain last :=
  h.shift rfl (fun _ => rfl) rfl

theorem current_right {onward : Token → ParseM α}
    (h : Follows standing counted (onward standing.stream.current) gain last) :
    Follows standing counted (current >>= onward) gain last :=
  h.shift rfl (fun _ => rfl) rfl

theorem kind_left {after : Nat → Token.Kind → CountM α}
    (h : Follows standing (fun steps => after steps standing.stream.current.kind) reading gain
      last) :
    Follows standing (fun steps => liftM kind >>= after steps) reading gain last :=
  h.shift rfl (fun _ => rfl) rfl

theorem kind_right {onward : Token.Kind → ParseM α}
    (h : Follows standing counted (onward standing.stream.current.kind) gain last) :
    Follows standing counted (kind >>= onward) gain last :=
  h.shift rfl (fun _ => rfl) rfl

theorem kind_left_of_eq {expected : Token.Kind} {chosen other : Nat → CountM α}
    (hkind : standing.stream.current.kind = expected)
    (h : Follows standing chosen reading gain last) :
    Follows standing (fun steps => liftM kind >>= fun kind =>
      if kind = expected then chosen steps else other steps) reading gain last := by
  refine .kind_left ?_
  simp only [if_pos hkind]
  exact h

theorem kind_left_of_ne {expected : Token.Kind} {other chosen : Nat → CountM α}
    (hkind : standing.stream.current.kind ≠ expected)
    (h : Follows standing chosen reading gain last) :
    Follows standing (fun steps => liftM kind >>= fun kind =>
      if kind = expected then other steps else chosen steps) reading gain last := by
  refine .kind_left ?_
  simp only [if_neg hkind]
  exact h

theorem stepBound_right {onward : Nat → ParseM α}
    (h : Follows standing counted (onward (standing.stream.ahead.length + 1)) gain last) :
    Follows standing counted (stepBound >>= onward) gain last :=
  h.shift rfl (fun _ => rfl) rfl

theorem remaining_left {after : Nat → Nat → CountM α}
    (h : Follows standing (fun steps => after steps standing.stream.remaining) reading gain last) :
    Follows standing (fun steps => remaining >>= after steps) reading gain last :=
  h.shift rfl (fun _ => rfl) rfl

theorem depth_left {after : Nat → Nat → CountM α} (hat : standing.At middle)
    (h : Follows standing (fun steps => after steps middle) reading gain last) :
    Follows standing (fun steps => depth >>= after steps) reading gain last := by
  obtain rfl := hat.depth_eq
  exact h.shift rfl (fun _ => rfl) rfl

theorem setDepth {saved : Nat} (hsound : standing.Sound) (hsaved : saved ≤ nestingLimit)
    (value : α) :
    Follows standing (fun _ => setDepth saved >>= fun _ => Pure.pure value) (Pure.pure value) 0
      saved :=
  (pure (hsound.atDepth hsaved) value).shift rfl (fun _ => rfl) rfl

theorem endRound_left {before : Nat} {after : Nat → PUnit → CountM α} (hat : standing.At middle)
    (hlt : standing.stream.remaining < before)
    (h : ∀ next : Standing, next.At middle → next.stream = standing.stream →
      Follows next (fun steps => after steps ⟨⟩) reading gain last) :
    Follows standing (fun steps => endRound before >>= after steps) reading gain last := by
  refine (h { standing with rounds := (before, standing.stream.remaining) :: standing.rounds } ?_
    rfl).shift rfl (fun _ => rfl) rfl
  exact { hat with rounds_lt := List.forall_mem_cons.mpr ⟨hlt, hat.rounds_lt⟩ }

/-- The counter can be raised as long as there are levels left. -/
theorem deepen_left {after : Nat → PUnit → CountM α} (hat : standing.At middle)
    (hlt : middle < nestingLimit)
    (h : Follows (standing.atDepth (middle + 1)) (fun steps => after steps ⟨⟩) reading gain last) :
    Follows standing (fun steps => deepen >>= after steps) reading gain last := by
  obtain rfl := hat.depth_eq
  refine h.shift rfl (fun steps => ?_) rfl
  change (deepen standing >>= _) = _
  rw [deepen_apply, if_neg (Nat.not_le_of_lt hlt)]
  rfl

theorem deepen_refused {after : Nat → PUnit → CountM α} (hat : standing.At nestingLimit) :
    Follows standing (fun steps => deepen >>= after steps) refuseDepth gain last := by
  refine .error (Ends.bind_error (.const ?_)) (run_refuseDepth standing.stream) hat.toSound
    List.suffix_rfl
  rw [deepen_apply, if_pos (Nat.le_of_eq hat.depth_eq.symm)]

/-- A construct is read one level deeper, and the counter is set back also after an error. -/
theorem nested (hat : standing.At middle) (hlt : middle < nestingLimit)
    (h : Follows (standing.atDepth (middle + 1)) counted reading gain (middle + 1)) :
    Follows standing (fun steps => nested (counted steps)) reading gain middle := by
  obtain rfl := hat.depth_eq
  cases h with
  | ok hcounted hreading hnext hsuffix hgain =>
      exact .ok (hcounted.nested hlt) hreading (hnext.atDepth (Nat.le_of_lt hlt)) hsuffix hgain
  | error hcounted hreading hnext hsuffix =>
      exact .error (hcounted.nested hlt) hreading (hnext.atDepth (Nat.le_of_lt hlt)).toSound hsuffix

theorem nested_refused (hat : standing.At nestingLimit) :
    Follows standing (fun steps => Counted.nested (counted steps)) refuseDepth gain last := by
  refine .error ⟨0, fun steps _ => ?_⟩ (run_refuseDepth standing.stream) hat.toSound
    List.suffix_rfl
  change Counted.nested (counted steps) standing = _
  rw [nested_apply, if_pos (Nat.le_of_eq hat.depth_eq.symm)]

/-- A step over a token that is not the end token takes it. -/
theorem advance (hat : standing.At last) (hkind : standing.stream.current.kind ≠ .eof) :
    Follows standing (fun _ => liftM advance) advance 1 last := by
  have hstep : (liftM Grammar.advance : CountM Token) standing =
      ofStep Grammar.advance standing := rfl
  cases hrun : Grammar.advance.run standing.stream with
  | ok token next =>
      obtain ⟨rfl, hpasses⟩ := passes_of_advance hat.ended hkind hrun
      have hcontent := content_of_passes hpasses hkind
      rw [ofStep, hrun] at hstep
      refine .ok (.const hstep) hrun (hat.passed hpasses) ?_ ?_
      · rw [hcontent]
        exact List.suffix_cons _ _
      · rw [TokenStream.remaining, TokenStream.remaining, hcontent]
        exact Nat.le_refl _
  | error fault next =>
      obtain ⟨hnext, hcontent⟩ := hat.of_advance hrun
      rw [ofStep, hrun] at hstep
      have hsuffix : next.content <:+ standing.stream.content := hcontent ▸ List.suffix_rfl
      exact .error (.const hstep) hrun hnext hsuffix

theorem expect {expected : Token.Kind} (hat : standing.At last) (hkind : expected ≠ .eof) :
    Follows standing (fun _ => liftM (expect expected)) (expect expected) 1 last := by
  by_cases hcurrent : standing.stream.current.kind = expected
  · have hrun : (Grammar.expect expected).run standing.stream =
        Grammar.advance.run standing.stream := by
      rw [Grammar.expect, run_current_bind, if_pos hcurrent]
    refine (advance hat (hcurrent ▸ hkind)).shift rfl (fun _ => ?_) hrun
    change ofStep (Grammar.expect expected) standing = ofStep Grammar.advance standing
    rw [ofStep, ofStep, hrun]
  · have hrun : (Grammar.expect expected).run standing.stream = .error (.grammatical
        (.expectedToken expected standing.stream.current.kind standing.stream.current.span))
        standing.stream := by
      rw [Grammar.expect, run_current_bind, if_neg hcurrent]
      rfl
    refine .error (.const ?_) hrun hat.toSound List.suffix_rfl
    change ofStep (Grammar.expect expected) standing = _
    rw [ofStep, hrun]

/-- An operator or a suffix raises the counter, which leaves the stream where it is, and is passed.
-/
theorem link {after : Nat → Nat → CountM α} {onward : PUnit → ParseM α} (hat : standing.At middle)
    (hlt : middle < nestingLimit) (hkind : standing.stream.current.kind ≠ .eof)
    (h : ∀ next : Standing, next.At (middle + 1) →
      next.stream.remaining < standing.stream.remaining →
      Follows next (fun steps => after steps standing.stream.remaining) (onward ⟨⟩) (gain - 1)
        last) :
    Follows standing (fun steps => remaining >>= fun before => deepen >>= fun _ =>
        Functor.discard (liftM Grammar.advance : CountM Token) >>= fun _ => after steps before)
      (Functor.discard Grammar.advance >>= onward) gain last := by
  refine .remaining_left (.deepen_left hat hlt ?_)
  refine (advance (hat.atDepth hlt) hkind).discard.bind fun _ next hnext hfewer => ?_
  exact h next hnext hfewer

end Follows

/-! ## Constructs -/

/-- Where the counter has a value, a reading with it follows one without, takes a number of tokens
and leaves the counter as it was. -/
def Agrees (depth : Nat) (counted : Nat → CountM α) (reading : ParseM α) (gain : Nat) : Prop :=
  ∀ ⦃standing : Standing⦄, standing.At depth → Follows standing counted reading gain depth

section Constructs

variable {depth bound : Nat} {standing : Standing} {argument inner branch operand : ParseM Expr}
  {counted : Nat → CountM Expr} {condition : Expr}

theorem kind_eq_eof_of_remaining (h : standing.stream.remaining ≤ 0) :
    standing.stream.current.kind = .eof := by
  by_contra hkind
  exact absurd (remaining_pos hkind) (Nat.not_lt_of_le h)

theorem follows_arguments (hargument : Agrees depth assignment argument 1)
    (hat : standing.At depth) (hbound : standing.stream.remaining ≤ bound) :
    Follows standing arguments (Grammar.arguments argument bound) 0 depth := by
  induction bound generalizing standing with
  | zero =>
      have heof := kind_eq_eof_of_remaining hbound
      refine .later ?_
      simp only [arguments, Grammar.arguments]
      refine .kind_left_of_ne (by simp [heof]) ?_
      refine .kind_left_of_eq heof ?_
      exact .pure hat []
  | succ bound ih =>
      rw [Grammar.arguments]
      refine .later (.kind_right ?_)
      split
      next hclosing =>
        simp only [arguments]
        refine .kind_left_of_eq hclosing ?_
        exact .pure hat []
      next heof =>
        simp only [arguments]
        refine .kind_left_of_ne (by simp [heof]) ?_
        refine .kind_left_of_eq heof ?_
        exact .pure hat []
      next hclosing heof =>
        simp only [arguments]
        refine .kind_left_of_ne hclosing ?_
        refine .kind_left_of_ne heof ?_
        refine .remaining_left ?_
        refine (hargument hat).bind fun first middle hmiddle hfewer => ?_
        -- Whether there is a comma or not, the round ends with fewer tokens left.
        have hround : ∀ {next : Standing}, next.At depth →
            next.stream.remaining < standing.stream.remaining →
            Follows next (fun steps => endRound standing.stream.remaining >>= fun _ => do
                let rest ← arguments steps
                return first :: rest)
              (do
                let rest ← Grammar.arguments argument bound
                return first :: rest) 0 depth := by
          intro next hnext hlt
          refine .endRound_left hnext hlt fun last hlast hstream => ?_
          refine (ih hlast (by rw [hstream]; omega)).bind fun rest final hfinal _ => ?_
          exact .pure hfinal (first :: rest)
        refine .kind_left (.kind_right ?_)
        by_cases hcomma : middle.stream.current.kind = .comma
        · simp only [if_pos hcomma]
          refine (Follows.advance hmiddle (by rw [hcomma]; decide)).discard.bind
            fun _ next hnext hless => ?_
          exact hround hnext (by omega)
        · simp only [if_neg hcomma]
          exact hround hmiddle (by omega)

theorem agrees_named (hargument : Agrees depth assignment argument 1) (name : String) :
    Agrees depth (fun steps => named (arguments steps) name) (Grammar.named argument name) 0 := by
  intro standing hat
  unfold named Grammar.named
  refine .kind_left (.kind_right ?_)
  by_cases hopening : standing.stream.current.kind = .leftParen
  · simp only [if_pos hopening]
    refine (Follows.advance hat (by rw [hopening]; decide)).discard.bind
      fun _ inside hinside _ => ?_
    refine .stepBound_right ?_
    refine (follows_arguments hargument hinside (remaining_le _)).bind
      fun list behind hbehind _ => ?_
    refine (Follows.expect hbehind (by decide)).discard.bind fun _ last hlast _ => ?_
    exact .pure hlast (Expr.call name list)
  · simp only [if_neg hopening]
    exact .pure hat (Expr.var name)

theorem agrees_primary (hinner : Agrees depth counted inner 1)
    (hargument : Agrees depth assignment argument 1) :
    Agrees depth (fun steps => primary (counted steps) (arguments steps))
      (Grammar.primary inner argument) 1 := by
  intro standing hat
  unfold Grammar.primary
  refine .current_right ?_
  split
  next hname =>
    unfold primary
    refine .current_left ?_
    simp only [if_pos hname]
    refine (Follows.advance hat (by rw [hname]; decide)).discard.bind fun _ next hnext _ => ?_
    exact agrees_named hargument _ hnext
  next hopening =>
    unfold primary
    refine .current_left ?_
    simp only [hopening, reduceCtorEq, if_false, if_true]
    refine (Follows.advance hat (by rw [hopening]; decide)).discard.bind
      fun _ inside hinside _ => ?_
    refine (hinner hinside).bind fun expr behind hbehind _ => ?_
    refine (Follows.expect hbehind (by decide)).discard.bind fun _ last hlast _ => ?_
    exact .pure hlast (Expr.group expr)
  next hname hopening =>
    unfold primary
    refine .current_left ?_
    simp only [if_neg hname, if_neg hopening]
    cases hliteral : LiteralKind.ofToken? standing.stream.current.kind with
    | none => exact .refuse hat.toSound _
    | some literal =>
        refine (Follows.advance hat (ne_eof_of_eq_some rfl hliteral)).discard.bind
          fun _ next hnext _ => ?_
        exact .pure hnext _

theorem follows_applyUnary (hat : standing.At depth) (op : UnaryOp) (expr : Expr)
    (token : Token) :
    Follows standing (fun _ => liftM (applyUnary op expr token)) (applyUnary op expr token) 0
      depth := by
  unfold applyUnary
  split
  · exact .refuse hat.toSound _
  · exact .pure hat _

theorem agrees_unary (hoperand : Agrees depth counted operand 1) :
    Agrees depth (fun steps => unary (counted steps)) (Grammar.unary operand) 1 := by
  intro standing hat
  unfold unary Grammar.unary
  refine .kind_left (.kind_right ?_)
  cases hbefore : UnaryOp.before? standing.stream.current.kind with
  | some op =>
      refine (Follows.advance hat (ne_eof_of_eq_some rfl hbefore)).bind
        fun token next hnext _ => ?_
      refine (hoperand hnext).bind fun expr last hlast _ => ?_
      exact follows_applyUnary hlast op expr token
  | none =>
      refine (hoperand hat).bind fun expr next hnext _ => ?_
      refine .kind_left (.kind_right ?_)
      cases hafter : UnaryOp.after? next.stream.current.kind with
      | some op =>
          refine (Follows.advance hnext (ne_eof_of_eq_some rfl hafter)).bind
            fun token last hlast _ => ?_
          exact follows_applyUnary hlast op expr token
      | none => exact .pure hnext expr

theorem follows_branches (hbranch : Agrees depth ternary branch 1) (hat : standing.At depth)
    (hbound : standing.stream.remaining ≤ bound) :
    Follows standing (fun steps => branches steps condition)
      (Grammar.branches branch bound condition) 0 depth := by
  induction bound generalizing standing condition with
  | zero =>
      have heof := kind_eq_eof_of_remaining hbound
      refine .later ?_
      simp only [branches, Grammar.branches]
      refine .kind_left_of_ne (by simp [heof]) ?_
      exact .pure hat condition
  | succ bound ih =>
      refine .later ?_
      simp only [branches, Grammar.branches]
      refine .kind_left (.kind_right ?_)
      by_cases hquestion : standing.stream.current.kind = .question
      · simp only [if_pos hquestion]
        refine .remaining_left ?_
        refine (Follows.advance hat (by rw [hquestion]; decide)).discard.bind
          fun _ first hfirst _ => ?_
        refine (hbranch hfirst).bind fun ifTrue second hsecond _ => ?_
        refine (Follows.expect hsecond (by decide)).discard.bind fun _ third hthird _ => ?_
        refine (hbranch hthird).bind fun ifFalse last hlast _ => ?_
        refine .endRound_left hlast (by omega) fun next hnext hstream => ?_
        exact ih hnext (by rw [hstream]; omega)
      · simp only [if_neg hquestion]
        exact .pure hat condition

theorem agrees_declarationOr (hother : Agrees depth counted inner 1) :
    Agrees depth (fun steps => declarationOr (counted steps)) (Grammar.declarationOr inner) 1 := by
  intro standing hat
  unfold declarationOr Grammar.declarationOr
  refine .kind_left (.kind_right ?_)
  cases hdeclaration : DeclarationKind.ofToken? standing.stream.current.kind with
  | some declaration =>
      refine (Follows.advance hat (ne_eof_of_eq_some rfl hdeclaration)).discard.bind
        fun _ next hnext _ => ?_
      refine (Follows.expect hnext (by decide)).bind fun name last hlast _ => ?_
      exact .pure hlast _
  | none => exact hother hat

theorem follows_checkTarget (hat : standing.At depth) (op : AssignOp) (target : Expr)
    (token : Token) :
    Follows standing (fun _ => liftM (checkTarget op target token)) (checkTarget op target token) 0
      depth := by
  unfold checkTarget
  split <;> split
  · exact .pure hat _
  · exact .refuse hat.toSound _
  · exact .pure hat _
  · exact .refuse hat.toSound _

end Constructs

/-! ## All constructs -/

/-- Where the counter has a value and some levels are left, the readings with a counter follow those
with levels. What goes on after the head of a chain sets the counter to the value it is given. -/
structure Followed (depth levels : Nat) : Prop where
  assignment : Agrees depth assignment (Grammar.assignment levels) 1
  ternary : Agrees depth ternary (Grammar.ternary levels) 1
  binary : ∀ floor, Agrees depth (fun steps => binary steps floor) (Grammar.binary levels floor) 1
  operators : ∀ {saved : Nat} {standing : Standing} (floor : Nat) (left : Expr),
    saved ≤ nestingLimit → standing.At depth →
    Follows standing (fun steps => operators steps saved floor left)
      (Grammar.operators levels floor left) 0 saved
  suffixes : ∀ {saved : Nat} {standing : Standing} (target : Expr), saved ≤ nestingLimit →
    standing.At depth →
    Follows standing (fun steps => suffixes steps saved target) (Grammar.suffixes levels target) 0
      saved

theorem followed_zero : Followed nestingLimit 0 where
  assignment _ hat := by
    refine .later ?_
    simp only [assignment]
    exact .nested_refused hat
  ternary _ hat := by
    refine .later ?_
    simp only [ternary]
    exact .nested_refused hat
  binary floor _ hat := by
    refine .later ?_
    simp only [binary]
    exact .nested_refused hat
  operators {saved standing} floor left hsaved hat := by
    refine .later ?_
    simp only [operators, Grammar.operators]
    refine .kind_left (.kind_right ?_)
    cases BinaryOp.ofToken? standing.stream.current.kind with
    | some op =>
        by_cases hlt : op.precedence < floor
        · simp only [if_pos hlt]
          exact .setDepth hat.toSound hsaved left
        · simp only [if_neg hlt]
          exact .remaining_left (.deepen_refused hat)
    | none => exact .setDepth hat.toSound hsaved left
  suffixes {saved standing} target hsaved hat := by
    refine .later ?_
    rw [Grammar.suffixes]
    refine .kind_right ?_
    split
    next hbracket =>
      simp only [suffixes]
      refine .kind_left_of_eq hbracket ?_
      exact .remaining_left (.deepen_refused hat)
    next hdot =>
      simp only [suffixes]
      refine .kind_left_of_ne (by simp [hdot]) ?_
      refine .kind_left_of_eq hdot ?_
      exact .remaining_left (.deepen_refused hat)
    next hbracket hdot =>
      simp only [suffixes]
      refine .kind_left_of_ne hbracket ?_
      refine .kind_left_of_ne hdot ?_
      exact .setDepth hat.toSound hsaved target

variable {depth levels : Nat}

theorem followed_succ (hlt : depth < nestingLimit) (h : Followed (depth + 1) levels) :
    Followed depth (levels + 1) where
  assignment standing hat := by
    refine .later ?_
    simp only [assignment, Grammar.assignment]
    refine .nested hat hlt ?_
    refine (agrees_declarationOr h.ternary (hat.atDepth hlt)).bind fun target next hnext _ => ?_
    refine .kind_left (.kind_right ?_)
    cases hop : AssignOp.ofToken? next.stream.current.kind with
    | none => exact .pure hnext target
    | some op =>
        refine (Follows.advance hnext (ne_eof_of_eq_some rfl hop)).bind
          fun token behind hbehind _ => ?_
        refine (follows_checkTarget hbehind op target token).bind fun _ last hlast _ => ?_
        refine (h.assignment hlast).bind fun value final hfinal _ => ?_
        exact .pure hfinal _
  ternary standing hat := by
    refine .later ?_
    simp only [ternary, Grammar.ternary]
    refine .nested hat hlt ?_
    refine (h.binary 0 (hat.atDepth hlt)).bind fun condition next hnext _ => ?_
    refine .stepBound_right ?_
    exact follows_branches h.ternary hnext (remaining_le _)
  binary floor standing hat := by
    have hsuffixed : Agrees (depth + 1) suffixed
        (Grammar.primary (Grammar.ternary levels) (Grammar.assignment levels) >>=
          Grammar.suffixes levels) 1 := by
      intro standing hat
      refine .later ?_
      simp only [suffixed]
      refine .depth_left hat ?_
      refine (agrees_primary h.ternary h.assignment hat).bind fun target next hnext _ => ?_
      exact h.suffixes target hlt hnext
    refine .later ?_
    simp only [binary, Grammar.binary]
    refine .nested hat hlt ?_
    refine .depth_left (hat.atDepth hlt) ?_
    refine (agrees_unary hsuffixed (hat.atDepth hlt)).bind fun left next hnext _ => ?_
    exact h.operators floor left hlt hnext
  operators {saved standing} floor left hsaved hat := by
    refine .later ?_
    simp only [operators, Grammar.operators]
    refine .kind_left (.kind_right ?_)
    cases hop : BinaryOp.ofToken? standing.stream.current.kind with
    | some op =>
        by_cases hfloor : op.precedence < floor
        · simp only [if_pos hfloor]
          exact .setDepth hat.toSound hsaved left
        · simp only [if_neg hfloor]
          refine .link hat hlt (ne_eof_of_eq_some rfl hop) fun next hnext hfewer => ?_
          refine (h.binary op.rightFloor hnext).bind fun right last hlast _ => ?_
          refine .endRound_left hlast (by omega) fun final hfinal _ => ?_
          exact h.operators floor (.binary op left right) hsaved hfinal
    | none => exact .setDepth hat.toSound hsaved left
  suffixes {saved standing} target hsaved hat := by
    refine .later ?_
    rw [Grammar.suffixes]
    refine .kind_right ?_
    split
    next hbracket =>
      simp only [suffixes]
      refine .kind_left_of_eq hbracket ?_
      refine .link hat hlt (by rw [hbracket]; decide) fun inside hinside hfewer => ?_
      refine (h.binary 0 hinside).bind fun position behind hbehind _ => ?_
      refine (Follows.expect hbehind (by decide)).discard.bind fun _ last hlast _ => ?_
      refine .endRound_left hlast (by omega) fun final hfinal _ => ?_
      exact h.suffixes (.index target position) hsaved hfinal
    next hdot =>
      simp only [suffixes]
      refine .kind_left_of_ne (by simp [hdot]) ?_
      refine .kind_left_of_eq hdot ?_
      refine .link hat hlt (by rw [hdot]; decide) fun inside hinside hfewer => ?_
      refine (Follows.expect hinside (by decide)).bind fun name behind hbehind _ => ?_
      refine (agrees_named h.assignment name.text hbehind).bind fun part last hlast _ => ?_
      refine .endRound_left hlast (by omega) fun final hfinal _ => ?_
      exact h.suffixes (.member target part) hsaved hfinal
    next hbracket hdot =>
      simp only [suffixes]
      refine .kind_left_of_ne hbracket ?_
      refine .kind_left_of_ne hdot ?_
      exact .setDepth hat.toSound hsaved target

theorem followed (h : depth + levels = nestingLimit) : Followed depth levels := by
  induction levels generalizing depth with
  | zero =>
      obtain rfl : depth = nestingLimit := h
      exact followed_zero
  | succ levels ih => exact followed_succ (by omega) (ih (by omega))

end ExprLang.Grammar.Counted
