import ExprLang.Proofs.Evaluation.Builtins
import ExprLang.Proofs.Evaluation.Replacement
import ExprLang.Proofs.Evaluation.Sources
import ExprLang.Proofs.Host.Display

/-!
# Runs inside runs

A run can hand texts to runs of its own, and these to others. But all strings that a run gets hold
of are shorter than its text or are the texts of numbers and truth values, which hand nothing on. So
runs are nested no deeper than the text is long, and every text is run to its end.
-/

namespace ExprLang

/-- A text that a number or a truth value is shown as. -/
def IsScalarText (text : String) : Prop :=
  ∃ value : Value, value.isScalar = true ∧ Heap.empty.display value = text

theorem isScalarText_display {value : Value} (h : value.isScalar = true) (heap : Heap) :
    IsScalarText (heap.display value) := by
  refine ⟨value, h, ?_⟩
  cases value with
  | bool b => rfl
  | int n => rfl
  | decimal x => rfl
  | string text => cases h
  | object id => cases h

/-- Nothing is called in the text of a scalar, and no string stands in it. -/
theorem IsScalarText.not_mem {text : String} (h : IsScalarText text) :
    '(' ∉ text.toList ∧ '"' ∉ text.toList := by
  obtain ⟨value, hscalar, rfl⟩ := h
  have hopens := Heap.empty.opens_eq_false_of_mem_display hscalar
  exact ⟨fun hmem => absurd (hopens _ hmem) (by decide),
    fun hmem => absurd (hopens _ hmem) (by decide)⟩

namespace Machine

variable {source : String} {expr : Expr}

theorem answer_of_error {error : SyntaxError} (h : parse source = .error error)
    (machine : Machine) (mode : LogicMode) :
    machine.answer mode source = .error (.syntactic error) := by
  simp only [Machine.answer, run, EStateM.run, h]

/-- The answer of a run by the evaluation that it consists of. -/
theorem answer_of_ok (h : parse source = .ok expr) (machine : Machine) (mode : LogicMode) :
    machine.answer mode source =
      match (expr.evaluate mode).answer machine with
      | .ok value => .ok (((expr.evaluate mode).after machine).heap.display value)
      | .error error => .error (.runtime error) := by
  simp only [Machine.answer, run, EvalM.answer, EvalM.after, EStateM.run, h]
  cases expr.evaluate mode machine <;> rfl

end Machine

namespace Builtin

/-- The values that the run of a text with so many bytes can get hold of. What a run answers may be
longer than its text, but only as the text of a scalar. -/
inductive Fits (bound : Nat) : Value → Prop
  | scalar {value : Value} (h : value.isScalar = true) : Fits bound value
  | short {text : String} (h : text.utf8ByteSize < bound) : Fits bound (.string text)
  | shown {text : String} (h : IsScalarText text) : Fits bound (.string text)

/-- A run of the text gets hold of nothing but what fits. -/
def Admits (bound : Nat) (source : String) : Prop :=
  source.utf8ByteSize ≤ bound ∨ IsScalarText source

/-- What a rule makes of admitted texts fits. -/
def Keeps (rule : String → Except String String) : Prop :=
  ∀ ⦃bound source result⦄, Admits bound source → rule source = .ok result →
    Fits bound (.string result)

/-- The machine on which a text is run whose own texts are run by a rule. -/
def machine (rule : String → Except String String) : Machine :=
  .ofEnvironment (define rule .empty)

/-- The answer for a text whose own texts are run by a rule. -/
def answerBy (rule : String → Except String String) (source : String) : Except String String :=
  ((machine rule).answer .eager source).mapError (·.diagnostic.message)

variable {rule other : String → Except String String} {bound : Nat} {source text : String}
  {expr : Expr}

theorem Fits.lt_or_isScalarText (h : Fits bound (.string text)) :
    text.utf8ByteSize < bound ∨ IsScalarText text := by
  cases h with
  | scalar h => cases h
  | short h => exact .inl h
  | shown h => exact .inr h

theorem Fits.admits (h : Fits bound (.string text)) : Admits bound text :=
  h.lt_or_isScalarText.imp_left Nat.le_of_lt

/-! ## What a run gets hold of -/

theorem closes_fits (hrule : Keeps rule) (h : parse source = .ok expr)
    (hsource : Admits bound source) : expr.Closes (Fits bound) (machine rule).environment where
  scalar := .scalar
  literal {text} hliteral := by
    obtain ⟨hlt, hquote⟩ := of_contains_string h hliteral
    rcases hsource with hle | hscalar
    · exact .short (Nat.lt_of_lt_of_le hlt hle)
    · exact absurd hquote hscalar.not_mem.2
  function {name arguments function} _ hfunction := by
    rw [machine, Machine.ofEnvironment, function?_define] at hfunction
    split at hfunction
    next =>
      cases hfunction
      exact carries_eval fun htext => hrule htext.admits
    next =>
      split at hfunction <;> cases hfunction
      exact carries_parseInt .scalar

theorem confines_machine (rule : String → Except String String) (bound : Nat)
    (names : Set String) : (machine rule).Confines (Fits bound) names (machine rule) := by
  refine .refl (fun id _ => rfl) (fun name _ kind value hfind => ?_) (fun id value hid _ => ?_)
  · cases hfind
  · rcases hid with hscalar | _ | _
    cases hscalar

/-- What the parts of an expression evaluate to fits the text that it is run for. -/
theorem covers_fits (hrule : Keeps rule) (h : parse source = .ok expr)
    (hsource : Admits bound source) (mode : LogicMode) (now : Machine) :
    (Judgement.keeping ((machine rule).Confines (Fits bound) Set.univ)).Covers mode (Fits bound)
      expr now :=
  (closes_fits hrule h hsource).covers (fun _ _ => Set.mem_univ _) mode

theorem fits_display {value : Value} (h : Fits bound value) (heap : Heap) :
    Fits bound (.string (heap.display value)) := by
  cases h with
  | scalar hscalar => exact .shown (isScalarText_display hscalar heap)
  | short hlt => exact .short hlt
  | shown hscalar => exact .shown hscalar

theorem keeps_answerBy (hrule : Keeps rule) : Keeps (answerBy rule) := by
  intro bound source result hsource hresult
  rw [answerBy] at hresult
  cases hparse : parse source with
  | error error =>
      rw [Machine.answer_of_error hparse] at hresult
      cases hresult
  | ok expr =>
      rw [Machine.answer_of_ok hparse] at hresult
      cases hevaluate : (expr.evaluate .eager).answer (machine rule) with
      | error error =>
          rw [hevaluate] at hresult
          cases hresult
      | ok value =>
          rw [hevaluate] at hresult
          cases hresult
          have hcovers := covers_fits hrule hparse hsource .eager (machine rule)
          have hholds := Judgement.holds_evaluate expr hcovers (confines_machine rule bound _)
          exact fits_display (hholds.2 value _ (EvalM.run_eq_ok hevaluate)) _

theorem keeps_answer (levels : Nat) : Keeps (answer levels) := by
  induction levels with
  | zero =>
      intro bound source result _ hresult
      cases hresult
  | succ levels ih => exact keeps_answerBy ih

theorem keeps_answerText : Keeps answerText :=
  fun _ source _ => @keeps_answer (source.utf8ByteSize + 2) _ source _

/-! ## What a run hands on -/

/-- While a text is run, another one is handed to `eval`. -/
def Hands (source text : String) : Prop :=
  ∃ mode expr arguments start next, parse source = .ok expr ∧
    Expr.Visits mode expr (.ofEnvironment Environment.empty.withBuiltins) (.call "eval" arguments)
      start ∧
    (Expr.evaluateAll mode arguments).run start = .ok [.string text] next

theorem Hands.fits (h : Hands source text) : Fits source.utf8ByteSize (.string text) := by
  obtain ⟨mode, expr, arguments, start, next, hparse, hvisits, hrun⟩ := h
  have hcovers := covers_fits keeps_answerText hparse (.inl (Nat.le_refl _)) mode
    (machine answerText)
  have hstart := hvisits.keeps hcovers (confines_machine answerText _ _)
  have hall := Judgement.holds_evaluateAll arguments
    fun _ _ hpart => (hvisits.covers hcovers).enter (.argument hpart)
  exact (hall hstart).2 _ _ hrun _ (List.mem_singleton_self _)

/-- A text that hands on another one has a parenthesis, and so it is not the text of a scalar. -/
theorem Hands.not_isScalarText (h : Hands source text) : ¬ IsScalarText source := by
  obtain ⟨mode, expr, arguments, start, next, hparse, hvisits, -⟩ := h
  exact fun hscalar => hscalar.not_mem.1 (of_contains_call hparse hvisits.contains)

theorem length_le_of_isChain {texts : List String} (h : List.IsChain Hands (source :: texts)) :
    texts.length + 1 ≤ source.utf8ByteSize + 2 := by
  induction texts generalizing source with
  | nil => simp
  | cons text texts ih =>
      obtain ⟨hhands, hrest⟩ := List.isChain_cons_cons.mp h
      have hlength := ih hrest
      rw [List.length_cons]
      rcases hhands.fits.lt_or_isScalarText with hlt | hscalar
      · omega
      · cases texts with
        | nil => simp
        | cons other texts =>
            exact absurd hscalar (List.isChain_cons_cons.mp hrest).1.not_isScalarText

theorem acc_hands (source : String) : Acc (fun inner outer => Hands outer inner) source := by
  have hscalar {text : String} (h : IsScalarText text) :
      Acc (fun inner outer => Hands outer inner) text :=
    .intro text fun _ hhands => absurd h hhands.not_isScalarText
  induction hsize : source.utf8ByteSize using Nat.strong_induction_on generalizing source with
  | _ size ih =>
    refine .intro source fun text hhands => ?_
    rcases hhands.fits.lt_or_isScalarText with hlt | htext
    · exact ih _ (hsize ▸ hlt) text rfl
    · exact hscalar htext

/-! ## Rules that agree -/

theorem agrees_eval (h : ∀ text, Fits bound (.string text) → rule text = other text) :
    (eval rule).Agrees (Fits bound) (eval other) := by
  intro values hvalues
  rw [eval, eval, invoke_ofString, invoke_ofString]
  refine congrArg _ (reply_congr fun text hmem => ?_)
  rw [h text (hvalues _ hmem)]

/-- Two rules that agree about what a text can hand to them make the same of the text. -/
theorem answer_congr (hrule : Keeps rule)
    (h : ¬ IsScalarText source → ∀ text, Fits source.utf8ByteSize (.string text) →
      rule text = other text) (mode : LogicMode) :
    (machine rule).answer mode source = (machine other).answer mode source := by
  cases hparse : parse source with
  | error error =>
      rw [Machine.answer_of_error hparse, Machine.answer_of_error hparse]
  | ok expr =>
      have hfollows : expr.Follows (Fits source.utf8ByteSize)
          (machine rule).environment.functions (machine other).environment.functions := by
        intro name arguments hcall
        have hnot : ¬ IsScalarText source :=
          fun hscalar => hscalar.not_mem.1 (of_contains_call hparse hcall)
        change Option.Rel _ ((define rule .empty).function? name)
          ((define other .empty).function? name)
        rw [function?_define, function?_define]
        split
        · exact .some (agrees_eval (h hnot))
        split
        · exact .some fun _ _ => rfl
        · exact .none
      have hcommutes := Expr.commutes_evaluate mode
        (closes_fits hrule hparse (.inl (Nat.le_refl _))) (fun _ _ => Set.mem_univ _) hfollows
        (confines_machine rule _ _)
      have hother : (machine rule).withFunctions (machine other).environment.functions =
          machine other := rfl
      rw [EvalM.Commutes, hother] at hcommutes
      rw [Machine.answer_of_ok hparse, Machine.answer_of_ok hparse, hcommutes.1, hcommutes.2]
      rfl

theorem answerBy_congr (hrule : Keeps rule)
    (h : ¬ IsScalarText source → ∀ text, Fits source.utf8ByteSize (.string text) →
      rule text = other text) : answerBy rule source = answerBy other source := by
  rw [answerBy, answerBy, answer_congr hrule h]

/-! ## Levels -/

/-- So many levels are more than the runs that a text starts can use up. -/
def Enough (levels : Nat) (source : String) : Prop :=
  source.utf8ByteSize + 2 ≤ levels ∨ IsScalarText source ∧ 1 ≤ levels

theorem Fits.enough {levels : Nat} (h : Fits bound (.string text)) (hle : bound + 1 ≤ levels) :
    Enough levels text := by
  rcases h.lt_or_isScalarText with hlt | hscalar
  · exact .inl (by omega)
  · exact .inr ⟨hscalar, by omega⟩

/-- A run is given one level less than the run that it is made in. -/
theorem answer_succ (levels : Nat) (source : String) :
    answer (levels + 1) source = answerBy (answer levels) source := by
  rw [answer]
  rfl

theorem answer_eq_of_le {levels more : Nat} (h : Enough levels source) (hle : levels ≤ more) :
    answer more source = answer levels source := by
  induction levels generalizing source more with
  | zero => rcases h with h | ⟨-, h⟩ <;> omega
  | succ levels ih =>
      obtain ⟨more, rfl⟩ : ∃ rest, more = rest + 1 := ⟨more - 1, by omega⟩
      -- The text of a scalar hands nothing on, so the levels that are left do not matter for it.
      have hagrees (hnot : ¬ IsScalarText source) (text : String)
          (hfits : Fits source.utf8ByteSize (.string text)) :
          answer levels text = answer more text := by
        have hlevels := h.resolve_right fun hscalar => hnot hscalar.1
        exact (ih (hfits.enough (by omega)) (by omega)).symm
      rw [answer_succ, answer_succ, answerBy_congr (keeps_answer levels) hagrees]

theorem answer_eq_answerText {levels : Nat} (h : Enough levels source) :
    answer levels source = answerText source := by
  have hlevels := answer_eq_of_le h (Nat.le_max_left levels (source.utf8ByteSize + 2))
  have htext : Enough (source.utf8ByteSize + 2) source := .inl (Nat.le_refl _)
  exact hlevels.symm.trans (answer_eq_of_le htext (Nat.le_max_right _ _))

/-- The rule runs texts in texts by itself. -/
theorem answerText_eq (source : String) : answerText source = answerBy answerText source := by
  have hagrees (_ : ¬ IsScalarText source) (text : String)
      (hfits : Fits source.utf8ByteSize (.string text)) :
      answer (source.utf8ByteSize + 1) text = answerText text :=
    answer_eq_answerText (hfits.enough (Nat.le_refl _))
  rw [answerText, answer_succ, answerBy_congr (keeps_answer _) hagrees]

/-- No other rule runs texts in texts by itself. -/
theorem eq_answerText (h : ∀ source, rule source = answerBy rule source) : rule = answerText := by
  have hstep {source : String} (hagrees : ¬ IsScalarText source → ∀ text,
      Fits source.utf8ByteSize (.string text) → answerText text = rule text) :
      rule source = answerText source := by
    rw [h, answerText_eq, answerBy_congr keeps_answerText hagrees]
  have hscalar {text : String} (htext : IsScalarText text) : rule text = answerText text :=
    hstep fun hnot => absurd htext hnot
  funext source
  induction hsize : source.utf8ByteSize using Nat.strong_induction_on generalizing source with
  | _ size ih =>
    refine hstep fun _ text hfits => ?_
    rcases hfits.lt_or_isScalarText with hlt | htext
    · exact (ih _ (hsize ▸ hlt) text rfl).symm
    · exact (hscalar htext).symm

/-- That a text is run to its end, however deep it runs others. -/
structure Terminates (source : String) : Prop where
  handed : ∀ text, Hands source text →
    text.utf8ByteSize < source.utf8ByteSize ∨ IsScalarText text
  silent : IsScalarText source →
    (∀ expr, parse source = .ok expr → expr.functionNames = ∅) ∧ ∀ text, ¬ Hands source text
  depth : ∀ texts, List.IsChain Hands (source :: texts) →
    (source :: texts).length ≤ source.utf8ByteSize + 2
  ends : Acc (fun inner outer => Hands outer inner) source
  unfolds : answerText source =
    ((Machine.ofEnvironment Environment.empty.withBuiltins).answer .eager source).mapError
      (·.diagnostic.message)
  unique : ∀ rule, (∀ text, rule text = answerBy rule text) → rule source = answerText source
  enough : ∀ levels, source.utf8ByteSize + 2 ≤ levels → answer levels source = answerText source
  finishes : ∀ mode levels, source.utf8ByteSize + 1 ≤ levels →
    (machine (answer levels)).answer mode source =
      (Machine.ofEnvironment Environment.empty.withBuiltins).answer mode source

/-- Every text is run to its end. A text that is handed on is shorter than the one that hands it on,
or it is the text of a number or a truth value, which calls nothing. So at most two more runs are
nested than the text has bytes, and no more levels than that ever count. -/
theorem terminates (source : String) : Terminates source where
  handed _ h := h.fits.lt_or_isScalarText
  silent h := by
    refine ⟨fun expr hparse => ?_, fun text hhands => hhands.not_isScalarText h⟩
    refine Set.eq_empty_iff_forall_notMem.mpr ?_
    rintro name ⟨arguments, hcall⟩
    exact h.not_mem.1 (of_contains_call hparse hcall)
  depth _ := length_le_of_isChain
  ends := acc_hands source
  unfolds := answerText_eq source
  unique _ h := congrFun (eq_answerText h) source
  enough _ h := answer_eq_answerText (.inl h)
  finishes mode levels hle :=
    answer_congr (keeps_answer levels)
      (fun _ _ hfits => answer_eq_answerText (hfits.enough hle)) mode

set_option maxRecDepth 4096 in
/-- The text of a string literal is handed on. -/
theorem terminates_literal :
    List.IsChain Hands ["eval(\"7\")", "7"] ∧
      ["eval(\"7\")", "7"].length ≤ "eval(\"7\")".utf8ByteSize + 2 := by
  have hparse : parse "eval(\"7\")" = .ok (.call "eval" [.constant .string "7"]) := by cbv
  have hchain : List.IsChain Hands ["eval(\"7\")", "7"] := by
    refine List.isChain_pair.mpr ?_
    exact ⟨.eager, _, _, _, _, hparse, .refl _ _, rfl⟩
  exact ⟨hchain, (terminates "eval(\"7\")").depth _ hchain⟩

end Builtin

end ExprLang
