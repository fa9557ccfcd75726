import ExprLang.Proofs.Evaluation.Literals
import ExprLang.Proofs.Evaluation.Writes
import ExprLang.Proofs.Printing.RoundTrip

/-!
# Errors of expressions that a text spells

The grammar rules most of the errors out that are about the shape of an expression or the text of a
literal, and what is left of them is known. A name is used before it has a value only if the host
has declared it so.
-/

namespace ExprLang

/-! ## Operations -/

namespace BinaryOp

variable {op : BinaryOp} {error : RuntimeError}

theorem error_of_arithmetic {pair : Value.Pair} (h : op.arithmetic pair = .error error) :
    error = .divisionByZero ∨ error = .overflow op.symbol := by
  cases pair with
  | ints a b =>
      rw [arithmetic] at h
      split at h
      next =>
        cases h
        exact .inl rfl
      next =>
        split at h <;> cases h
        exact .inr rfl
  | decimals a b =>
      rw [arithmetic] at h
      split at h <;> cases h
      exact .inl rfl

/-- Two values are no operands of the operator, or there is no result for them. -/
theorem error_of_apply {left right : Value} (h : op.apply left right = .error error) :
    error = .invalidOperands op left.kind right.kind ∨ error = .divisionByZero ∨
      error = .overflow op.symbol := by
  unfold apply at h
  dsimp only at h
  split at h <;> split at h <;> first | exact .inr (error_of_arithmetic h) | cases h
  all_goals exact .inl rfl

end BinaryOp

namespace UnaryOp

variable {op : UnaryOp} {value : Value} {error : RuntimeError}

theorem error_of_apply (h : op.apply value = .error error) :
    error = .invalidOperand op value.kind ∨ error = .overflow op.symbol := by
  unfold apply at h
  split at h
  next => cases h
  next =>
    split at h <;> cases h
    exact .inr rfl
  next => cases h
  next => cases h
  next => cases h
  next =>
    cases h
    exact .inl rfl

theorem error_of_stepped (h : op.stepped value = .error error) :
    error = .invalidOperand op value.kind ∨ error = .overflow op.symbol := by
  unfold stepped at h
  split at h
  next =>
    split at h <;> cases h
    exact .inr rfl
  next => cases h
  next =>
    cases h
    exact .inl rfl

end UnaryOp

/-! ## Steps -/

/-- What is known of an error that an evaluation of an expression of the grammar ends with, on the
machine that it leaves. -/
def RuntimeError.Possible (machine : Machine) : RuntimeError → Prop
  | invalidMember _ => False
  | notAssignable target => target = .call
  | invalidLiteral kind text => kind = .int ∧ LiteralKind.IsTooLarge text
  | uninitialized name => ∃ kind, machine.environment.scopes.find? name = some ⟨kind, none⟩
  | _ => True

section

variable {machine next : Machine} {error : RuntimeError} {value : Value}

theorem Value.possible_of_owner (h : value.owner = .error error) : error.Possible machine := by
  cases value <;> cases h <;> trivial

theorem Value.possible_of_container (h : value.container = .error error) :
    error.Possible machine := by
  cases value <;> cases h <;> trivial

theorem Environment.possible_of_lookup {name : String}
    (h : machine.environment.lookup name = .error error) : error.Possible machine := by
  rw [lookup] at h
  split at h <;> cases h
  next hfind => exact ⟨_, hfind⟩
  next => trivial

theorem EvalM.possible_of_request {α : Type} {id : ObjectId} {use : Behaviour → HostM α}
    (h : (EvalM.request id use).run machine = .error error next) : error.Possible next := by
  rw [run_request] at h
  split at h <;> cases h
  trivial

namespace Place

variable {place : Place}

theorem possible_of_read (h : place.read.run machine = .error error next)
    (hplace : ∀ kind name, place ≠ .declaration kind name) : error.Possible next := by
  cases place with
  | var name =>
      rw [run_read isPlain_var] at h
      obtain ⟨hlookup, rfl⟩ := EvalM.error_of_ofExcept h
      exact Environment.possible_of_lookup hlookup
  | declaration kind name => exact absurd rfl (hplace kind name)
  | property id name =>
      rw [read] at h
      exact EvalM.possible_of_request h
  | element id index =>
      rw [read] at h
      exact EvalM.possible_of_request h

theorem possible_of_write (h : (place.write value).run machine = .error error next) :
    error.Possible next := by
  cases place with
  | var name =>
      rw [run_write isPlain_var, stored] at h
      cases hassign : machine.environment.assign name value <;> rw [hassign] at h <;> cases h
      rw [(Environment.assign_eq_error_iff.mp hassign).1]
      trivial
  | declaration kind name => cases h
  | property id name =>
      rw [write] at h
      exact EvalM.possible_of_request h
  | element id index =>
      rw [write] at h
      exact EvalM.possible_of_request h

end Place

end

namespace Expr

namespace Everywhere

variable {p : Expr → Prop} {expr part inner : Expr}

theorem of_mem_operands (h : expr.Everywhere p) (hpart : part ∈ expr.operands) :
    part.Everywhere p := by
  cases expr with
  | member target member =>
      have htarget := h.parts target List.mem_cons_self
      cases member with
      | call name arguments =>
          have hcall := h.parts (.call name arguments) (List.mem_cons_of_mem _ List.mem_cons_self)
          rcases List.mem_cons.mp hpart with rfl | hpart
          · exact htarget
          · exact hcall.parts part hpart
      | _ => exact List.mem_singleton.mp hpart ▸ htarget
  | _ => exact h.parts part hpart

theorem of_contains (h : expr.Everywhere p) (hinner : expr.Contains inner) :
    inner.Everywhere p := by
  induction hinner with
  | refl expr => exact h
  | operand hpart _ ih => exact ih (h.of_mem_operands hpart)

end Everywhere

variable {mode : LogicMode} {accepts : Value → Prop} {expr target : Expr} {machine next : Machine}
  {error : RuntimeError} {α : Type} {answer : α → Prop}

/-- Only a method call is refused where the grammar demands a place. -/
theorem eq_call_of_refusal? {kind : Expr.Kind} (h : expr.Grammatical)
    (htarget : expr.target? = some target) (hkind : target.refusal? = some kind) :
    kind = .call := by
  have hplace : target.isPlace = true ∨ target.isDeclaration = true := by
    cases expr with
    | unary op operand =>
        rw [target?] at htarget
        split at htarget <;> cases htarget
        next hop => exact .inl (h.node.2 hop)
    | assignment op left value =>
        cases htarget
        exact h.node.imp_right And.left
    | _ => cases htarget
  have hfits := (h.of_mem_operands (mem_operands_of_target? htarget)).node
  cases target with
  | member owner part =>
      have hpart : part.isPart = true := hfits.2
      cases part <;> cases hkind <;> first | rfl | cases hpart
  | _ => cases hkind <;> simp [isPlace, isDeclaration] at hplace

theorem Finds.possible {result : Except RuntimeError α} (hshape : expr.Grammatical)
    (htext : expr.HasText) (h : Finds mode accepts expr result answer)
    (herror : result = .error error) : error.Possible machine := by
  cases h with
  | constant =>
      obtain ⟨rfl, htoo, rfl⟩ := LiteralKind.of_value_eq_error htext herror
      exact ⟨rfl, htoo⟩
  | declaration => cases herror; trivial
  | unary _ _ => rcases UnaryOp.error_of_apply herror with rfl | rfl <;> trivial
  | step _ _ => rcases UnaryOp.error_of_stepped herror with rfl | rfl <;> trivial
  | decided _ _ => cases herror
  | binary _ _ => rcases BinaryOp.error_of_apply herror with rfl | rfl | rfl <;> trivial
  | condition => cases herror; trivial
  | compound _ _ _ => rcases BinaryOp.error_of_apply herror with rfl | rfl | rfl <;> trivial
  | owner _ => exact Value.possible_of_owner herror
  | @part _ part hpart =>
      have hfits : part.isPart = true := hshape.node.2
      cases part with
      | var name => exact absurd rfl (hpart name []).1
      | call name arguments => exact absurd rfl (hpart name arguments).2
      | _ => cases hfits
  | container _ => exact Value.possible_of_container herror
  | targetOwner _ _ => exact Value.possible_of_owner herror
  | targetContainer _ _ => exact Value.possible_of_container herror
  | refusal htarget hkind =>
      cases herror
      exact eq_call_of_refusal? hshape htarget hkind

/-- A declaration is stored to without being read. -/
theorem ne_declaration_of_updates (h : expr.Grammatical) (htarget : expr.target? = some target)
    (hupdates : expr.updates = true) (kind : DeclarationKind) (name : String) :
    target ≠ .declaration kind name := by
  rintro rfl
  cases expr with
  | unary op operand =>
      rw [target?] at htarget
      split at htarget <;> cases htarget
      next hop => cases h.node.2 hop
  | assignment op left value =>
      cases htarget
      rcases h.node with hplace | ⟨-, rfl⟩
      · cases hplace
      · cases hupdates
  | _ => cases htarget

theorem Denotes.ne_declaration {place : Place} (h : expr.Denotes accepts place)
    (hexpr : ∀ kind name, expr ≠ .declaration kind name) (kind : DeclarationKind) (name : String) :
    place ≠ .declaration kind name := by
  rintro rfl
  cases h
  exact hexpr kind name rfl

/-- A step of an expression of the grammar fails with a possible error. -/
theorem Performs.possible {start now : Machine} {x : EvalM α} (hshape : expr.Grammatical)
    (htext : expr.HasText) (h : Performs mode accepts expr start now x answer)
    (herror : x.run now = .error error next) : error.Possible next := by
  cases h with
  | find h => exact h.possible hshape htext (EvalM.error_of_ofExcept herror).1
  | read hexpr hplace =>
      refine Place.possible_of_read herror (hplace.ne_declaration ?_)
      rintro kind name rfl
      cases hexpr
  | readTarget htarget hupdates hplace =>
      exact Place.possible_of_read herror
        (hplace.ne_declaration (ne_declaration_of_updates hshape htarget hupdates))
  | write _ _ _ _ => exact Place.possible_of_write herror
  | call _ =>
      rw [run_callFunction] at herror
      split at herror
      next =>
        rw [EvalM.run_host] at herror
        split at herror <;> cases herror
        trivial
      next =>
        cases herror
        trivial
  | method _ _ => exact EvalM.possible_of_request herror

end Expr

/-! ## Whole evaluations -/

/-- An evaluation fails only with errors that are possible on the machine that it leaves. -/
def Judgement.failing (possible : Machine → RuntimeError → Prop) : Judgement where
  Holds machine x answer :=
    (∀ a next, x.run machine = .ok a next → answer a) ∧
      ∀ error next, x.run machine = .error error next → possible next error
  pure hanswer := by
    constructor
    · rintro a next ⟨⟩
      exact hanswer
    · intro error next herror
      rw [EStateM.run_pure] at herror
      cases herror
  bind {α β machine x rest middle answer} hx hrest := by
    cases hrun : x.run machine with
    | ok a next =>
        rw [EvalM.run_bind_of_ok hrun]
        exact hrest a next hrun (hx.1 a next hrun)
    | error error next =>
        rw [EvalM.run_bind_of_error hrun]
        refine ⟨nofun, ?_⟩
        rintro _ _ ⟨⟩
        exact hx.2 error next hrun

/-- Every binding has a value. -/
def Environment.Initialized (environment : Environment) : Prop :=
  ∀ depth name binding, environment.bindingAt? depth name = some binding →
    binding.value.isSome = true

namespace Environment.Initialized

variable {environment next : Environment} {depth : Nat} {name : String}

theorem puts {kind : DeclarationKind} {value : Value} (h : environment.Initialized)
    (hputs : environment.Puts depth name ⟨kind, some value⟩ next) : next.Initialized := by
  intro otherDepth other binding hbinding
  rw [hputs.bindingAt?_eq] at hbinding
  split at hbinding
  next =>
    cases hbinding
    rfl
  next => exact h otherDepth other binding hbinding

theorem find?_ne (h : environment.Initialized) (kind : DeclarationKind) :
    environment.scopes.find? name ≠ some ⟨kind, none⟩ := by
  intro hfind
  cases hhome : environment.scopes.home? name with
  | none => cases (Scopes.eq_none_of_home? hhome).1.symm.trans hfind
  | some home =>
      obtain ⟨binding, hsame, hbinding⟩ := Scopes.exists_binding_of_home? hhome
      cases hsame.symm.trans hfind
      cases h home name _ hbinding

end Environment.Initialized

namespace Expr

variable {mode : LogicMode} {expr : Expr} {machine next : Machine} {error : RuntimeError}

/-- An evaluation of an expression of the grammar fails only with a possible error. -/
theorem possible_of_evaluate (hshape : expr.Grammatical) (htext : expr.Lexical)
    (h : (expr.evaluate mode).run machine = .error error next) : error.Possible next := by
  have hcovers : (Judgement.failing fun machine error => error.Possible machine).Covers mode
      (fun _ => True) expr machine := by
    intro inner start now α x answer hvisits hperforms
    refine ⟨fun a next hrun => hperforms.answer hrun, fun error next herror => ?_⟩
    exact hperforms.possible (hshape.of_contains hvisits.contains)
      (htext.of_contains hvisits.contains).node herror
  exact (Judgement.holds_evaluate expr hcovers).2 error next h

/-- An evaluation leaves a value in every binding, whether it succeeds or fails. -/
theorem initialized_evaluate (mode : LogicMode) (expr : Expr)
    (h : machine.environment.Initialized) :
    ((expr.evaluate mode).after machine).environment.Initialized := by
  apply environment_after_evaluate Environment.Initialized
  case h => exact h
  case hassign =>
    intro inner start name value environment next hvisits htarget hassign h
    rcases Environment.puts_of_assign hassign with ⟨home, binding, -, -, -, hputs⟩ | ⟨-, hputs⟩
    · exact h.puts hputs
    · exact h.puts hputs
  case hdeclare =>
    intro op kind name source start value result last environment hvisits hrun h
    exact h.puts (environment.puts_declare name kind (some value))

end Expr

/-- What is known of the evaluations of an expression: a member is a property or a method call,
nothing but a method call is refused as a place, a literal is refused only as an integer that is too
large, and no name is found without a value if there was none before. -/
structure Expr.Trusted (expr : Expr) : Prop where
  ne_invalidMember : ∀ mode machine found,
    (expr.evaluate mode).answer machine ≠ .error (.invalidMember found)
  eq_call : ∀ mode machine target,
    (expr.evaluate mode).answer machine = .error (.notAssignable target) → target = .call
  isTooLarge : ∀ mode machine kind text,
    (expr.evaluate mode).answer machine = .error (.invalidLiteral kind text) →
      kind = .int ∧ LiteralKind.IsTooLarge text
  ne_uninitialized : ∀ mode machine name, machine.environment.Initialized →
    (expr.evaluate mode).answer machine ≠ .error (.uninitialized name)
  initialized : ∀ mode machine, machine.environment.Initialized →
    ((expr.evaluate mode).after machine).environment.Initialized

/-- Whatever a text spells can be trusted. -/
theorem trusted_of_parse {source : String} {expr : Expr} (h : parse source = .ok expr) :
    expr.Trusted := by
  have hpossible {mode : LogicMode} {machine : Machine} {error : RuntimeError}
      (herror : (expr.evaluate mode).answer machine = .error error) :
      error.Possible ((expr.evaluate mode).after machine) :=
    Expr.possible_of_evaluate (spelled_of_parse h).1 (lexical_of_parse h)
      (EvalM.run_eq_error herror)
  exact {
    ne_invalidMember := fun _ _ _ herror => hpossible herror
    eq_call := fun _ _ _ herror => hpossible herror
    isTooLarge := fun _ _ _ _ herror => hpossible herror
    ne_uninitialized := fun mode _ _ hinitialized herror =>
      have ⟨kind, hfind⟩ := hpossible herror
      (Expr.initialized_evaluate mode expr hinitialized).find?_ne kind hfind
    initialized := fun mode _ => Expr.initialized_evaluate mode expr }

set_option maxRecDepth 4096 in
/-- A method call as the target, and a literal that is too large. -/
theorem trusted_of_parse_method :
    parse "x.f() = 9223372036854775808" = .ok (.assignment .assign
      (.member (.var "x") (.call "f" [])) (.constant .int "9223372036854775808")) ∧
    (Expr.assignment .assign (.member (.var "x") (.call "f" []))
      (.constant .int "9223372036854775808")).Trusted := by
  have hparse : parse "x.f() = 9223372036854775808" = .ok (.assignment .assign
      (.member (.var "x") (.call "f" [])) (.constant .int "9223372036854775808")) := by cbv
  exact ⟨hparse, trusted_of_parse hparse⟩

end ExprLang
