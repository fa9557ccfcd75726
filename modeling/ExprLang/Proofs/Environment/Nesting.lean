import ExprLang.Proofs.Environment.Constants

/-!
# Scopes that are opened and left again

Between the opening of a scope and the leaving of it, whatever is declared goes into that scope or
into one further inside. So the scopes around it lose and gain no names, and their bindings take
other values only where an assignment or a step finds them visible.
-/

namespace ExprLang

/-- Runs of requests that leave each scope that they open, and no other. -/
inductive Balanced : List Request → Prop
  | nil : Balanced []
  | cons {request : Request} {rest : List Request} (hpush : request ≠ .pushScope)
      (hpop : request ≠ .popScope) (hrest : Balanced rest) : Balanced (request :: rest)
  | bracket {inner rest : List Request} (hinner : Balanced inner) (hrest : Balanced rest) :
      Balanced (.pushScope :: (inner ++ .popScope :: rest))

/-! ## Writing to a binding -/

/-- An evaluation that starts on one machine stores to a variable on another: the operand of a step
at once, and the target of an assignment when the right side has a value. -/
inductive Expr.Stores (mode : LogicMode) : Expr → (start now : Machine) → (name : String) → Prop
  | step {op : UnaryOp} {name : String} {start : Machine} (hop : op.mutates = true) :
      Stores mode (.unary op (.var name)) start start name
  | assignment {op : AssignOp} {name : String} {source : Expr} {value : Value}
      {start now : Machine} (hsource : (source.evaluate mode).run start = .ok value now) :
      Stores mode (.assignment op (.var name) source) start now name

/-- Whether evaluating an expression on a machine writes to the binding of a name in the scope at a
depth: an assignment or a step that is evaluated on the way succeeds in storing to the name, which
means that binding then. -/
def Expr.WritesTo (mode : LogicMode) (expr : Expr) (machine : Machine) (depth : Nat)
    (name : String) : Prop :=
  ∃ inner start now result last, Visits mode expr machine inner start ∧
    inner.Stores mode start now name ∧ (inner.evaluate mode).run start = .ok result last ∧
    now.environment.scopes.home? name = some depth

/-- Whether a request writes to the binding of a name in the scope at a depth. -/
def Request.WritesTo (machine : Machine) (depth : Nat) (name : String) : Request → Prop
  | assign other value => other = name ∧ machine.environment.scopes.home? name = some depth ∧
      ∃ next, machine.environment.assign name value = .ok next
  | evaluate mode expr => expr.WritesTo mode machine depth name
  | define .. | declare .. | pushScope | popScope => False

/-- Whether one of the requests of a run writes to the binding of a name in the scope at a depth. -/
def Machine.WritesTo (machine : Machine) (requests : List Request) (depth : Nat) (name : String) :
    Prop :=
  ∃ front request rest, requests = front ++ request :: rest ∧
    request.WritesTo (machine.performAll front) depth name

namespace Place

variable {place : Place} {op : UnaryOp} {compound : AssignOp} {value result answer : Value}
  {machine last : Machine}

theorem of_write_bind (h : (place.write value >>= fun _ => pure result).run machine =
    .ok answer last) : (place.write value).run machine = .ok () last := by
  obtain ⟨_, next, hwrite, hrest⟩ := EvalM.run_bind_eq_ok_iff.mp h
  cases hrest
  exact hwrite

theorem exists_write_of_step (hplain : place.IsPlain machine)
    (h : (place.step op).run machine = .ok answer last) :
    ∃ value, (place.write value).run machine = .ok () last := by
  obtain ⟨old, h⟩ := of_read_bind hplain h
  obtain ⟨new, h⟩ := EvalM.of_ofExcept_bind h
  exact ⟨new, of_write_bind h⟩

theorem exists_write_of_assign (hplain : place.IsPlain machine)
    (h : (place.assign compound value).run machine = .ok answer last) :
    ∃ value, (place.write value).run machine = .ok () last := by
  rw [assign] at h
  split at h
  next => exact ⟨value, of_write_bind h⟩
  next =>
    obtain ⟨old, h⟩ := of_read_bind hplain h
    obtain ⟨stored, h⟩ := EvalM.of_ofExcept_bind h
    exact ⟨stored, of_write_bind h⟩

theorem exists_assign_of_write {name : String}
    (h : ((var name).write value).run machine = .ok () last) :
    machine.environment.assign name value = .ok last.environment := by
  rw [run_write isPlain_var, stored] at h
  cases hassign : machine.environment.assign name value with
  | ok environment =>
      rw [hassign] at h
      cases h
      rfl
  | error error =>
      rw [hassign] at h
      cases h

end Place

namespace Expr

variable {mode : LogicMode} {expr : Expr} {start last : Machine} {name : String} {result : Value}

/-- An expression that succeeds in storing to a variable ends with an assignment to it. -/
theorem exists_stores (htarget : expr.target? = some (.var name))
    (h : (expr.evaluate mode).run start = .ok result last) :
    ∃ now, expr.Stores mode start now name ∧
      ∃ value, now.environment.assign name value = .ok last.environment := by
  cases expr with
  | unary op operand =>
      rw [target?] at htarget
      split at htarget <;> cases htarget
      next hop =>
        rw [evaluate, if_pos hop] at h
        obtain ⟨value, hwrite⟩ := Place.exists_write_of_step Place.isPlain_var h
        exact ⟨start, .step hop, value, Place.exists_assign_of_write hwrite⟩
  | assignment op target source =>
      cases htarget
      rw [evaluate, evaluatePlace, pure_bind] at h
      obtain ⟨value, now, hsource, h⟩ := EvalM.run_bind_eq_ok_iff.mp h
      obtain ⟨stored, hwrite⟩ := Place.exists_write_of_assign Place.isPlain_var h
      exact ⟨now, .assignment hsource, stored, Place.exists_assign_of_write hwrite⟩
  | _ => cases htarget

/-- A binding outside the innermost scope is changed by a step only if the step writes to it. -/
theorem Performs.bindingAt?_after {α : Type} {accepts : Value → Prop} {x : EvalM α}
    {answer : α → Prop} {now : Machine} {depth : Nat}
    (h : Performs mode accepts expr start now x answer) (name : String)
    (hdepth : depth < now.environment.depth) :
    (x.after now).environment.depth = now.environment.depth ∧
      ((x.after now).environment.bindingAt? depth name = now.environment.bindingAt? depth name ∨
        ∃ now result last, expr.Stores mode start now name ∧
          (expr.evaluate mode).run start = .ok result last ∧
          now.environment.scopes.home? name = some depth) := by
  rcases h.environment_after with hsame | ⟨other, value, result, htarget, hrun, hassign⟩ |
    ⟨op, kind, other, source, value, result, last, rfl, -, hdeclare⟩
  · exact ⟨congrArg _ hsame, .inl (congrArg (·.bindingAt? depth name) hsame)⟩
  · obtain ⟨hlast, hhome⟩ := Environment.home?_of_assign hassign
    refine ⟨hlast, ?_⟩
    rcases Environment.puts_of_assign hassign with ⟨home, _, hnow, -, -, hputs⟩ | ⟨-, hputs⟩
    · by_cases hsame : depth = home ∧ other = name
      · -- The variable is stored to on a machine with the same home of its name.
        obtain ⟨rfl, rfl⟩ := hsame
        obtain ⟨before, hstores, stored, hstored⟩ := exists_stores htarget hrun
        obtain ⟨hdepth', hhome'⟩ := Environment.home?_of_assign hstored
        refine .inr ⟨before, result, _, hstores, hrun, ?_⟩
        rw [hnow] at hhome
        rw [hhome] at hhome'
        cases hbefore : before.environment.scopes.home? other with
        | some home =>
            rw [hbefore] at hhome'
            exact hhome'.symm
        | none =>
            rw [hbefore] at hhome'
            have hinner : depth = before.environment.depth := Option.some.inj hhome'
            omega
      · exact .inl (by rw [hputs.bindingAt?_eq, if_neg hsame])
    · exact .inl (by rw [hputs.bindingAt?_eq, if_neg fun hsame => Nat.ne_of_lt hdepth hsame.1])
  · have hputs := now.environment.puts_declare other kind (some value)
    rw [← hdeclare] at hputs
    exact ⟨hputs.depth_eq, .inl (by
      rw [hputs.bindingAt?_eq, if_neg fun hsame => Nat.ne_of_lt hdepth hsame.1])⟩

/-- An evaluation that does not write to a binding outside the innermost scope leaves it as it is.
-/
theorem bindingAt?_evaluate {machine : Machine} {depth : Nat}
    (hdepth : depth < machine.environment.depth) (hnot : ¬ expr.WritesTo mode machine depth name) :
    ((expr.evaluate mode).after machine).environment.bindingAt? depth name =
      machine.environment.bindingAt? depth name := by
  let J := Judgement.keeping fun now => now.environment.depth = machine.environment.depth ∧
    now.environment.bindingAt? depth name = machine.environment.bindingAt? depth name
  have hcovers : J.Covers mode (fun _ => True) expr machine := by
    rintro inner start now α x answer hvisits hperforms ⟨hsame, hbinding⟩
    refine ⟨?_, fun a next hrun => hperforms.answer hrun⟩
    obtain ⟨hlast, hkept | ⟨before, result, last, hstores, hrun, hhome⟩⟩ :=
      hperforms.bindingAt?_after name (hsame ▸ hdepth)
    · exact ⟨hlast.trans hsame, hkept.trans hbinding⟩
    · exact absurd ⟨inner, start, before, result, last, hvisits, hstores, hrun, hhome⟩ hnot
  exact (Judgement.holds_evaluate expr hcovers ⟨rfl, rfl⟩).1.2

end Expr

/-! ## Outer scopes -/

/-- An environment has the scopes outside a depth in common with another one: the same names with
the same kinds of declarations, the same constants, and the same values unless they were written. -/
structure Environment.Shelters (limit : Nat) (written : Nat → String → Prop)
    (environment next : Environment) : Prop where
  depth_eq : next.depth = environment.depth
  kinds_eq : ∀ depth, depth < limit → ∀ name, (next.bindingAt? depth name).map Binding.kind =
    (environment.bindingAt? depth name).map Binding.kind
  fixes : ∀ depth, depth < limit → ∀ name constant, environment.Fixes depth name constant →
    next.Fixes depth name constant
  written_of_ne : ∀ depth, depth < limit → ∀ name,
    next.bindingAt? depth name ≠ environment.bindingAt? depth name → written depth name

namespace Environment

variable {limit smaller : Nat} {written more : Nat → String → Prop}
  {environment next last : Environment}

theorem bindingAt?_popScope {depth : Nat} (h : depth < environment.depth) (name : String) :
    environment.popScope.bindingAt? depth name = environment.bindingAt? depth name :=
  Scopes.bindingAt?_pop (.inl (Nat.ne_of_lt h))

theorem bindingAt?_pushScope (environment : Environment) (depth : Nat) (name : String) :
    environment.pushScope.bindingAt? depth name = environment.bindingAt? depth name :=
  Scopes.bindingAt?_inner_empty environment.scopes depth name

theorem depth_popScope (environment : Environment) :
    environment.popScope.depth = environment.depth - 1 := by
  obtain ⟨scopes, functions⟩ := environment
  cases scopes <;> rfl

/-- Leaving the global scope is nothing. -/
theorem popScope_of_depth_eq_zero (h : environment.depth = 0) :
    environment.popScope = environment := by
  obtain ⟨scopes, functions⟩ := environment
  cases scopes with
  | global scope => rfl
  | inner scope outer => cases h

namespace Shelters

theorem refl (limit : Nat) (written : Nat → String → Prop) (environment : Environment) :
    environment.Shelters limit written environment :=
  ⟨rfl, fun _ _ _ => rfl, fun _ _ _ _ h => h, fun _ _ _ hne => absurd rfl hne⟩

/-- Scopes that keep their bindings as they are. -/
theorem of_bindingAt?_eq (hdepth : next.depth = environment.depth)
    (h : ∀ depth, depth < limit → ∀ name,
      next.bindingAt? depth name = environment.bindingAt? depth name) :
    environment.Shelters limit written next where
  depth_eq := hdepth
  kinds_eq depth hlt name := congrArg _ (h depth hlt name)
  fixes depth hlt name _ hfixes := (h depth hlt name).trans hfixes
  written_of_ne depth hlt name hne := absurd (h depth hlt name) hne

theorem mono (h : environment.Shelters limit written next) (hle : smaller ≤ limit) :
    environment.Shelters smaller written next where
  depth_eq := h.depth_eq
  kinds_eq depth hlt := h.kinds_eq depth (Nat.lt_of_lt_of_le hlt hle)
  fixes depth hlt := h.fixes depth (Nat.lt_of_lt_of_le hlt hle)
  written_of_ne depth hlt := h.written_of_ne depth (Nat.lt_of_lt_of_le hlt hle)

theorem imp (h : environment.Shelters limit written next)
    (himp : ∀ depth name, written depth name → more depth name) :
    environment.Shelters limit more next where
  depth_eq := h.depth_eq
  kinds_eq := h.kinds_eq
  fixes := h.fixes
  written_of_ne depth hlt name hne := himp depth name (h.written_of_ne depth hlt name hne)

theorem trans (h : environment.Shelters limit written next)
    (hnext : next.Shelters limit written last) : environment.Shelters limit written last where
  depth_eq := hnext.depth_eq.trans h.depth_eq
  kinds_eq depth hlt name := (hnext.kinds_eq depth hlt name).trans (h.kinds_eq depth hlt name)
  fixes depth hlt name constant hfixes :=
    hnext.fixes depth hlt name constant (h.fixes depth hlt name constant hfixes)
  written_of_ne depth hlt name hne := by
    by_cases hsame : next.bindingAt? depth name = environment.bindingAt? depth name
    · exact hnext.written_of_ne depth hlt name (hsame ▸ hne)
    · exact h.written_of_ne depth hlt name hsame

theorem declare (environment : Environment) (name : String) (kind : DeclarationKind)
    (value : Option Value) (written : Nat → String → Prop) :
    environment.Shelters environment.depth written (environment.declare name kind value) := by
  have hputs := environment.puts_declare name kind value
  refine .of_bindingAt?_eq hputs.depth_eq fun depth hlt other => ?_
  rw [hputs.bindingAt?_eq, if_neg fun hsame => Nat.ne_of_lt hlt hsame.1]

theorem assign {name : String} {value : Value} (h : environment.assign name value = .ok next) :
    environment.Shelters environment.depth
      (fun depth other => other = name ∧ environment.scopes.home? name = some depth) next := by
  rcases puts_of_assign h with ⟨home, binding, hhome, hbinding, -, hputs⟩ | ⟨-, hputs⟩
  · refine ⟨hputs.depth_eq, fun depth _ other => ?_, fun depth _ other constant hfixes =>
      hfixes.assign h, fun depth _ other hne => ?_⟩
    · rw [hputs.bindingAt?_eq]
      split
      next hsame =>
        obtain ⟨rfl, rfl⟩ := hsame
        rw [hbinding]
        rfl
      next => rfl
    · rw [hputs.bindingAt?_eq] at hne
      split at hne
      next hsame =>
        obtain ⟨rfl, rfl⟩ := hsame
        exact ⟨rfl, hhome⟩
      next => exact absurd rfl hne
  · refine .of_bindingAt?_eq hputs.depth_eq fun depth hlt other => ?_
    rw [hputs.bindingAt?_eq, if_neg fun hsame => Nat.ne_of_lt hlt hsame.1]

/-- What shelters the scopes around a scope that is opened still does so when it is left. -/
theorem bracket (h : environment.pushScope.Shelters (environment.depth + 1) written next) :
    environment.Shelters (environment.depth + 1) written next.popScope := by
  have hdepth : next.depth = environment.depth + 1 := h.depth_eq
  have hpop : ∀ depth, depth < environment.depth + 1 → ∀ name,
      next.popScope.bindingAt? depth name = next.bindingAt? depth name :=
    fun depth hlt => bindingAt?_popScope (hdepth ▸ hlt)
  have hpush := environment.bindingAt?_pushScope
  refine ⟨?_, fun depth hlt name => ?_, fun depth hlt name constant hfixes => ?_,
    fun depth hlt name hne => ?_⟩
  · rw [depth_popScope, hdepth, Nat.add_sub_cancel]
  · rw [hpop depth hlt, ← hpush]
    exact h.kinds_eq depth hlt name
  · rw [Fixes, hpop depth hlt]
    exact h.fixes depth hlt name constant ((hpush depth name).trans hfixes)
  · rw [hpop depth hlt, ← hpush] at hne
    exact h.written_of_ne depth hlt name hne

/-- A name has a meaning only if it had one. -/
theorem find?_eq_none (h : environment.Shelters (environment.depth + 1) written next)
    {name : String} (hnone : environment.scopes.find? name = none) :
    next.scopes.find? name = none := by
  refine Scopes.find?_eq_none_iff.mpr fun depth => ?_
  rcases Nat.lt_or_ge environment.depth depth with hlt | hle
  · exact Scopes.bindingAt?_eq_none_of_lt (Nat.lt_of_le_of_lt (Nat.le_of_eq h.depth_eq) hlt)
  · have hkind := h.kinds_eq depth (Nat.lt_succ_of_le hle) name
    have hbinding : environment.bindingAt? depth name = none :=
      Scopes.find?_eq_none_iff.mp hnone depth
    rw [hbinding] at hkind
    exact Option.map_eq_none_iff.mp hkind

end Shelters

end Environment

/-- Whether it succeeds or fails, an evaluation shelters the scopes around the innermost one. -/
theorem Expr.shelters_evaluate (mode : LogicMode) (expr : Expr) (machine : Machine) :
    machine.environment.Shelters machine.environment.depth (expr.WritesTo mode machine)
      ((expr.evaluate mode).after machine).environment := by
  let anything : Nat → String → Prop := fun _ _ => True
  have hkept : machine.environment.Shelters machine.environment.depth anything
      ((expr.evaluate mode).after machine).environment := by
    apply environment_after_evaluate
      (machine.environment.Shelters machine.environment.depth anything)
    case h => exact .refl _ _ _
    case hassign =>
      intro inner start name value environment next _ _ hassign h
      refine h.trans ?_
      rw [← h.depth_eq]
      exact (Environment.Shelters.assign hassign).imp fun _ _ _ => trivial
    case hdeclare =>
      intro op kind name source start value result last environment _ _ h
      refine h.trans ?_
      rw [← h.depth_eq]
      exact .declare environment name kind (some value) anything
  refine ⟨hkept.depth_eq, hkept.kinds_eq, hkept.fixes, fun depth hlt name hne => ?_⟩
  exact Classical.byContradiction fun hnot => hne (bindingAt?_evaluate hlt hnot)

/-! ## Runs of requests -/

namespace Machine

variable {machine : Machine} {first second : List Request} {depth : Nat} {name : String}

theorem performAll_append (machine : Machine) (first second : List Request) :
    machine.performAll (first ++ second) = (machine.performAll first).performAll second :=
  List.foldl_append

theorem WritesTo.head {request : Request} (h : request.WritesTo machine depth name)
    (rest : List Request) : machine.WritesTo (request :: rest) depth name :=
  ⟨[], request, rest, rfl, h⟩

theorem WritesTo.append_left (h : machine.WritesTo first depth name) (second : List Request) :
    machine.WritesTo (first ++ second) depth name := by
  obtain ⟨front, request, rest, rfl, h⟩ := h
  exact ⟨front, request, rest ++ second, by simp, h⟩

theorem WritesTo.append_right (first : List Request)
    (h : (machine.performAll first).WritesTo second depth name) :
    machine.WritesTo (first ++ second) depth name := by
  obtain ⟨front, request, rest, rfl, h⟩ := h
  rw [← performAll_append] at h
  exact ⟨first ++ front, request, rest, by simp, h⟩

/-- A request that neither opens nor leaves a scope shelters the scopes around the innermost one. -/
theorem shelters_perform {request : Request} (hpush : request ≠ .pushScope)
    (hpop : request ≠ .popScope) (machine : Machine) :
    machine.environment.Shelters machine.environment.depth (request.WritesTo machine)
      (machine.perform request).environment := by
  cases request with
  | define other value => exact .declare machine.environment other .let (some value) _
  | declare other kind value => exact .declare machine.environment other kind value _
  | assign other value =>
      rw [perform]
      split
      next next hassign =>
        refine (Environment.Shelters.assign hassign).imp fun depth name hwritten => ?_
        exact ⟨hwritten.1.symm, hwritten.1 ▸ hwritten.2, next, hwritten.1 ▸ hassign⟩
      next => exact .refl _ _ _
  | evaluate mode expr => exact Expr.shelters_evaluate mode expr machine
  | pushScope => exact absurd rfl hpush
  | popScope => exact absurd rfl hpop

/-- A scope that is opened and left leaves the other scopes sheltered. -/
theorem shelters_bracket {inner : List Request} {written : Nat → String → Prop}
    (h : (machine.perform .pushScope).environment.Shelters (machine.environment.depth + 1) written
      ((machine.perform .pushScope).performAll inner).environment) :
    machine.environment.Shelters (machine.environment.depth + 1) written
      (machine.performAll (.pushScope :: (inner ++ [.popScope]))).environment := by
  have hrun : machine.performAll (.pushScope :: (inner ++ [.popScope])) =
      ((machine.perform .pushScope).performAll inner).perform .popScope :=
    performAll_append (machine.perform .pushScope) inner [.popScope]
  rw [hrun]
  exact h.bracket

/-- A run that leaves each scope that it opens shelters the scopes around the innermost one. -/
theorem shelters_performAll {requests : List Request} (h : Balanced requests) (machine : Machine) :
    machine.environment.Shelters machine.environment.depth (machine.WritesTo requests)
      (machine.performAll requests).environment := by
  induction h generalizing machine with
  | nil => exact .refl _ _ _
  | @cons request rest hpush hpop hrest ih =>
      have hfirst := (shelters_perform hpush hpop machine).imp fun _ _ h => WritesTo.head h rest
      have hdepth : (machine.perform request).environment.depth = machine.environment.depth :=
        hfirst.depth_eq
      refine hfirst.trans ?_
      rw [← hdepth]
      exact (ih (machine.perform request)).imp fun _ _ => WritesTo.append_right [request]
  | @bracket inner rest hinner hrest ihinner ihrest =>
      have hlist : Request.pushScope :: (inner ++ .popScope :: rest) =
          (.pushScope :: (inner ++ [.popScope])) ++ rest := by simp
      have hbracket := (shelters_bracket (ihinner (machine.perform .pushScope))).mono
        (Nat.le_succ machine.environment.depth)
      rw [hlist, performAll_append]
      refine (hbracket.imp fun depth name hwritten => ?_).trans ?_
      · exact (WritesTo.append_right [.pushScope] (hwritten.append_left [.popScope])).append_left
          rest
      · rw [← hbracket.depth_eq]
        exact (ihrest _).imp fun _ _ => WritesTo.append_right _

/-- What happens between the opening of a scope and the leaving of it has no effect on the scopes
around it but on values of bindings that are written to while their names mean them: the scopes are
as many as before, with the same names, kinds of declarations and constants, and no other name has
a meaning. Leaving a scope that was not opened has no effect at all. -/
theorem shelters_of_balanced {requests : List Request} (h : Balanced requests)
    (machine : Machine) :
    machine.environment.Shelters (machine.environment.depth + 1)
        ((machine.perform .pushScope).WritesTo requests)
        (machine.performAll (.pushScope :: (requests ++ [.popScope]))).environment ∧
      (∀ name, machine.environment.scopes.find? name = none →
        (machine.performAll (.pushScope :: (requests ++ [.popScope]))).environment.scopes.find? name
          = none) ∧
      (machine.environment.depth = 0 → machine.perform .popScope = machine) := by
  have hshelters := shelters_bracket (shelters_performAll h (machine.perform .pushScope))
  refine ⟨hshelters, fun name => hshelters.find?_eq_none, fun hdepth => ?_⟩
  rw [perform, Environment.popScope_of_depth_eq_zero hdepth]

/-- An inner scope has its own variable and adds it to an outer one, which a scope further inside
hides for a while. -/
theorem shelters_of_balanced_sum :
    let machine := Machine.ofEnvironment (Environment.empty.define "sum" (.int 1))
    let requests : List Request :=
      [.define "i" (.int 3), .evaluate .eager (.assignment .add (.var "sum") (.var "i")),
        .pushScope, .declare "sum" .const (some (.int 9)), .assign "sum" (.int 5), .popScope]
    let last := machine.performAll (.pushScope :: (requests ++ [.popScope]))
    Balanced requests ∧
      machine.environment.Shelters 1 ((machine.perform .pushScope).WritesTo requests)
        last.environment ∧
      last.environment.bindingAt? 0 "sum" = some ⟨.let, some (.int 4)⟩ ∧
      last.environment.scopes.find? "i" = none := by
  intro machine requests last
  have hinner : Balanced [.declare "sum" .const (some (.int 9)), .assign "sum" (.int 5)] :=
    .cons nofun nofun (.cons nofun nofun .nil)
  have hbalanced : Balanced requests :=
    .cons nofun nofun (.cons nofun nofun (.bracket hinner .nil))
  obtain ⟨hshelters, hhidden, -⟩ := shelters_of_balanced hbalanced machine
  exact ⟨hbalanced, hshelters, rfl, hhidden "i" rfl⟩

end Machine

end ExprLang
