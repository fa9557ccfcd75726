import ExprLang.Proofs.Evaluation.Agreement
import ExprLang.Proofs.Evaluation.Writes
import ExprLang.Proofs.Host.Contents

/-!
# Where values come from

An evaluation gets its values from the literals and variables of its expression, from operators and
functions, and out of objects that it got before. So it never leaves a class of values that is
closed under these: no other value is answered or written, and no object outside the class is
changed.
-/

namespace ExprLang

/-! ## Operations -/

section

variable {value first result : Value} {mode : LogicMode}

theorem BinaryOp.isScalar_of_decided? {op : BinaryOp} (h : op.decided? mode first = some result) :
    result.isScalar = true := by
  unfold decided? at h
  split at h
  · split at h <;> cases h
    rfl
  · split at h <;> cases h
    rfl
  · cases h

theorem BinaryOp.isScalar_of_arithmetic {op : BinaryOp} {pair : Value.Pair}
    (h : op.arithmetic pair = .ok value) : value.isScalar = true := by
  cases pair with
  | ints a b =>
      rw [arithmetic] at h
      split at h
      · cases h
      · split at h <;> cases h
        rfl
  | decimals a b =>
      rw [arithmetic] at h
      split at h <;> cases h
      rfl

theorem BinaryOp.isScalar_power (pair : Value.Pair) : (power pair).isScalar = true := by
  cases pair <;> rfl

theorem BinaryOp.isScalar_of_apply {op : BinaryOp} {left right : Value}
    (h : op.apply left right = .ok value) : value.isScalar = true := by
  unfold apply at h
  dsimp only at h
  split at h <;> split at h <;> first | exact isScalar_of_arithmetic h | cases h
  all_goals first | rfl | exact isScalar_power _

theorem UnaryOp.isScalar_of_apply {op : UnaryOp} (h : op.apply first = .ok value) :
    value.isScalar = true := by
  unfold apply at h
  split at h
  case h_2 =>
    split at h <;> cases h
    rfl
  all_goals
    cases h
    try rfl

theorem UnaryOp.isScalar_of_stepped {op : UnaryOp} (h : op.stepped first = .ok value) :
    value.isScalar = true := by
  unfold stepped at h
  split at h
  · split at h <;> cases h
    rfl
  · cases h
    rfl
  · cases h

/-- A literal that is no string has a scalar value. -/
theorem LiteralKind.isScalar_or_string {kind : LiteralKind} {text : String}
    (h : kind.value text = .ok value) :
    value.isScalar = true ∨ kind = .string ∧ value = .string text := by
  unfold LiteralKind.value at h
  cases kind with
  | int =>
      cases hread : (Integer.read? text.toList).toOption <;> simp only [hread] at h <;> cases h
      exact .inl rfl
  | decimal =>
      cases hread : Decimal.read? text.toList <;> simp only [hread] at h <;> cases h
      exact .inl rfl
  | string =>
      cases h
      exact .inr ⟨rfl, rfl⟩
  | bool =>
      dsimp only at h
      split at h
      next heq =>
        cases h
        split at heq
        · cases heq
          exact .inl rfl
        · split at heq <;> cases heq
          exact .inl rfl
      next => cases h

end

/-! ## Classes of values -/

/-- For accepted arguments a function answers an accepted value, and it leaves the objects alone. -/
structure HostFunction.Carries (accepts : Value → Prop) (function : HostFunction) : Prop where
  answer : ∀ {values heap value next}, (∀ argument ∈ values, accepts argument) →
    (function.invoke values).run heap = .ok value next → accepts value ∧ next = heap
  failure : ∀ {values heap error next},
    (function.invoke values).run heap = .error error next → next = heap

/-- A class of values has all scalars, the string literals of an expression, and what the functions
that the expression calls make of values of the class. -/
structure Expr.Closes (accepts : Value → Prop) (environment : Environment) (expr : Expr) :
    Prop where
  scalar : ∀ {value}, value.isScalar = true → accepts value
  literal : ∀ {text}, expr.Contains (.constant .string text) → accepts (.string text)
  function : ∀ {name arguments function}, expr.Contains (.call name arguments) →
    environment.function? name = some function → function.Carries accepts

/-- On the way from one machine to another nothing has left a class of values: the names mean
accepted values, accepted objects are of plain behaviour and hold accepted values, and the other
objects and all bindings without an accepted value are as they were. -/
structure Machine.Confines (accepts : Value → Prop) (names : Set String)
    (machine next : Machine) : Prop where
  plain : ∀ id, accepts (.object id) → next.behaviour id = .plain
  functions_eq : next.environment.functions = machine.environment.functions
  visible : ∀ name ∈ names, ∀ kind value,
    next.environment.scopes.find? name = some ⟨kind, some value⟩ → accepts value
  held : ∀ id value, accepts (.object id) → (next.heap.find id).Holds value → accepts value
  outside : ∀ id, ¬ accepts (.object id) → next.heap.find id = machine.heap.find id
  written : ∀ depth name,
    next.environment.bindingAt? depth name = machine.environment.bindingAt? depth name ∨
      ∃ kind value, next.environment.bindingAt? depth name = some ⟨kind, some value⟩ ∧
        accepts value

variable {accepts : Value → Prop} {names : Set String} {machine now next start : Machine}

namespace Machine.Confines

/-- At the beginning only the names and the objects have to be looked at. -/
theorem refl (hplain : ∀ id, accepts (.object id) → machine.behaviour id = .plain)
    (hvisible : ∀ name ∈ names, ∀ kind value,
      machine.environment.scopes.find? name = some ⟨kind, some value⟩ → accepts value)
    (hheld : ∀ id value, accepts (.object id) → (machine.heap.find id).Holds value →
      accepts value) : machine.Confines accepts names machine :=
  ⟨hplain, rfl, hvisible, hheld, fun _ _ => rfl, fun _ _ => .inl rfl⟩

variable {name : String} {value : Value} {environment : Environment}

theorem puts (h : machine.Confines accepts names now) {depth : Nat} {kind : DeclarationKind}
    (hputs : now.environment.Puts depth name ⟨kind, some value⟩ environment)
    (hfind : ∀ other, environment.scopes.find? other =
      if name = other then some ⟨kind, some value⟩ else now.environment.scopes.find? other)
    (hvalue : accepts value) : machine.Confines accepts names { now with environment } where
  plain := h.plain
  functions_eq := hputs.functions_eq.trans h.functions_eq
  visible other hother otherKind otherValue hbinding := by
    rw [hfind] at hbinding
    split at hbinding
    · cases hbinding
      exact hvalue
    · exact h.visible other hother otherKind otherValue hbinding
  held := h.held
  outside := h.outside
  written otherDepth other := by
    rw [hputs.bindingAt?_eq]
    split
    · exact .inr ⟨kind, value, rfl, hvalue⟩
    · exact h.written otherDepth other

theorem declare (h : machine.Confines accepts names now) (name : String) (kind : DeclarationKind)
    (hvalue : accepts value) :
    machine.Confines accepts names
      { now with environment := now.environment.declare name kind (some value) } :=
  h.puts (now.environment.puts_declare name kind (some value))
    (fun other => now.environment.find?_declare name other kind (some value)) hvalue

theorem assign (h : machine.Confines accepts names now)
    (hassign : now.environment.assign name value = .ok environment) (hvalue : accepts value) :
    machine.Confines accepts names { now with environment } := by
  have hfind := Environment.find?_of_assign hassign
  rcases Environment.puts_of_assign hassign with ⟨home, binding, hhome, hbinding, -, hputs⟩ |
    ⟨hhome, hputs⟩
  · obtain ⟨seen, hseen, hsame⟩ := Scopes.exists_binding_of_home? hhome
    rw [Environment.bindingAt?, hsame] at hbinding
    cases hbinding
    rw [hseen] at hfind
    exact h.puts hputs hfind hvalue
  · rw [(Scopes.eq_none_of_home? hhome).1] at hfind
    exact h.puts hputs hfind hvalue

/-- An accepted object may take in accepted values. -/
theorem stores (h : machine.Confines accepts names now) {id : ObjectId} {values : List Value}
    {heap : Heap} (hstores : now.heap.Stores id values heap) (hid : accepts (.object id))
    (hvalues : ∀ value ∈ values, accepts value) :
    machine.Confines accepts names { now with heap } where
  plain other hother := (hstores.behaviour_eq now.behaviours other).trans (h.plain other hother)
  functions_eq := h.functions_eq
  visible := h.visible
  held other inner hother hinner := by
    by_cases hsame : other = id
    · subst hsame
      rcases hstores.holds inner hinner with hnew | hold
      · exact hvalues inner hnew
      · exact h.held other inner hother hold
    · have hkept : (now.heap.find other).Holds inner := hstores.find_eq other hsame ▸ hinner
      exact h.held other inner hother hkept
  outside other hother := by
    have hne : other ≠ id := fun hsame => hother (hsame ▸ hid)
    exact (hstores.find_eq other hne).trans (h.outside other hother)
  written := h.written

theorem isPlain (h : machine.Confines accepts names now) {expr : Expr} {place : Place}
    (hplace : expr.Denotes accepts place) : place.IsPlain now := by
  cases hplace with
  | var => trivial
  | declaration => trivial
  | property hid => exact h.plain _ hid
  | element hid _ => exact h.plain _ hid

/-- What is found at a place of an accepted object or under one of the names is accepted. -/
theorem current (h : machine.Confines accepts names now)
    (hscalar : ∀ {value}, value.isScalar = true → accepts value) {expr : Expr} {place : Place}
    (hplace : expr.Denotes accepts place) (hnames : ∀ name, place = .var name → name ∈ names)
    (hcurrent : place.current now = .ok value) : accepts value := by
  cases hplace with
  | @var name =>
      rw [Place.current, Environment.lookup] at hcurrent
      split at hcurrent <;> cases hcurrent
      next kind hfind => exact h.visible name (hnames name rfl) kind value hfind
  | declaration => cases hcurrent
  | @property _ name id hid =>
      rw [Place.current] at hcurrent
      cases hread : (now.heap.find id).getProperty name <;> rw [hread] at hcurrent <;>
        cases hcurrent
      rcases Object.holds_of_getProperty hread with hvalue | hvalue
      · exact hscalar hvalue
      · exact h.held id value hid hvalue
  | @element _ _ id index hid _ =>
      rw [Place.current] at hcurrent
      cases hread : (now.heap.find id).getIndex index <;> rw [hread] at hcurrent <;>
        cases hcurrent
      exact h.held id value hid (Object.holds_of_getIndex hread)

/-- An accepted value may be stored at any place that does not belong to another object. -/
theorem stored (h : machine.Confines accepts names now) {expr : Expr} {place : Place}
    (hplace : expr.Denotes accepts place) (hvalue : accepts value)
    (hstored : place.stored value now = .ok next) : machine.Confines accepts names next := by
  have hvalues : ∀ other ∈ [value], accepts other := List.forall_mem_singleton.mpr hvalue
  cases hplace with
  | @var name =>
      rw [Place.stored] at hstored
      cases hassign : now.environment.assign name value <;> rw [hassign] at hstored <;>
        cases hstored
      exact h.assign hassign hvalue
  | @declaration kind name =>
      cases hstored
      exact h.declare name kind hvalue
  | @property _ name id hid =>
      rw [Place.stored] at hstored
      cases hset : now.heap.setProperty id name value <;> rw [hset] at hstored <;> cases hstored
      exact h.stores (Heap.stores_of_setProperty hset) hid hvalues
  | @element _ _ id index hid _ =>
      rw [Place.stored] at hstored
      cases hset : now.heap.setIndex id index value <;> rw [hset] at hstored <;> cases hstored
      exact h.stores (Heap.stores_of_setIndex hset) hid hvalues

end Machine.Confines

namespace Expr

variable {mode : LogicMode} {expr inner target : Expr} {environment : Environment}

theorem Closes.of_contains (h : expr.Closes accepts environment) (hinner : expr.Contains inner) :
    inner.Closes accepts environment where
  scalar := h.scalar
  literal hliteral := h.literal (hinner.trans hliteral)
  function hcall := h.function (hinner.trans hcall)

theorem Finds.accepted (hclosed : expr.Closes accepts environment) {α : Type}
    {result : Except RuntimeError α} {answer : α → Prop}
    (h : Finds mode accepts expr result answer) {a : α} (ha : result = .ok a) : answer a := by
  have howner {value : Value} {id : ObjectId} (hvalue : accepts value)
      (hid : value.owner = .ok id ∨ value.container = .ok id) : accepts (.object id) := by
    cases value <;> rcases hid with hid | hid <;> cases hid <;> exact hvalue
  cases h with
  | constant =>
      rcases LiteralKind.isScalar_or_string ha with hscalar | ⟨rfl, rfl⟩
      · exact hclosed.scalar hscalar
      · exact hclosed.literal (.refl _)
  | unary _ _ => exact hclosed.scalar (UnaryOp.isScalar_of_apply ha)
  | step _ _ => exact hclosed.scalar (UnaryOp.isScalar_of_stepped ha)
  | decided _ hresult =>
      cases ha
      exact hclosed.scalar (BinaryOp.isScalar_of_decided? hresult)
  | binary _ _ => exact hclosed.scalar (BinaryOp.isScalar_of_apply ha)
  | compound _ _ _ => exact hclosed.scalar (BinaryOp.isScalar_of_apply ha)
  | owner hvalue => exact howner hvalue (.inl ha)
  | container hvalue => exact howner hvalue (.inr ha)
  | targetOwner _ hvalue => exact howner hvalue (.inl ha)
  | targetContainer _ hvalue => exact howner hvalue (.inr ha)
  | _ => cases ha

/-- A step of an expression does not leave a class of values that is closed for the expression. -/
theorem Performs.confines (hclosed : expr.Closes accepts machine.environment)
    (hnames : ∀ name, expr.Contains (.var name) → name ∈ names) {α : Type} {x : EvalM α}
    {answer : α → Prop} (hperforms : Performs mode accepts expr start now x answer)
    (h : machine.Confines accepts names now) :
    machine.Confines accepts names (x.after now) ∧
      ∀ a next, x.run now = .ok a next → answer a := by
  have hread {target : Expr} {place : Place} (htarget : expr.Contains target)
      (hplace : target.Denotes accepts place) :
      machine.Confines accepts names (place.read.after now) ∧
        ∀ value next, place.read.run now = .ok value next → accepts value := by
    have hplain := h.isPlain hplace
    refine ⟨(Place.after_read hplain).symm ▸ h, fun value next hrun => ?_⟩
    rw [Place.run_read hplain] at hrun
    refine h.current hclosed.scalar hplace ?_ (EvalM.of_ofExcept hrun).1
    rintro name rfl
    cases hplace
    exact hnames name htarget
  cases hperforms with
  | find hfinds =>
      refine ⟨(EvalM.after_ofExcept _ now).symm ▸ h, fun a next hrun => ?_⟩
      exact hfinds.accepted hclosed (EvalM.of_ofExcept hrun).1
  | read _ hplace => exact hread (.refl expr) hplace
  | readTarget htarget _ hplace => exact hread (.of_mem (mem_operands_of_target? htarget)) hplace
  | @write _ _ _ _ place value _ _ hplace hvalue _ =>
      refine ⟨?_, fun _ _ _ => trivial⟩
      rw [EvalM.after, Place.run_write (h.isPlain hplace)]
      cases hstored : place.stored value now with
      | ok next => exact h.stored hplace hvalue hstored
      | error error => exact h
  | @call name arguments _ _ values hvalues =>
      rw [EvalM.after, run_callFunction]
      cases hfunction : now.environment.function? name with
      | none => exact ⟨h, fun _ _ heq => by cases heq⟩
      | some function =>
          have hcarries : function.Carries accepts := by
            refine hclosed.function (.refl _) ?_
            rw [← hfunction, Environment.function?, Environment.function?, h.functions_eq]
          dsimp only
          rw [EvalM.run_host]
          cases hrun : (function.invoke values).run now.heap with
          | ok answer heap =>
              obtain ⟨hanswer, rfl⟩ := hcarries.answer hvalues hrun
              refine ⟨h, ?_⟩
              rintro _ _ ⟨⟩
              exact hanswer
          | error error heap =>
              obtain rfl := hcarries.failure hrun
              exact ⟨h, fun _ _ heq => by cases heq⟩
  | @method _ name _ _ _ id values hid hvalues =>
      rw [EvalM.after, EvalM.run_request, h.plain id hid, Behaviour.plain, HostM.run_request]
      cases hinvoke : now.heap.invoke id name values with
      | error error => exact ⟨h, fun _ _ heq => by cases heq⟩
      | ok result =>
          obtain ⟨hanswer, hstores⟩ := Heap.stores_of_invoke hinvoke
          refine ⟨h.stores hstores hid hvalues, ?_⟩
          rintro _ _ ⟨⟩
          exact hclosed.scalar hanswer

/-- An evaluation does not leave a class of values that is closed for its expression. -/
theorem Closes.covers (hclosed : expr.Closes accepts machine.environment)
    (hnames : ∀ name, expr.Contains (.var name) → name ∈ names) (mode : LogicMode) :
    (Judgement.keeping (machine.Confines accepts names)).Covers mode accepts expr now := by
  intro inner start now α x answer hvisits hperforms h
  have hinner := hvisits.contains
  exact hperforms.confines (hclosed.of_contains hinner)
    (fun name hname => hnames name (hinner.trans hname)) h

end Expr

end ExprLang
