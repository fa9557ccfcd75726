import ExprLang.Proofs.Environment.Bindings
import ExprLang.Proofs.Host.Behaviour
import ExprLang.Evaluation.Evaluate

/-!
# What an evaluation answers and leaves

An evaluation answers a value or an error, and leaves a machine in both cases. A plain place, which
is a variable, a declaration, or a place of an object of plain behaviour, is read without any
change, and written as a whole or not at all.
-/

namespace ExprLang

namespace EvalM

variable {α β : Type} {machine next : Machine}

/-- What an evaluation that starts on a machine answers. -/
def answer (x : EvalM α) (machine : Machine) : Except RuntimeError α :=
  match x.run machine with
  | .ok a _ => .ok a
  | .error error _ => .error error

/-- The machine that an evaluation leaves, also where it fails. -/
def after (x : EvalM α) (machine : Machine) : Machine :=
  match x.run machine with
  | .ok _ next => next
  | .error _ next => next

theorem answer_of_ok {x : EvalM α} {a : α} (h : x.run machine = .ok a next) :
    x.answer machine = .ok a := by
  rw [answer, h]

theorem answer_of_error {x : EvalM α} {error : RuntimeError}
    (h : x.run machine = .error error next) : x.answer machine = .error error := by
  rw [answer, h]

theorem after_of_ok {x : EvalM α} {a : α} (h : x.run machine = .ok a next) :
    x.after machine = next := by
  rw [after, h]

theorem after_of_error {x : EvalM α} {error : RuntimeError}
    (h : x.run machine = .error error next) : x.after machine = next := by
  rw [after, h]

theorem run_eq_ok {x : EvalM α} {a : α} (h : x.answer machine = .ok a) :
    x.run machine = .ok a (x.after machine) := by
  unfold answer at h
  unfold after
  cases hrun : x.run machine <;> rw [hrun] at h <;> cases h
  rfl

theorem run_eq_error {x : EvalM α} {error : RuntimeError} (h : x.answer machine = .error error) :
    x.run machine = .error error (x.after machine) := by
  unfold answer at h
  unfold after
  cases hrun : x.run machine <;> rw [hrun] at h <;> cases h
  rfl

theorem run_bind_of_ok {x : EvalM α} {a : α} (h : x.run machine = .ok a next)
    (rest : α → EvalM β) : (x >>= rest).run machine = (rest a).run next := by
  rw [EStateM.run_bind, h]

theorem run_bind_of_error {x : EvalM α} {error : RuntimeError}
    (h : x.run machine = .error error next) (rest : α → EvalM β) :
    (x >>= rest).run machine = .error error next := by
  rw [EStateM.run_bind, h]

theorem after_bind_of_ok {x : EvalM α} {a : α} (h : x.run machine = .ok a next)
    (rest : α → EvalM β) : (x >>= rest).after machine = (rest a).after next := by
  rw [after, run_bind_of_ok h, after]

theorem after_bind_of_error {x : EvalM α} {error : RuntimeError}
    (h : x.run machine = .error error next) (rest : α → EvalM β) :
    (x >>= rest).after machine = next :=
  after_of_error (run_bind_of_error h rest)

/-- What is answered in the end makes no difference to what is left. -/
theorem after_bind_pure (x : EvalM α) (b : β) (machine : Machine) :
    (x >>= fun _ => pure b).after machine = x.after machine := by
  cases hrun : x.run machine with
  | ok a next =>
      rw [after_bind_of_ok hrun, after_of_ok hrun]
      rfl
  | error error next => rw [after_bind_of_error hrun, after_of_error hrun]

theorem run_bind_eq_ok_iff {x : EvalM α} {rest : α → EvalM β} {b : β} {last : Machine} :
    (x >>= rest).run machine = .ok b last ↔
      ∃ a next, x.run machine = .ok a next ∧ (rest a).run next = .ok b last := by
  cases hrun : x.run machine with
  | ok a next =>
      rw [run_bind_of_ok hrun]
      refine ⟨fun h => ⟨a, next, rfl, h⟩, ?_⟩
      rintro ⟨_, _, ⟨⟩, h⟩
      exact h
  | error error next =>
      rw [run_bind_of_error hrun]
      simp

theorem run_bind_eq_error_iff {x : EvalM α} {rest : α → EvalM β} {error : RuntimeError}
    {last : Machine} :
    (x >>= rest).run machine = .error error last ↔ x.run machine = .error error last ∨
      ∃ a next, x.run machine = .ok a next ∧ (rest a).run next = .error error last := by
  cases hrun : x.run machine with
  | ok a next =>
      rw [run_bind_of_ok hrun]
      refine ⟨fun h => .inr ⟨a, next, rfl, h⟩, ?_⟩
      rintro (⟨⟨⟩⟩ | ⟨_, _, ⟨⟩, h⟩)
      exact h
  | error other next =>
      rw [run_bind_of_error hrun]
      simp

theorem run_host (wrap : HostError → RuntimeError) (call : HostM α) (machine : Machine) :
    (host wrap call).run machine =
      match call.run machine.heap with
      | .ok a heap => .ok a { machine with heap }
      | .error error heap => .error (wrap error) { machine with heap } :=
  rfl

/-- A request to an object is a call of what its behaviour does. -/
theorem run_request (id : ObjectId) (use : Behaviour → HostM α) (machine : Machine) :
    (request id use).run machine =
      match (use (machine.behaviour id)).run machine.heap with
      | .ok a heap => .ok a { machine with heap }
      | .error error heap => .error (.host error) { machine with heap } :=
  rfl

@[simp]
theorem answer_ofExcept (result : Except RuntimeError α) (machine : Machine) :
    (ofExcept result).answer machine = result := by
  cases result <;> rfl

theorem of_ofExcept {result : Except RuntimeError α} {a : α}
    (h : (ofExcept result).run machine = .ok a next) : result = .ok a ∧ next = machine := by
  cases result <;> cases h
  exact ⟨rfl, rfl⟩

theorem of_ofExcept_bind {result : Except RuntimeError α} {rest : α → EvalM β} {b : β}
    (h : (ofExcept result >>= rest).run machine = .ok b next) :
    ∃ a, (rest a).run machine = .ok b next := by
  obtain ⟨a, middle, hresult, hrest⟩ := run_bind_eq_ok_iff.mp h
  obtain rfl := (of_ofExcept hresult).2
  exact ⟨a, hrest⟩

theorem error_of_ofExcept {result : Except RuntimeError α} {error : RuntimeError}
    (h : (ofExcept result).run machine = .error error next) :
    result = .error error ∧ next = machine := by
  cases result <;> cases h
  exact ⟨rfl, rfl⟩

@[simp]
theorem after_ofExcept (result : Except RuntimeError α) (machine : Machine) :
    (ofExcept result).after machine = machine := by
  cases result <;> rfl

end EvalM

namespace Place

variable {machine : Machine} {place : Place}

/-- Whether a place is a variable, a declaration, or a place of an object of plain behaviour. -/
def IsPlain (machine : Machine) : Place → Prop
  | var _ | declaration .. => True
  | property id _ | element id _ => machine.behaviour id = .plain

theorem isPlain_var {name : String} : (var name).IsPlain machine :=
  trivial

/-- The value at a plain place. -/
def current (machine : Machine) : Place → Except RuntimeError Value
  | var name => machine.environment.lookup name
  | declaration _ name => .error (.uninitialized name)
  | property id name => ((machine.heap.find id).getProperty name).mapError .host
  | element id index => ((machine.heap.find id).getIndex index).mapError .host

/-- The machine with a value at a plain place. -/
def stored (value : Value) (machine : Machine) : Place → Except RuntimeError Machine
  | var name =>
    (machine.environment.assign name value).map fun environment => { machine with environment }
  | declaration kind name =>
    .ok { machine with environment := machine.environment.declare name kind (some value) }
  | property id name =>
    ((machine.heap.setProperty id name value).mapError .host).map fun heap => { machine with heap }
  | element id index =>
    ((machine.heap.setIndex id index value).mapError .host).map fun heap => { machine with heap }

theorem run_read (h : place.IsPlain machine) :
    place.read.run machine = (EvalM.ofExcept (place.current machine)).run machine := by
  cases place with
  | var name => rfl
  | declaration kind name => rfl
  | property id name =>
      have hplain : machine.behaviour id = .plain := h
      rw [read, EvalM.run_request, hplain, Behaviour.plain, HostM.run_ask, current]
      cases (machine.heap.find id).getProperty name <;> rfl
  | element id index =>
      have hplain : machine.behaviour id = .plain := h
      rw [read, EvalM.run_request, hplain, Behaviour.plain, HostM.run_ask, current]
      cases (machine.heap.find id).getIndex index <;> rfl

theorem run_read_of_ok {value : Value} (hplain : place.IsPlain machine)
    (h : place.current machine = .ok value) : place.read.run machine = .ok value machine := by
  rw [run_read hplain, h]
  rfl

theorem run_read_var {name : String} {kind : DeclarationKind} {value : Value}
    (h : machine.environment.scopes.find? name = some ⟨kind, some value⟩) :
    (var name).read.run machine = .ok value machine := by
  refine run_read_of_ok isPlain_var ?_
  rw [current, Environment.lookup, h]

theorem of_read_bind {next : Machine} {α : Type} {rest : Value → EvalM α} {a : α}
    (hplain : place.IsPlain machine) (h : (place.read >>= rest).run machine = .ok a next) :
    ∃ old, (rest old).run machine = .ok a next := by
  obtain ⟨old, middle, hread, hrest⟩ := EvalM.run_bind_eq_ok_iff.mp h
  rw [run_read hplain] at hread
  obtain rfl := (EvalM.of_ofExcept hread).2
  exact ⟨old, hrest⟩

theorem after_read (h : place.IsPlain machine) : place.read.after machine = machine := by
  rw [EvalM.after, run_read h]
  exact EvalM.after_ofExcept (place.current machine) machine

theorem run_write (h : place.IsPlain machine) (value : Value) :
    (place.write value).run machine =
      match place.stored value machine with
      | .ok next => .ok () next
      | .error error => .error error machine := by
  cases place with
  | var name =>
      change (EvalM.ofExcept (machine.environment.assign name value) >>= fun environment =>
        set { machine with environment }).run machine = _
      rw [stored]
      cases machine.environment.assign name value <;> rfl
  | declaration kind name => rfl
  | property id name =>
      have hplain : machine.behaviour id = .plain := h
      rw [write, EvalM.run_request, hplain, Behaviour.plain, HostM.run_request, stored]
      cases machine.heap.setProperty id name value <;> rfl
  | element id index =>
      have hplain : machine.behaviour id = .plain := h
      rw [write, EvalM.run_request, hplain, Behaviour.plain, HostM.run_request, stored]
      cases machine.heap.setIndex id index value <;> rfl

theorem run_write_of_ok {value : Value} {next : Machine} (hplain : place.IsPlain machine)
    (h : place.stored value machine = .ok next) :
    (place.write value).run machine = .ok () next := by
  rw [run_write hplain, h]

/-- A step stores what comes after the value that is read. -/
theorem run_step {old : Value} {next : Machine} (h : place.read.run machine = .ok old next)
    (op : UnaryOp) :
    (place.step op).run machine =
      (EvalM.ofExcept (op.stepped old) >>= fun new => do
        place.write new
        return if op.isAfter then old else new).run next := by
  rw [step, EvalM.run_bind_of_ok h]

end Place

theorem run_callFunction (name : String) (values : List Value) (machine : Machine) :
    (callFunction name values).run machine =
      match machine.environment.function? name with
      | some function => (EvalM.host (.callFailed name) (function.invoke values)).run machine
      | none => .error (.unknownFunction name) machine := by
  change (match machine.environment.function? name with
    | some function => EvalM.host (.callFailed name) (function.invoke values)
    | none => throw (.unknownFunction name) : EvalM Value).run machine = _
  cases machine.environment.function? name <;> rfl

/-- A call of a known function is an invocation of it on the objects of the machine. -/
theorem run_callFunction_of_function? {name : String} {function : HostFunction}
    {machine : Machine} (h : machine.environment.function? name = some function)
    (values : List Value) :
    (callFunction name values).run machine =
      match (function.invoke values).run machine.heap with
      | .ok value heap => .ok value { machine with heap }
      | .error error heap => .error (.callFailed name error) { machine with heap } := by
  rw [run_callFunction, h]
  cases hrun : (function.invoke values).run machine.heap <;> simp only [EvalM.run_host, hrun]

end ExprLang
