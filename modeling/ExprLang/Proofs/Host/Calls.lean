import Mathlib.Data.List.Forall2
import ExprLang.Host.Function

/-!
# Calls by signature

A call checks the number of the arguments and then each of them from the left, runs the entry of the
function on what they serve as, and checks what the entry answers. So the entry is run once or not
at all, only on values of the declared types, and what the caller gets has the declared type too.
-/

namespace ExprLang

/-! ## Types -/

namespace ValueType

/-- The sort of the values of a type, if they all have one. -/
def kind? : ValueType → Option Value.Kind
  | bool => some .bool
  | int => some .int
  | decimal => some .decimal
  | string => some .string
  | object => some .object
  | any => none

/-- Whether a value has the sort that a type declares. -/
def Has (type : ValueType) (value : Value) : Prop :=
  ∀ kind ∈ type.kind?, value.kind = kind

/-- What a value serves as for a type: a value of the type is left as it is, and an integer is
widened to the decimal nearest to it. -/
inductive Serves : ValueType → Value → Value → Prop
  | same {type : ValueType} {value : Value} (h : type.Has value) : Serves type value value
  | widened (n : Int64) : Serves .decimal (.int n) (.decimal (Decimal.ofInt n))

/-- Whether a value can serve where a type is declared. -/
def Takes (type : ValueType) (value : Value) : Prop :=
  type.Has value ∨ type = .decimal ∧ value.kind = .int

variable {type : ValueType} {given taken : Value}

theorem Serves.has (h : type.Serves given taken) : type.Has taken := by
  cases h with
  | same h => exact h
  | widened n =>
      rintro kind ⟨⟩
      rfl

theorem Serves.takes (h : type.Serves given taken) : type.Takes given := by
  cases h with
  | same h => exact .inl h
  | widened n => exact .inr ⟨rfl, rfl⟩

theorem coerce?_eq_some_iff : type.coerce? given = some taken ↔ type.Serves given taken := by
  constructor
  · intro h
    unfold coerce? at h
    split at h <;> cases h
    case h_1 => exact .same nofun
    case h_4 n => exact .widened n
    all_goals
      refine .same ?_
      rintro kind ⟨⟩
      rfl
  · intro h
    cases h with
    | widened n => rfl
    | same h => cases type <;> cases given <;> first | rfl | cases h _ rfl

theorem coerce?_eq_none_iff : type.coerce? given = none ↔ ¬ type.Takes given := by
  constructor
  · rintro h (hhas | ⟨rfl, hkind⟩)
    · cases h.symm.trans (coerce?_eq_some_iff.mpr (.same hhas))
    · cases given <;> cases hkind
      cases h
  · intro h
    cases hcoerce : type.coerce? given with
    | none => rfl
    | some taken => exact absurd (coerce?_eq_some_iff.mp hcoerce).takes h

end ValueType

/-! ## Arguments -/

/-- What arguments serve as for parameters, one by one. -/
inductive Signature.Serve : List ValueType → List Value → List Value → Prop
  | nil : Serve [] [] []
  | cons {type : ValueType} {params : List ValueType} {given taken : Value}
      {arguments values : List Value} (hvalue : type.Serves given taken)
      (hrest : Serve params arguments values) :
      Serve (type :: params) (given :: arguments) (taken :: values)

/-- The first argument that cannot serve for its parameter, counted from zero. -/
structure Signature.Refuses (params : List ValueType) (arguments : List Value) (index : Nat)
    (type : ValueType) (given : Value) : Prop where
  param : params[index]? = some type
  argument : arguments[index]? = some given
  refused : ¬ type.Takes given
  first : ∀ earlier < index, ∀ other value, params[earlier]? = some other →
    arguments[earlier]? = some value → other.Takes value

namespace Signature

variable {params : List ValueType} {arguments taken : List Value} {type : ValueType} {given : Value}
  {index : Nat}

theorem Serve.takes (h : Serve params arguments taken) :
    List.Forall₂ ValueType.Takes params arguments := by
  induction h with
  | nil => exact .nil
  | cons hvalue _ ih => exact .cons hvalue.takes ih

theorem Serve.has (h : Serve params arguments taken) : List.Forall₂ ValueType.Has params taken := by
  induction h with
  | nil => exact .nil
  | cons hvalue _ ih => exact .cons hvalue.has ih

/-- Arguments that can all serve have no first one that cannot. -/
theorem Refuses.not_takes (h : Refuses params arguments index type given) :
    ¬ List.Forall₂ ValueType.Takes params arguments := by
  obtain ⟨hparam, hargument, hrefused, -⟩ := h
  intro htakes
  induction htakes generalizing index with
  | nil => cases hparam
  | cons hvalue _ ih =>
      cases index with
      | zero =>
          cases hparam
          cases hargument
          exact hrefused hvalue
      | succ index => exact ih hparam hargument

theorem Refuses.zero (h : ¬ type.Takes given) :
    Refuses (type :: params) (given :: arguments) 0 type given :=
  ⟨rfl, rfl, h, fun _ hlt => absurd hlt (Nat.not_lt_zero _)⟩

theorem Refuses.succ {other : ValueType} {value : Value} (hfirst : other.Takes value)
    (h : Refuses params arguments index type given) :
    Refuses (other :: params) (value :: arguments) (index + 1) type given where
  param := h.param
  argument := h.argument
  refused := h.refused
  first earlier hlt := by
    cases earlier with
    | zero =>
        rintro _ _ ⟨⟩ ⟨⟩
        exact hfirst
    | succ earlier => exact h.first earlier (Nat.lt_of_succ_lt_succ hlt)

/-- There is one first argument. -/
theorem Refuses.unique {index' : Nat} {type' : ValueType} {given' : Value}
    (h : Refuses params arguments index type given)
    (h' : Refuses params arguments index' type' given') :
    index = index' ∧ type = type' ∧ given = given' := by
  rcases Nat.lt_trichotomy index index' with hlt | rfl | hlt
  · exact absurd (h'.first index hlt type given h.param h.argument) h.refused
  · exact ⟨rfl, Option.some_inj.mp (h.param.symm.trans h'.param),
      Option.some_inj.mp (h.argument.symm.trans h'.argument)⟩
  · exact absurd (h.first index' hlt type' given' h'.param h'.argument) h'.refused

end Signature

namespace HostFunction

open Signature

variable {function : HostFunction} {arguments taken : List Value} {heap next : Heap}

/-- As many arguments as parameters are taken together, or the first one that cannot serve is
reported. -/
theorem coerceArguments_cases {params : List ValueType}
    (hlength : params.length = arguments.length) (position : Nat) :
    (∃ taken, Serve params arguments taken ∧
        coerceArguments position params arguments = .ok taken) ∨
      ∃ index type given, Refuses params arguments index type given ∧
        coerceArguments position params arguments =
          .error (.argumentType (position + index) type given.kind) := by
  induction params generalizing arguments position with
  | nil =>
      obtain rfl := List.length_eq_zero_iff.mp hlength.symm
      exact .inl ⟨[], .nil, rfl⟩
  | cons type params ih =>
      cases arguments with
      | nil => cases hlength
      | cons given arguments =>
          rw [coerceArguments]
          cases hcoerce : type.coerce? given with
          | none =>
              exact .inr ⟨0, type, given, .zero (ValueType.coerce?_eq_none_iff.mp hcoerce), rfl⟩
          | some value =>
              have hvalue := ValueType.coerce?_eq_some_iff.mp hcoerce
              rcases ih (Nat.succ.inj hlength) (position + 1) with
                ⟨values, hserve, hvalues⟩ | ⟨index, other, argument, hrefuses, herror⟩
              · exact .inl ⟨value :: values, .cons hvalue hserve, by rw [hvalues]; rfl⟩
              · refine .inr ⟨index + 1, other, argument, .succ hvalue.takes hrefuses, ?_⟩
                rw [herror, Nat.add_assoc, Nat.add_comm 1]
                rfl

/-- What becomes of the arguments of a call. -/
theorem accept_cases (function : HostFunction) (arguments : List Value) :
    (function.signature.params.length ≠ arguments.length ∧
        function.accept arguments =
          .error (.arity function.signature.params.length arguments.length)) ∨
      (∃ index type given, Refuses function.signature.params arguments index type given ∧
        function.signature.params.length = arguments.length ∧
        function.accept arguments = .error (.argumentType (index + 1) type given.kind)) ∨
      ∃ taken, Serve function.signature.params arguments taken ∧
        function.accept arguments = .ok taken := by
  rw [accept]
  by_cases hlength : function.signature.params.length = arguments.length
  · rw [if_pos hlength]
    rcases coerceArguments_cases hlength 1 with
      ⟨taken, hserve, htaken⟩ | ⟨index, type, given, hrefuses, herror⟩
    · exact .inr (.inr ⟨taken, hserve, htaken⟩)
    · rw [Nat.add_comm] at herror
      exact .inr (.inl ⟨index, type, given, hrefuses, hlength, herror⟩)
  · rw [if_neg hlength]
    exact .inl ⟨hlength, rfl⟩

/-! ## Calls -/

/-- A call of a function with another entry in the place of its own, whatever that entry runs in. -/
def call {m : Type → Type} [Monad m] [MonadExcept HostError m] (function : HostFunction)
    (entry : List Value → m Value) (arguments : List Value) : m Value := do
  let accepted ← MonadExcept.ofExcept (function.accept arguments)
  let result ← entry accepted
  MonadExcept.ofExcept (function.deliver result)

/-- A call of a function is the call of it with its own entry. -/
theorem call_entry (function : HostFunction) (arguments : List Value) :
    function.call function.entry arguments = function.invoke arguments := by
  have hraise {α : Type} (result : Except HostError α) :
      (MonadExcept.ofExcept result : HostM α) = HostM.ofExcept result := by
    cases result <;> rfl
  simp only [call, invoke, hraise]

/-- A heap, and the lists of arguments that an entry has been run on so far. -/
structure Record where
  heap : Heap
  runs : List (List Value)

/-- The entry with a record of its runs. -/
def recording (function : HostFunction) (values : List Value) :
    EStateM HostError Record Value := fun record =>
  match (function.entry values).run record.heap with
  | .ok value heap => .ok value ⟨heap, record.runs ++ [values]⟩
  | .error error heap => .error error ⟨heap, record.runs ++ [values]⟩

theorem run_recording (function : HostFunction) (values : List Value) (record : Record) :
    (function.recording values).run record =
      match (function.entry values).run record.heap with
      | .ok value heap => .ok value ⟨heap, record.runs ++ [values]⟩
      | .error error heap => .error error ⟨heap, record.runs ++ [values]⟩ :=
  rfl

/-- A call with a record of the runs of the entry, which is empty before the call. -/
def recordedCall (function : HostFunction) (arguments : List Value) (heap : Heap) :
    EStateM.Result HostError Record Value :=
  (function.call function.recording arguments).run ⟨heap, []⟩

/-- The lists of arguments that a call runs the entry on. -/
def runs (function : HostFunction) (arguments : List Value) (heap : Heap) : List (List Value) :=
  match function.recordedCall arguments heap with
  | .ok _ record | .error _ record => record.runs

/-- A recorded answer without the record. -/
def Record.forget : EStateM.Result HostError Record Value → EStateM.Result HostError Heap Value
  | .ok value record => .ok value record.heap
  | .error error record => .error error record.heap

/-- How a call can end, with the runs of the entry, the answer and the heap that is left. -/
inductive Ends (function : HostFunction) (arguments : List Value) (heap : Heap) :
    List (List Value) → EStateM.Result HostError Heap Value → Prop
  | arity (h : function.signature.params.length ≠ arguments.length) :
      Ends function arguments heap []
        (.error (.arity function.signature.params.length arguments.length) heap)
  | argument {index : Nat} {type : ValueType} {given : Value}
      (hlength : function.signature.params.length = arguments.length)
      (h : Refuses function.signature.params arguments index type given) :
      Ends function arguments heap [] (.error (.argumentType (index + 1) type given.kind) heap)
  | failure {taken : List Value} {error : HostError} {next : Heap}
      (hserve : Serve function.signature.params arguments taken)
      (hentry : (function.entry taken).run heap = .error error next) :
      Ends function arguments heap [taken] (.error error next)
  | result {taken : List Value} {result : Value} {next : Heap}
      (hserve : Serve function.signature.params arguments taken)
      (hentry : (function.entry taken).run heap = .ok result next)
      (h : ¬ function.signature.returns.Takes result) :
      Ends function arguments heap [taken]
        (.error (.returnType function.signature.returns result.kind) next)
  | answer {taken : List Value} {result value : Value} {next : Heap}
      (hserve : Serve function.signature.params arguments taken)
      (hentry : (function.entry taken).run heap = .ok result next)
      (h : function.signature.returns.Serves result value) :
      Ends function arguments heap [taken] (.ok value next)

/-- What becomes of the result of a call. -/
theorem deliver_cases (function : HostFunction) (result : Value) :
    (∃ value, function.signature.returns.Serves result value ∧
        function.deliver result = .ok value) ∨
      ¬ function.signature.returns.Takes result ∧ function.deliver result =
        .error (.returnType function.signature.returns result.kind) := by
  rw [deliver]
  cases hcoerce : function.signature.returns.coerce? result with
  | some value => exact .inl ⟨value, ValueType.coerce?_eq_some_iff.mp hcoerce, rfl⟩
  | none => exact .inr ⟨ValueType.coerce?_eq_none_iff.mp hcoerce, rfl⟩

/-- A call with a record is the call itself, and it ends as the arguments, the entry and its result
have it. -/
theorem ends_invoke (function : HostFunction) (arguments : List Value) (heap : Heap) :
    Record.forget (function.recordedCall arguments heap) = (function.invoke arguments).run heap ∧
      function.Ends arguments heap (function.runs arguments heap)
        ((function.invoke arguments).run heap) := by
  rw [runs, recordedCall, ← call_entry, call, call]
  rcases function.accept_cases arguments with
    ⟨hlength, haccept⟩ | ⟨index, type, given, hrefuses, hlength, haccept⟩ | ⟨taken, hserve, haccept⟩
  · rw [haccept]
    exact ⟨rfl, .arity hlength⟩
  · rw [haccept]
    exact ⟨rfl, .argument hlength hrefuses⟩
  · rw [haccept]
    simp only [MonadExcept.ofExcept, pure_bind, EStateM.run_bind, run_recording]
    cases hentry : (function.entry taken).run heap with
    | error error next => exact ⟨rfl, .failure hserve hentry⟩
    | ok result next =>
        rcases function.deliver_cases result with ⟨value, hserves, hdeliver⟩ | ⟨htakes, hdeliver⟩
        · simp only [hdeliver]
          exact ⟨rfl, .answer hserve hentry hserves⟩
        · simp only [hdeliver]
          exact ⟨rfl, .result hserve hentry htakes⟩

namespace Ends

variable {runs : List (List Value)} {outcome : EStateM.Result HostError Heap Value}
  {run : List Value}

theorem runs_ne_nil_iff (h : function.Ends arguments heap runs outcome) :
    runs ≠ [] ↔ List.Forall₂ ValueType.Takes function.signature.params arguments := by
  cases h with
  | arity h => exact iff_of_false (fun hne => hne rfl) fun htakes => h htakes.length_eq
  | argument _ h => exact iff_of_false (fun hne => hne rfl) h.not_takes
  | failure hserve _ | result hserve _ _ | answer hserve _ _ =>
      exact iff_of_true (List.cons_ne_nil _ _) hserve.takes

theorem eq_singleton_of_mem (h : function.Ends arguments heap runs outcome) (hrun : run ∈ runs) :
    runs = [run] ∧ Serve function.signature.params arguments run := by
  cases h with
  | arity | argument => cases hrun
  | failure hserve _ | result hserve _ _ | answer hserve _ _ =>
      obtain rfl := List.mem_singleton.mp hrun
      exact ⟨rfl, hserve⟩

theorem of_length_ne (h : function.Ends arguments heap runs outcome)
    (hlength : function.signature.params.length ≠ arguments.length) :
    outcome = .error (.arity function.signature.params.length arguments.length) heap := by
  cases h with
  | arity => rfl
  | argument heq _ => exact absurd heq hlength
  | failure hserve _ | result hserve _ _ | answer hserve _ _ =>
      exact absurd hserve.takes.length_eq hlength

theorem of_refuses (h : function.Ends arguments heap runs outcome) {index : Nat} {type : ValueType}
    {given : Value} (hlength : function.signature.params.length = arguments.length)
    (hrefuses : Refuses function.signature.params arguments index type given) :
    outcome = .error (.argumentType (index + 1) type given.kind) heap := by
  cases h with
  | arity h => exact absurd hlength h
  | argument _ h =>
      obtain ⟨rfl, rfl, rfl⟩ := h.unique hrefuses
      rfl
  | failure hserve _ | result hserve _ _ | answer hserve _ _ =>
      exact absurd hserve.takes hrefuses.not_takes

theorem refused (h : function.Ends arguments heap [] outcome) :
    function.signature.params.length ≠ arguments.length ∨
      function.signature.params.length = arguments.length ∧
        ∃ index type given, Refuses function.signature.params arguments index type given := by
  cases h with
  | arity h => exact .inl h
  | argument hlength h => exact .inr ⟨hlength, _, _, _, h⟩

/-- Where the entry is run it decides how the call ends. -/
theorem of_mem (h : function.Ends arguments heap runs outcome) (hrun : run ∈ runs) :
    (∃ error next, (function.entry run).run heap = .error error next ∧
        outcome = .error error next) ∨
      ∃ result next, (function.entry run).run heap = .ok result next ∧
        ((∃ value, function.signature.returns.Serves result value ∧ outcome = .ok value next) ∨
          ¬ function.signature.returns.Takes result ∧ outcome =
            .error (.returnType function.signature.returns result.kind) next) := by
  cases h with
  | arity | argument => cases hrun
  | failure _ hentry =>
      obtain rfl := List.mem_singleton.mp hrun
      exact .inl ⟨_, _, hentry, rfl⟩
  | result _ hentry h =>
      obtain rfl := List.mem_singleton.mp hrun
      exact .inr ⟨_, _, hentry, .inr ⟨h, rfl⟩⟩
  | answer _ hentry h =>
      obtain rfl := List.mem_singleton.mp hrun
      exact .inr ⟨_, _, hentry, .inl ⟨_, h, rfl⟩⟩

theorem has_of_ok {value : Value} (h : function.Ends arguments heap runs (.ok value next)) :
    function.signature.returns.Has value := by
  cases h with
  | answer _ _ h => exact h.has

end Ends

/-- What a call does about the signature of the function. -/
structure Honours (function : HostFunction) (arguments : List Value) (heap : Heap) : Prop where
  /-- The record of the runs changes nothing about the call. -/
  recorded : Record.forget (function.recordedCall arguments heap) =
    (function.invoke arguments).run heap
  /-- The entry is run exactly where all arguments can serve, as many as there are parameters. -/
  runs_iff : function.runs arguments heap ≠ [] ↔
    List.Forall₂ ValueType.Takes function.signature.params arguments
  /-- It is run once, on what the arguments serve as. -/
  once : ∀ run ∈ function.runs arguments heap, function.runs arguments heap = [run] ∧
    Serve function.signature.params arguments run ∧
      List.Forall₂ ValueType.Has function.signature.params run
  arity : function.signature.params.length ≠ arguments.length →
    (function.invoke arguments).run heap =
      .error (.arity function.signature.params.length arguments.length) heap
  argumentType : function.signature.params.length = arguments.length →
    ∀ index type given, Refuses function.signature.params arguments index type given →
      (function.invoke arguments).run heap =
        .error (.argumentType (index + 1) type given.kind) heap
  /-- A call that does not run the entry ends with one of these two errors. -/
  refused : function.runs arguments heap = [] →
    function.signature.params.length ≠ arguments.length ∨
      function.signature.params.length = arguments.length ∧
        ∃ index type given, Refuses function.signature.params arguments index type given
  failure : ∀ run ∈ function.runs arguments heap, ∀ error next,
    (function.entry run).run heap = .error error next →
      (function.invoke arguments).run heap = .error error next
  returnType : ∀ run ∈ function.runs arguments heap, ∀ result next,
    (function.entry run).run heap = .ok result next → ¬ function.signature.returns.Takes result →
      (function.invoke arguments).run heap =
        .error (.returnType function.signature.returns result.kind) next
  answer : ∀ run ∈ function.runs arguments heap, ∀ result next,
    (function.entry run).run heap = .ok result next → function.signature.returns.Takes result →
      ∃ value, function.signature.returns.Serves result value ∧
        (function.invoke arguments).run heap = .ok value next
  returns : ∀ value next, (function.invoke arguments).run heap = .ok value next →
    function.signature.returns.Has value

/-- Every call of every function honours the signature of the function. -/
theorem honours (function : HostFunction) (arguments : List Value) (heap : Heap) :
    function.Honours arguments heap := by
  obtain ⟨hrecorded, hends⟩ := function.ends_invoke arguments heap
  refine ⟨hrecorded, hends.runs_ne_nil_iff, fun run hrun => ?_, hends.of_length_ne,
    fun hlength _ _ _ => hends.of_refuses hlength, fun hnil => (hnil ▸ hends).refused,
    fun run hrun error next hentry => ?_, fun run hrun result next hentry htakes => ?_,
    fun run hrun result next hentry htakes => ?_, fun value next hinvoke => ?_⟩
  · obtain ⟨hruns, hserve⟩ := hends.eq_singleton_of_mem hrun
    exact ⟨hruns, hserve, hserve.has⟩
  · rcases hends.of_mem hrun with ⟨_, _, hsame, houtcome⟩ | ⟨_, _, hsame, -⟩
    · cases hentry.symm.trans hsame
      exact houtcome
    · cases hentry.symm.trans hsame
  · rcases hends.of_mem hrun with ⟨_, _, hsame, -⟩ | ⟨_, _, hsame, ⟨_, hserves, -⟩ | ⟨-, houtcome⟩⟩
    · cases hentry.symm.trans hsame
    · cases hentry.symm.trans hsame
      exact absurd hserves.takes htakes
    · cases hentry.symm.trans hsame
      exact houtcome
  · rcases hends.of_mem hrun with ⟨_, _, hsame, -⟩ | ⟨_, _, hsame, hanswer | ⟨hnot, -⟩⟩
    · cases hentry.symm.trans hsame
    · cases hentry.symm.trans hsame
      exact hanswer
    · cases hentry.symm.trans hsame
      exact absurd htakes hnot
  · exact (hinvoke ▸ hends).has_of_ok

end HostFunction

end ExprLang
