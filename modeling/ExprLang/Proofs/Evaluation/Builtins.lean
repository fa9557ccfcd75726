import ExprLang.Evaluation.Run
import ExprLang.Proofs.Evaluation.Flow

/-!
# The functions of the language

Both functions take one string and leave the objects alone. What they answer depends on the string
only, and it is an integer or a string again.
-/

namespace ExprLang

namespace HostM

variable {α : Type} {result : Except HostError α} {a : α} {error : HostError} {heap next : Heap}

theorem of_ofExcept (h : (ofExcept result).run heap = .ok a next) :
    result = .ok a ∧ next = heap := by
  cases result <;> cases h
  exact ⟨rfl, rfl⟩

theorem error_of_ofExcept (h : (ofExcept result).run heap = .error error next) :
    result = .error error ∧ next = heap := by
  cases result <;> cases h
  exact ⟨rfl, rfl⟩

end HostM

namespace Builtin

variable {returns : ValueType} {body : String → Except String Value}
  {answer : String → Except String String} {values accepted : List Value} {value : Value}
  {accepts : Value → Prop}

/-- A function of one string is only run on one string. -/
theorem of_accept_ofString (h : (ofString returns body).accept values = .ok accepted) :
    ∃ text, values = [.string text] ∧ accepted = [.string text] := by
  match values with
  | [.string text] =>
      cases h
      exact ⟨text, rfl, rfl⟩
  | [.bool _] | [.int _] | [.decimal _] | [.object _] | [] => cases h
  | _ :: _ :: _ => cases h

/-- What a function of one string says to a row of arguments. -/
def reply (returns : ValueType) (body : String → Except String Value) (values : List Value) :
    Except HostError Value :=
  match (ofString returns body).accept values with
  | .error error => .error error
  | .ok accepted =>
    match accepted with
    | [.string text] =>
      match body text with
      | .ok result => (ofString returns body).deliver result
      | .error reason => .error (.failed reason)
    | _ => .error (.failed "expected a string")

theorem invoke_ofString (returns : ValueType) (body : String → Except String Value)
    (values : List Value) :
    (ofString returns body).invoke values = HostM.ofExcept (reply returns body values) := by
  rw [HostFunction.invoke, reply]
  cases haccept : (ofString returns body).accept values with
  | error error => rfl
  | ok accepted =>
      obtain ⟨text, rfl, rfl⟩ := of_accept_ofString haccept
      change ((match body text with
        | .ok value => pure value
        | .error reason => throw (.failed reason) : HostM Value) >>= fun result =>
          HostM.ofExcept ((ofString returns body).deliver result)) = _
      dsimp only
      cases body text <;> rfl

/-- A function of one string answers what it makes of the string. -/
theorem reply_string (returns : ValueType) (body : String → Except String Value) (text : String) :
    reply returns body [.string text] =
      match body text with
      | .ok result => (ofString returns body).deliver result
      | .error reason => .error (.failed reason) :=
  rfl

theorem of_reply (h : reply returns body values = .ok value) :
    ∃ text result, values = [.string text] ∧ body text = .ok result ∧
      returns.coerce? result = some value := by
  rw [reply] at h
  cases haccept : (ofString returns body).accept values with
  | error error =>
      rw [haccept] at h
      cases h
  | ok accepted =>
      obtain ⟨text, rfl, rfl⟩ := of_accept_ofString haccept
      rw [haccept] at h
      dsimp only at h
      cases hbody : body text with
      | error reason =>
          rw [hbody] at h
          cases h
      | ok result =>
          rw [hbody] at h
          dsimp only [HostFunction.deliver] at h
          split at h <;> cases h
          next hcoerce => exact ⟨text, result, rfl, hbody, hcoerce⟩

/-- Only what a function makes of the string counts. -/
theorem reply_congr {rule : String → Except String Value}
    (h : ∀ text, .string text ∈ values → body text = rule text) :
    reply returns body values = reply returns rule values := by
  have haccept : (ofString returns rule).accept values = (ofString returns body).accept values :=
    rfl
  rw [reply, reply, haccept]
  cases hvalues : (ofString returns body).accept values with
  | error error => rfl
  | ok accepted =>
      obtain ⟨text, rfl, rfl⟩ := of_accept_ofString hvalues
      dsimp only
      rw [h text (List.mem_singleton_self _)]
      rfl

/-- A function of one string does not leave a class of values if what it makes of the strings in the
class does not. -/
theorem carries_ofString
    (h : ∀ {text result value}, accepts (.string text) → body text = .ok result →
      returns.coerce? result = some value → accepts value) :
    (ofString returns body).Carries accepts where
  answer hvalues hrun := by
    rw [invoke_ofString] at hrun
    obtain ⟨hreply, hheap⟩ := HostM.of_ofExcept hrun
    obtain ⟨text, result, rfl, hbody, hresult⟩ := of_reply hreply
    exact ⟨h (List.forall_mem_singleton.mp hvalues) hbody hresult, hheap⟩
  failure hrun := by
    rw [invoke_ofString] at hrun
    exact (HostM.error_of_ofExcept hrun).2

theorem carries_parseInt (hscalar : ∀ {value}, value.isScalar = true → accepts value) :
    parseInt.Carries accepts := by
  refine carries_ofString fun _ hread hresult => hscalar ?_
  split at hread <;> cases hread
  cases hresult
  rfl

theorem carries_eval
    (h : ∀ {text result}, accepts (.string text) → answer text = .ok result →
      accepts (.string result)) : (eval answer).Carries accepts := by
  refine carries_ofString fun {text} _ _ htext hanswer hresult => ?_
  cases hrun : answer text with
  | error reason =>
      rw [hrun] at hanswer
      cases hanswer
  | ok result =>
      rw [hrun] at hanswer
      cases hanswer
      cases hresult
      exact h htext hrun

theorem function?_define (answer : String → Except String String) (environment : Environment)
    (name : String) :
    (define answer environment).function? name =
      if name = "eval" then some (eval answer)
      else if name = "parseInt" then some parseInt
      else environment.function? name := by
  simp only [define, Environment.defineFunction, Environment.function?,
    Std.ExtTreeMap.getElem?_insert, Std.LawfulEqCmp.compare_eq_iff_eq, eq_comm (a := name)]

end Builtin

end ExprLang
