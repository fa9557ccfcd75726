import ExprLang.Host.Behaviour
import ExprLang.Proofs.Host.Uses

/-!
# Uses by behaviour

The plain behaviour meets a use of an object as the object grants or refuses it. It reads quietly: a
read that succeeds leaves all objects as they are. Behaviours that the host adds need not do so.
-/

namespace ExprLang

namespace HostM

variable {α : Type}

theorem run_ask (question : Heap → Except HostError α) (heap : Heap) :
    (ask question).run heap =
      match question heap with
      | .ok a => .ok a heap
      | .error error => .error error heap := by
  change (ofExcept (question heap)).run heap = _
  cases question heap <;> rfl

theorem run_request (change : Heap → Except HostError (α × Heap)) (heap : Heap) :
    (request change).run heap =
      match change heap with
      | .ok result => .ok result.1 result.2
      | .error error => .error error heap := by
  rw [request, EStateM.run_bind, run_ask]
  cases change heap <;> rfl

end HostM

namespace Behaviour

/-- What is answered to a use of an object of a behaviour. -/
def meet (behaviour : Behaviour) (id : ObjectId) : Use → HostM (Option Value)
  | .getProperty name => do return some (← behaviour.getProperty id name)
  | .setProperty name value => do
    behaviour.setProperty id name value
    return none
  | .getIndex index => do return some (← behaviour.getIndex id index)
  | .setIndex index value => do
    behaviour.setIndex id index value
    return none
  | .invoke method arguments => do return some (← behaviour.invoke id method arguments)

/-- The plain behaviour meets a use as the object grants or refuses it. -/
theorem run_meet_plain (id : ObjectId) (use : Use) (heap : Heap) :
    (plain.meet id use).run heap =
      match heap.grant id use with
      | .ok granted => .ok granted.1 granted.2
      | .error error => .error error heap := by
  cases use with
  | getProperty name =>
      rw [meet, plain, EStateM.run_bind, HostM.run_ask, Heap.grant]
      cases (heap.find id).getProperty name <;> rfl
  | setProperty name value =>
      rw [meet, plain, EStateM.run_bind, HostM.run_request, Heap.grant]
      cases heap.setProperty id name value <;> rfl
  | getIndex index =>
      rw [meet, plain, EStateM.run_bind, HostM.run_ask, Heap.grant]
      cases (heap.find id).getIndex index <;> rfl
  | setIndex index value =>
      rw [meet, plain, EStateM.run_bind, HostM.run_request, Heap.grant]
      cases heap.setIndex id index value <;> rfl
  | invoke method arguments =>
      rw [meet, plain, EStateM.run_bind, HostM.run_request, Heap.grant]
      cases heap.invoke id method arguments <;> rfl

theorem run_meet_plain_of_ok {id : ObjectId} {use : Use} {heap : Heap} {answer : Option Value}
    (h : heap.answer id use = .ok answer) :
    (plain.meet id use).run heap = .ok answer (heap.next id use) := by
  rw [Heap.answer] at h
  rw [run_meet_plain, Heap.next]
  cases hgrant : heap.grant id use <;> rw [hgrant] at h <;> cases h
  rfl

theorem run_meet_plain_of_error {id : ObjectId} {use : Use} {heap : Heap} {error : HostError}
    (h : heap.answer id use = .error error) :
    (plain.meet id use).run heap = .error error heap := by
  rw [Heap.answer] at h
  rw [run_meet_plain]
  cases hgrant : heap.grant id use <;> rw [hgrant] at h <;> cases h
  rfl

/-- Reading an object of a behaviour leaves all objects as they are, if the read succeeds. -/
structure ReadsQuietly (behaviour : Behaviour) : Prop where
  getProperty : ∀ {id name heap value next},
    (behaviour.getProperty id name).run heap = .ok value next → next = heap
  getIndex : ∀ {id index heap value next},
    (behaviour.getIndex id index).run heap = .ok value next → next = heap

/-- A question leaves all objects as they are. -/
theorem eq_of_run_ask {α : Type} {question : Heap → Except HostError α} {heap next : Heap} {a : α}
    (h : (HostM.ask question).run heap = .ok a next) : next = heap := by
  rw [HostM.run_ask] at h
  split at h <;> cases h
  rfl

theorem readsQuietly_plain : plain.ReadsQuietly where
  getProperty := eq_of_run_ask
  getIndex := eq_of_run_ask

end Behaviour

end ExprLang
