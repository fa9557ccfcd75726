import ExprLang.Grammar.Step
import Mathlib.Data.List.Basic

/-!
# Moving along a stream of tokens

A reading that succeeds has passed the first few tokens of its stream. Only the end token of a
stream can be read again and again, so a step over any other token takes it off the stream.
-/

namespace ExprLang

namespace TokenStream

/-- The tokens that a stream still holds. -/
def toList (stream : TokenStream) : List Token :=
  stream.current :: stream.ahead

/-- Moving from one stream to another takes exactly the given tokens. -/
structure Passes (stream : TokenStream) (tokens : List Token) (next : TokenStream) : Prop where
  toList_eq : stream.toList = tokens ++ next.toList
  ending_eq : next.ending = stream.ending

/-- A stream whose last token stays ends with the end token. -/
def Ended (stream : TokenStream) : Prop :=
  stream.ending = .settled → ∀ last ∈ stream.toList.getLast?, last.kind = .eof

variable {stream middle next : TokenStream} {first second tokens : List Token} {token : Token}

namespace Passes

theorem refl (stream : TokenStream) : stream.Passes [] stream := ⟨rfl, rfl⟩

theorem trans (hfirst : stream.Passes first middle) (hsecond : middle.Passes second next) :
    stream.Passes (first ++ second) next := by
  refine ⟨?_, hsecond.ending_eq.trans hfirst.ending_eq⟩
  rw [hfirst.toList_eq, hsecond.toList_eq, List.append_assoc]

theorem ended (h : stream.Passes tokens next) (hended : stream.Ended) : next.Ended := by
  intro hsettled last hlast
  apply hended (h.ending_eq.symm.trans hsettled)
  rw [h.toList_eq, List.getLast?_append_of_ne_nil _ (by simp [toList])]
  exact hlast

theorem current_eq (h : stream.Passes (token :: tokens) next) : stream.current = token :=
  (List.cons.inj h.toList_eq).1

/-- A stream that passes some tokens can stop after any number of them. -/
theorem split (h : stream.Passes (first ++ second) next) :
    ∃ middle, stream.Passes first middle ∧ middle.Passes second next := by
  have hne : second ++ next.toList ≠ [] := by simp [toList]
  obtain ⟨token, ahead, hahead⟩ := List.exists_cons_of_ne_nil hne
  refine ⟨⟨token, ahead, stream.ending⟩, ⟨?_, rfl⟩, ⟨hahead.symm, h.ending_eq⟩⟩
  rw [h.toList_eq, List.append_assoc, hahead]
  rfl

end Passes

end TokenStream

namespace Grammar

open TokenStream

variable {α β : Type} {stream middle next : TokenStream} {token : Token} {tokens : List Token}

/-! ## Readings in a row -/

theorem bind_eq_ok_iff {reading : ParseM α} {after : α → ParseM β} {result : β} :
    (reading >>= after).run stream = .ok result next ↔
      ∃ value middle, reading.run stream = .ok value middle ∧
        (after value).run middle = .ok result next := by
  rw [EStateM.run_bind]
  constructor
  · intro h
    split at h
    next heq => exact ⟨_, _, heq, h⟩
    next => cases h
  · rintro ⟨value, middle, heq, h⟩
    rw [heq]
    exact h

theorem run_discard (reading : ParseM α) (stream : TokenStream) :
    (discard reading).run stream =
      match reading.run stream with
      | .ok _ next => .ok () next
      | .error error next => .error error next := by
  change (EStateM.map _ reading).run stream = _
  unfold EStateM.map EStateM.run
  dsimp only
  cases reading stream <;> rfl

theorem discard_eq_ok_iff {reading : ParseM α} {answer : PUnit} :
    (discard reading).run stream = .ok answer next ↔
      ∃ value, reading.run stream = .ok value next := by
  rw [run_discard]
  constructor
  · intro h
    split at h
    next heq =>
      cases h
      exact ⟨_, heq⟩
    next => cases h
  · rintro ⟨value, heq⟩
    rw [heq]

theorem run_kind_bind (after : Token.Kind → ParseM β) (stream : TokenStream) :
    (kind >>= after).run stream = (after stream.current.kind).run stream := rfl

theorem run_current_bind (after : Token → ParseM β) (stream : TokenStream) :
    (current >>= after).run stream = (after stream.current).run stream := rfl

theorem run_stepBound_bind (after : Nat → ParseM β) (stream : TokenStream) :
    (stepBound >>= after).run stream = (after (stream.ahead.length + 1)).run stream := rfl

@[simp]
theorem run_refuseDepth (stream : TokenStream) :
    (refuseDepth : ParseM α).run stream =
      .error (.grammatical (.tooDeep stream.current.span)) stream := rfl

/-! ## Single steps -/

theorem ne_eof_of_eq_some {meaning : Token.Kind → Option α} (hnone : meaning .eof = none)
    {kind : Token.Kind} {value : α} (h : meaning kind = some value) : kind ≠ .eof := by
  rintro rfl
  rw [hnone] at h
  cases h

/-- A step over a token that is not the end token takes it off the stream. -/
theorem passes_of_advance (hended : stream.Ended) (hkind : stream.current.kind ≠ .eof)
    (h : advance.run stream = .ok token next) :
    token = stream.current ∧ stream.Passes [stream.current] next := by
  obtain ⟨current, ahead, ending⟩ := stream
  cases ahead with
  | cons first rest =>
      cases h
      exact ⟨rfl, rfl, rfl⟩
  | nil =>
      -- Only a settled stream answers here, and the token that it stays at is the end token.
      cases ending with
      | settled => exact absurd (hended rfl current rfl) hkind
      | stuck error => cases h
      | unclosed error eof => cases h

theorem passes_of_expect {expected : Token.Kind} (hended : stream.Ended) (hkind : expected ≠ .eof)
    (h : (expect expected).run stream = .ok token next) :
    stream.current.kind = expected ∧ token = stream.current ∧
      stream.Passes [stream.current] next := by
  rw [expect, run_current_bind] at h
  split at h
  next heq => exact ⟨heq, passes_of_advance hended (heq ▸ hkind) h⟩
  next => cases h

section Sequences

variable {result : β}

theorem of_advance_bind {after : Token → ParseM β} (hended : stream.Ended)
    (hkind : stream.current.kind ≠ .eof)
    (h : (advance >>= after).run stream = .ok result next) :
    ∃ middle, stream.Passes [stream.current] middle ∧ middle.Ended ∧
      (after stream.current).run middle = .ok result next := by
  obtain ⟨token, middle, hstep, h⟩ := bind_eq_ok_iff.mp h
  obtain ⟨rfl, hpasses⟩ := passes_of_advance hended hkind hstep
  exact ⟨middle, hpasses, hpasses.ended hended, h⟩

theorem of_discard_advance_bind {after : PUnit → ParseM β} (hended : stream.Ended)
    (hkind : stream.current.kind ≠ .eof)
    (h : (discard advance >>= after).run stream = .ok result next) :
    ∃ middle, stream.Passes [stream.current] middle ∧ middle.Ended ∧
      (after ()).run middle = .ok result next := by
  obtain ⟨_, middle, hstep, h⟩ := bind_eq_ok_iff.mp h
  obtain ⟨token, hstep⟩ := discard_eq_ok_iff.mp hstep
  have hpasses := (passes_of_advance hended hkind hstep).2
  exact ⟨middle, hpasses, hpasses.ended hended, h⟩

theorem of_expect_bind {after : Token → ParseM β} {expected : Token.Kind} (hended : stream.Ended)
    (hkind : expected ≠ .eof) (h : (expect expected >>= after).run stream = .ok result next) :
    ∃ middle, stream.current.kind = expected ∧ stream.Passes [stream.current] middle ∧
      middle.Ended ∧ (after stream.current).run middle = .ok result next := by
  obtain ⟨token, middle, hstep, h⟩ := bind_eq_ok_iff.mp h
  obtain ⟨heq, rfl, hpasses⟩ := passes_of_expect hended hkind hstep
  exact ⟨middle, heq, hpasses, hpasses.ended hended, h⟩

theorem of_discard_expect_bind {after : PUnit → ParseM β} {expected : Token.Kind}
    (hended : stream.Ended) (hkind : expected ≠ .eof)
    (h : (discard (expect expected) >>= after).run stream = .ok result next) :
    ∃ middle, stream.current.kind = expected ∧ stream.Passes [stream.current] middle ∧
      middle.Ended ∧ (after ()).run middle = .ok result next := by
  obtain ⟨_, middle, hstep, h⟩ := bind_eq_ok_iff.mp h
  obtain ⟨token, hstep⟩ := discard_eq_ok_iff.mp hstep
  have hbind : (expect expected >>= fun _ => after ()).run stream = .ok result next :=
    bind_eq_ok_iff.mpr ⟨token, middle, hstep, h⟩
  exact of_expect_bind hended hkind hbind

end Sequences

theorem run_advance (h : stream.Passes (token :: tokens) next) :
    ∃ middle, advance.run stream = .ok token middle ∧ middle.Passes tokens next := by
  have hsplit : stream.Passes ([token] ++ tokens) next := h
  obtain ⟨middle, hstep, hrest⟩ := hsplit.split
  refine ⟨middle, ?_, hrest⟩
  obtain ⟨current, ahead, ending⟩ := stream
  obtain ⟨first, rest, last⟩ := middle
  obtain ⟨rfl, rfl⟩ := List.cons.inj hstep.toList_eq
  cases hstep.ending_eq
  rfl

end Grammar

end ExprLang
