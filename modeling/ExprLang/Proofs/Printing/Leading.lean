import ExprLang.Proofs.Grammar.Passing
import ExprLang.Proofs.Lexical.Separated

/-!
# Readings that go on as other readings do

A reading leads to another one further along the stream if both have the same outcome. How many
levels are left decides whether a reading gets there: with too few of them it is refused for its
depth and for nothing else.
-/

namespace ExprLang

namespace TokenStream

/-- The tokens from one stream to the other are written as the given words. -/
def Offers (stream : TokenStream) (words : List Word) (next : TokenStream) : Prop :=
  ∃ tokens, stream.Passes tokens next ∧ tokens.map Token.word = words

variable {stream next : TokenStream} {word : Word} {words first second : List Word}

namespace Offers

theorem current_eq (h : stream.Offers (word :: words) next) : stream.current.word = word := by
  obtain ⟨tokens, hpasses, hwords⟩ := h
  obtain ⟨token, rest, rfl, rfl, rfl⟩ := List.map_eq_cons_iff.mp hwords
  rw [hpasses.current_eq]

theorem split (h : stream.Offers (first ++ second) next) :
    ∃ middle, stream.Offers first middle ∧ middle.Offers second next := by
  obtain ⟨tokens, hpasses, hwords⟩ := h
  obtain ⟨front, back, rfl, rfl, rfl⟩ := List.map_eq_append_iff.mp hwords
  obtain ⟨middle, hfront, hback⟩ := hpasses.split
  exact ⟨middle, ⟨front, hfront, rfl⟩, ⟨back, hback, rfl⟩⟩

theorem eq_of_nil (h : stream.Offers [] next) : stream = next := by
  obtain ⟨tokens, hpasses, hwords⟩ := h
  obtain rfl := List.map_eq_nil_iff.mp hwords
  obtain ⟨current, ahead, ending⟩ := stream
  obtain ⟨token, rest, last⟩ := next
  obtain ⟨rfl, rfl⟩ := List.cons.inj hpasses.toList_eq
  cases hpasses.ending_eq
  rfl

theorem length_le (h : stream.Offers words next) : words.length ≤ stream.ahead.length := by
  obtain ⟨tokens, hpasses, rfl⟩ := h
  have hlength := congrArg List.length hpasses.toList_eq
  simp only [toList, List.length_cons, List.length_append] at hlength
  rw [List.length_map]
  omega

end Offers

end TokenStream

namespace Grammar

open TokenStream

variable {α β : Type} {stream middle next last : TokenStream}

/-! ## Steps -/

/-- One step along the stream. -/
def Steps (stream next : TokenStream) : Prop :=
  advance.run stream = .ok stream.current next

theorem exists_steps {word : Word} {words : List Word} (h : stream.Offers (word :: words) next) :
    ∃ middle, Steps stream middle ∧ stream.current.word = word ∧ middle.Offers words next := by
  obtain ⟨tokens, hpasses, hwords⟩ := h
  obtain ⟨token, rest, rfl, rfl, rfl⟩ := List.map_eq_cons_iff.mp hwords
  obtain ⟨middle, hrun, hrest⟩ := run_advance hpasses
  obtain rfl := hpasses.current_eq
  exact ⟨middle, hrun, rfl, rest, hrest, rfl⟩

namespace Steps

variable {expected : Token.Kind}

theorem advance_bind (h : Steps stream next) (after : Token → ParseM β) :
    (advance >>= after).run stream = (after stream.current).run next := by
  rw [EStateM.run_bind, h]

theorem discard_advance_bind (h : Steps stream next) (after : PUnit → ParseM β) :
    (discard advance >>= after).run stream = (after ()).run next := by
  rw [EStateM.run_bind, run_discard, h]

theorem expect_bind (h : Steps stream next) (hkind : stream.current.kind = expected)
    (after : Token → ParseM β) :
    (expect expected >>= after).run stream = (after stream.current).run next := by
  have hexpect : (expect expected).run stream = .ok stream.current next := by
    rw [expect, run_current_bind, if_pos hkind]
    exact h
  rw [EStateM.run_bind, hexpect]

theorem discard_expect_bind (h : Steps stream next) (hkind : stream.current.kind = expected)
    (after : PUnit → ParseM β) :
    (discard (expect expected) >>= after).run stream = (after ()).run next := by
  have hexpect : (expect expected).run stream = .ok stream.current next := by
    rw [expect, run_current_bind, if_pos hkind]
    exact h
  rw [EStateM.run_bind, run_discard, hexpect]

end Steps

/-! ## Outcomes -/

/-- The reading is refused for its depth. -/
def TooDeep (reading : ParseM α) (stream : TokenStream) : Prop :=
  ∃ span next, reading.run stream = .error (.grammatical (.tooDeep span)) next

/-- With levels enough the reading has the outcome of another one further on, and without them it
is refused for its depth. -/
structure Leads (reading : ParseM α) (stream : TokenStream) (fits : Prop) (after : ParseM α)
    (next : TokenStream) : Prop where
  run_eq : fits → reading.run stream = after.run next
  tooDeep : ¬ fits → TooDeep reading stream

theorem tooDeep_refuseDepth (stream : TokenStream) :
    TooDeep (refuseDepth : ParseM α) stream :=
  ⟨_, _, run_refuseDepth stream⟩

namespace Leads

variable {first second third : ParseM α} {p q : Prop}

theorem of_eq (h : first.run stream = second.run next) : Leads first stream True second next :=
  ⟨fun _ => h, fun hfalse => absurd trivial hfalse⟩

theorem of_not {fits : Prop} (hfits : ¬ fits) (h : TooDeep first stream) :
    Leads first stream fits second next :=
  ⟨fun hcontra => absurd hcontra hfits, fun _ => h⟩

/-- Readings in a row succeed if both have levels enough. -/
theorem trans (hfirst : Leads first stream p second middle)
    (hsecond : p → Leads second middle q third next) :
    Leads first stream (p ∧ q) third next := by
  constructor
  · rintro ⟨hp, hq⟩
    exact (hfirst.run_eq hp).trans ((hsecond hp).run_eq hq)
  · intro hboth
    by_cases hp : p
    · have hq : ¬ q := fun hq => hboth ⟨hp, hq⟩
      obtain ⟨span, last, hrun⟩ := (hsecond hp).tooDeep hq
      exact ⟨span, last, (hfirst.run_eq hp).trans hrun⟩
    · exact hfirst.tooDeep hp

theorem congr (h : Leads first stream p second next) (hiff : p ↔ q) :
    Leads first stream q second next :=
  ⟨fun hq => h.run_eq (hiff.mpr hq), fun hq => h.tooDeep fun hp => hq (hiff.mp hp)⟩

theorem step (heq : first.run stream = second.run middle)
    (h : Leads second middle p third next) : Leads first stream p third next :=
  ⟨fun hp => heq.trans (h.run_eq hp), fun hp => by
    obtain ⟨span, last, hrun⟩ := h.tooDeep hp
    exact ⟨span, last, heq.trans hrun⟩⟩

theorem then_step (h : Leads first stream p second middle)
    (heq : second.run middle = third.run next) : Leads first stream p third next :=
  ⟨fun hp => (h.run_eq hp).trans heq, h.tooDeep⟩

theorem bind (h : Leads first stream p second next) (after : α → ParseM β) :
    Leads (first >>= after) stream p (second >>= after) next := by
  constructor
  · intro hp
    rw [EStateM.run_bind, EStateM.run_bind, h.run_eq hp]
  · intro hp
    obtain ⟨span, last, hrun⟩ := h.tooDeep hp
    exact ⟨span, last, by rw [EStateM.run_bind, hrun]⟩

end Leads

end Grammar

end ExprLang
