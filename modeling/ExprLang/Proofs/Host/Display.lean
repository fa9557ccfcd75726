import ExprLang.Proofs.Host.Contents

/-!
# The texts of numbers and truth values

The text of a scalar has no parenthesis and no quote in it.
-/

namespace ExprLang

/-- Whether a character opens the arguments of a call or a string. -/
def Text.opens (c : Char) : Bool :=
  c == '(' || c == '"'

open Text (opens)

theorem Text.opens_eq_false_of_isDigit {c : Char} (h : c.isDigit = true) : opens c = false := by
  cases hopens : opens c with
  | false => rfl
  | true =>
      simp only [opens, Bool.or_eq_true, beq_iff_eq] at hopens
      rcases hopens with rfl | rfl <;> cases h

theorem Text.opens_eq_false_of_mem_toDigits {n : Nat} :
    ∀ c ∈ Nat.toDigits 10 n, opens c = false :=
  fun _ hc => opens_eq_false_of_isDigit
    (Nat.isDigit_of_mem_toDigits (Nat.succ_pos _) (Nat.le_refl _) hc)

namespace Integer

theorem opens_eq_false_of_mem_text (n : Int64) : ∀ c ∈ (text n).toList, opens c = false := by
  unfold text
  split
  · simpa using Text.opens_eq_false_of_mem_toDigits
  · simpa using ⟨rfl, Text.opens_eq_false_of_mem_toDigits⟩

end Integer

namespace Decimal

theorem opens_eq_false_of_mem_positional (number : Digits) :
    ∀ c ∈ number.positional, opens c = false := by
  have hdigits := Text.opens_eq_false_of_mem_toDigits (n := number.digits)
  have hzeros (count : Nat) : ∀ c ∈ List.replicate count '0', opens c = false := by
    intro c hc
    rw [List.eq_of_mem_replicate hc]
    rfl
  simp only [Digits.positional]
  split
  next => exact List.forall_mem_append.mpr ⟨hdigits, hzeros _⟩
  next =>
    split
    next =>
      refine List.forall_mem_append.mpr ⟨fun c hc => hdigits c (List.mem_of_mem_take hc), ?_⟩
      exact List.forall_mem_cons.mpr ⟨rfl, fun c hc => hdigits c (List.mem_of_mem_drop hc)⟩
    next =>
      refine List.forall_mem_append.mpr ⟨?_, hdigits⟩
      exact List.forall_mem_cons.mpr ⟨rfl, List.forall_mem_cons.mpr ⟨rfl, hzeros _⟩⟩

theorem opens_eq_false_of_mem_text (x : Float) : ∀ c ∈ (text x).toList, opens c = false := by
  have hsigned (negative : Bool) {body : List Char} (hbody : ∀ c ∈ body, opens c = false) :
      ∀ c ∈ (String.ofList (if negative then '-' :: body else body)).toList, opens c = false := by
    rw [String.toList_ofList]
    split
    next => exact List.forall_mem_cons.mpr ⟨rfl, hbody⟩
    next => exact hbody
  rw [text]
  cases form x with
  | notANumber => simp [opens]
  | infinite negative => exact hsigned negative (by simp [opens])
  | finite parts =>
      refine hsigned parts.negative ?_
      split
      next => simp [opens]
      next => exact opens_eq_false_of_mem_positional (shortest parts)

end Decimal

/-- No call and no string is opened in the text of a scalar. -/
theorem Heap.opens_eq_false_of_mem_display (heap : Heap) {value : Value}
    (h : value.isScalar = true) :
    ∀ c ∈ (heap.display value).toList, opens c = false := by
  cases value with
  | bool b =>
      rw [display]
      cases b <;> simp [opens]
  | int n => exact Integer.opens_eq_false_of_mem_text n
  | decimal x => exact Decimal.opens_eq_false_of_mem_text x
  | string text => cases h
  | object id => cases h

end ExprLang
