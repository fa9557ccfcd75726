import ExprLang.Text.Quoted
import Mathlib.Data.List.TakeWhile

/-!
# Parenthesized texts

A parenthesized text is a word, a quoted string, or a word and other such texts in parentheses.
Its spelling tells where it ends, so nothing that follows it can be taken for a part of it: a text
begins with at most one of them.
-/

namespace ExprLang

namespace Text

/-- Two texts that begin with characters of a class are cut alike where the class ends. -/
theorem append_inj_of_class {p : Char → Bool} {text other rest more : List Char}
    (htext : ∀ c ∈ text, p c = true) (hother : ∀ c ∈ other, p c = true)
    (hrest : ∀ c ∈ rest.head?, p c = false) (hmore : ∀ c ∈ more.head?, p c = false)
    (h : text ++ rest = other ++ more) : text = other ∧ rest = more := by
  have htake {front after : List Char} (hfront : ∀ c ∈ front, p c = true)
      (hafter : ∀ c ∈ after.head?, p c = false) : (front ++ after).takeWhile p = front := by
    rw [List.takeWhile_append_of_pos hfront]
    cases after with
    | nil => rw [List.takeWhile_nil, List.append_nil]
    | cons c after => rw [List.takeWhile_cons_of_neg (by simp [hafter c rfl]), List.append_nil]
  have hsame : text = other := by
    rw [← htake htext hrest, h, htake hother hmore]
  subst hsame
  exact ⟨rfl, List.append_cancel_left h⟩

/-! ## Quoted characters -/

/-- The characters that are quoted by a backslash and a mark. -/
def marks : List (Char × Char) :=
  [('"', '"'), ('\\', '\\'), ('\n', 'n'), ('\r', 'r'), ('\t', 't'), ('\x00', '0')]

/-- A quoted character is a backslash with a mark or with a code point, or else the character. -/
theorem quotedChar_cases (c : Char) :
    (∃ mark, (c, mark) ∈ marks ∧ quotedChar c = ['\\', mark]) ∨
      (quotedChar c = [c] ∧ c ≠ '\\' ∧ c ≠ '"') ∨
      quotedChar c = '\\' :: 'u' :: '\x7b' :: (Nat.toDigits 16 c.toNat ++ ['\x7d']) := by
  unfold quotedChar
  split
  · exact .inl ⟨_, by decide, rfl⟩
  · exact .inl ⟨_, by decide, rfl⟩
  · exact .inl ⟨_, by decide, rfl⟩
  · exact .inl ⟨_, by decide, rfl⟩
  · exact .inl ⟨_, by decide, rfl⟩
  · exact .inl ⟨_, by decide, rfl⟩
  next hquote hescape _ _ _ _ =>
    split
    · exact .inr (.inl ⟨rfl, hescape, hquote⟩)
    · exact .inr (.inr rfl)

theorem digitChar_inj {m n : Nat} (hm : m < 16) (hn : n < 16)
    (h : m.digitChar = n.digitChar) : m = n := by
  have hall : ∀ m < 16, ∀ n < 16, m.digitChar = n.digitChar → m = n := by decide
  exact hall m hm n hn h

/-- The hexadecimal digits of a number tell the number. -/
theorem toDigits_inj {m n : Nat} (h : Nat.toDigits 16 m = Nat.toDigits 16 n) : m = n := by
  have hlast (k : Nat) : ∃ front, Nat.toDigits 16 k = front ++ [(k % 16).digitChar] ∧
      (k < 16 → front = []) ∧ (16 ≤ k → front = Nat.toDigits 16 (k / 16)) := by
    by_cases hk : k < 16
    · refine ⟨[], ?_, fun _ => rfl, fun hle => by omega⟩
      rw [Nat.toDigits_of_lt_base hk, Nat.mod_eq_of_lt hk, List.nil_append]
    · exact ⟨_, Nat.toDigits_of_base_le (by decide) (by omega), fun hlt => by omega, fun _ => rfl⟩
  induction m using Nat.strong_induction_on generalizing n with
  | _ m ih =>
    obtain ⟨first, hfirst, hsmall, hlarge⟩ := hlast m
    obtain ⟨second, hsecond, hsmall', hlarge'⟩ := hlast n
    rw [hfirst, hsecond] at h
    obtain ⟨hfront, hdigit⟩ := List.append_inj' h rfl
    have hmod : m % 16 = n % 16 :=
      digitChar_inj (by omega) (by omega) (List.singleton_inj.mp hdigit)
    -- The number of digits says on which side of the base the two numbers are.
    by_cases hm : m < 16 <;> by_cases hn : n < 16
    · omega
    · rw [hsmall hm, hlarge' (by omega)] at hfront
      exact absurd hfront.symm Nat.toDigits_ne_nil
    · rw [hsmall' hn, hlarge (by omega)] at hfront
      exact absurd hfront Nat.toDigits_ne_nil
    · rw [hlarge (by omega), hlarge' (by omega)] at hfront
      have hdiv := ih (m / 16) (by omega) hfront
      omega

theorem ne_brace_of_mem_toDigits {n : Nat} :
    ∀ c ∈ Nat.toDigits 16 n, (c != '\x7d') = true := by
  induction n using Nat.strong_induction_on with
  | _ n ih =>
    have hdigit (k : Nat) : (k.digitChar != '\x7d') = true :=
      bne_iff_ne.mpr (Nat.digitChar_ne '\x7d' (by decide))
    by_cases hn : n < 16
    · rw [Nat.toDigits_of_lt_base hn]
      exact List.forall_mem_singleton.mpr (hdigit n)
    · rw [Nat.toDigits_of_base_le (by decide) (by omega)]
      exact List.forall_mem_append.mpr
        ⟨ih (n / 16) (by omega), List.forall_mem_singleton.mpr (hdigit _)⟩

/-- A quoted text begins with one quoted character. -/
theorem quotedChar_append_inj {c d : Char} {rest more : List Char}
    (h : quotedChar c ++ rest = quotedChar d ++ more) : c = d ∧ rest = more := by
  -- A character that is not quoted is no backslash, and what comes after a backslash tells whether
  -- it is a mark or begins a code point.
  have hmark : ∀ entry ∈ marks, entry.2 ≠ 'u' := by decide
  rcases quotedChar_cases c with ⟨mark, hmem, hc⟩ | ⟨hc, hescape, -⟩ | hc <;>
    rcases quotedChar_cases d with ⟨mark', hmem', hd⟩ | ⟨hd, hescape', -⟩ | hd <;>
    rw [hc, hd] at h <;>
    simp only [List.cons_append, List.nil_append, List.append_assoc, List.cons.injEq,
      true_and] at h
  · obtain ⟨rfl, rfl⟩ := h
    have hall : ∀ entry ∈ marks, ∀ other ∈ marks, entry.2 = other.2 → entry.1 = other.1 := by
      decide
    exact ⟨hall _ hmem _ hmem' rfl, rfl⟩
  · exact absurd h.1.symm hescape'
  · exact absurd h.1 (hmark _ hmem)
  · exact absurd h.1 hescape
  · exact h
  · exact absurd h.1 hescape
  · exact absurd h.1.symm (hmark _ hmem')
  · exact absurd h.1.symm hescape'
  · have hclosing {text : List Char} : ∀ c ∈ ('\x7d' :: text).head?, (c != '\x7d') = false := by
      rintro c ⟨⟩
      rfl
    obtain ⟨hdigits, hrest⟩ := append_inj_of_class ne_brace_of_mem_toDigits
      ne_brace_of_mem_toDigits hclosing hclosing h
    exact ⟨Char.toNat_inj.mp (toDigits_inj hdigits), (List.cons.inj hrest).2⟩

theorem quotedChar_append_ne_quote (c : Char) (rest more : List Char) :
    quotedChar c ++ rest ≠ '"' :: more := by
  intro h
  rcases quotedChar_cases c with ⟨mark, -, hc⟩ | ⟨hc, -, hquote⟩ | hc <;> rw [hc] at h
  · exact absurd (List.cons.inj h).1 (by decide)
  · exact hquote (List.cons.inj h).1
  · exact absurd (List.cons.inj h).1 (by decide)

/-- A quoted text ends at its first quote that is not itself quoted. -/
theorem flatMap_quotedChar_append_inj {text other rest more : List Char}
    (h : text.flatMap quotedChar ++ '"' :: rest = other.flatMap quotedChar ++ '"' :: more) :
    text = other ∧ rest = more := by
  induction text generalizing other with
  | nil =>
      cases other with
      | nil => exact ⟨rfl, (List.cons.inj h).2⟩
      | cons d other =>
          rw [List.flatMap_cons, List.append_assoc] at h
          exact absurd h.symm (quotedChar_append_ne_quote d _ _)
  | cons c text ih =>
      cases other with
      | nil =>
          rw [List.flatMap_cons, List.append_assoc] at h
          exact absurd h (quotedChar_append_ne_quote c _ _)
      | cons d other =>
          rw [List.flatMap_cons, List.flatMap_cons, List.append_assoc, List.append_assoc] at h
          obtain ⟨rfl, htail⟩ := quotedChar_append_inj h
          obtain ⟨rfl, rfl⟩ := ih htail
          exact ⟨rfl, rfl⟩

end Text

/-! ## Forms -/

/-- What a parenthesized text consists of. -/
inductive Form where
  | word (text : List Char)
  | quoted (text : List Char)
  | list (head : List Char) (parts : List Form)

namespace Form

mutual

/-- The text of a form. -/
def render : Form → List Char
  | word text => text
  | quoted text => '"' :: (text.flatMap Text.quotedChar ++ ['"'])
  | list head parts => '(' :: (head ++ (renderAll parts ++ [')']))

/-- The texts of the parts of a form, each after a space. -/
def renderAll : List Form → List Char
  | [] => []
  | part :: rest => ' ' :: (render part ++ renderAll rest)

end

/-- Whether a character can stand in a word. -/
def isPlain (c : Char) : Bool :=
  c != ' ' && c != '(' && c != ')' && c != '"'

/-- Whether a text is a word. -/
structure IsWord (text : List Char) : Prop where
  ne_nil : text ≠ []
  isPlain : ∀ c ∈ text, isPlain c = true

instance (text : List Char) : Decidable (IsWord text) :=
  decidable_of_iff (text.isEmpty = false ∧ text.all Form.isPlain = true)
    ⟨fun h => ⟨List.isEmpty_eq_false_iff.mp h.1, List.all_eq_true.mp h.2⟩,
      fun h => ⟨List.isEmpty_eq_false_iff.mpr h.ne_nil, List.all_eq_true.mpr h.isPlain⟩⟩

/-- Whether all words of a form are words. -/
inductive Legible : Form → Prop
  | word {text : List Char} (htext : IsWord text) : Legible (word text)
  | quoted (text : List Char) : Legible (quoted text)
  | list {head : List Char} {parts : List Form} (hhead : IsWord head)
      (hparts : ∀ part ∈ parts, Legible part) : Legible (list head parts)

/-- Whether a word before the text ends there. -/
def Stops (text : List Char) : Prop :=
  ∀ c ∈ text.head?, isPlain c = false

theorem IsWord.append_ne {text : List Char} (htext : IsWord text) {c : Char}
    (hc : Form.isPlain c = false) (rest more : List Char) : text ++ rest ≠ c :: more := by
  obtain ⟨d, tail, rfl⟩ := List.exists_cons_of_ne_nil htext.ne_nil
  intro h
  obtain ⟨rfl, -⟩ := List.cons.inj h
  simp [htext.isPlain d List.mem_cons_self] at hc

theorem stops_renderAll (parts : List Form) (rest : List Char) :
    Stops (renderAll parts ++ ')' :: rest) := by
  intro c hc
  cases parts with
  | nil =>
      cases hc
      rfl
  | cons part parts =>
      rw [renderAll] at hc
      cases hc
      rfl

/-- The parts of a form are read one after another up to the closing parenthesis. -/
theorem renderAll_append_inj {parts others : List Form} {rest more : List Char}
    (hread : ∀ part ∈ parts, ∀ {other : Form} {rest more : List Char}, other.Legible →
      Stops rest → Stops more → part.render ++ rest = other.render ++ more →
        part = other ∧ rest = more)
    (hothers : ∀ other ∈ others, other.Legible)
    (h : renderAll parts ++ ')' :: rest = renderAll others ++ ')' :: more) :
    parts = others ∧ rest = more := by
  induction parts generalizing others with
  | nil =>
      cases others with
      | nil => exact ⟨rfl, (List.cons.inj h).2⟩
      | cons _ _ => exact absurd (List.cons.inj h).1 (by decide)
  | cons part parts ih =>
      cases others with
      | nil => exact absurd (List.cons.inj h).1 (by decide)
      | cons other others =>
          simp only [renderAll, List.cons_append, List.append_assoc, List.cons.injEq,
            true_and] at h
          obtain ⟨hother, htheirs⟩ := List.forall_mem_cons.mp hothers
          obtain ⟨rfl, htail⟩ := hread part List.mem_cons_self hother (stops_renderAll _ _)
            (stops_renderAll _ _) h
          obtain ⟨rfl, rfl⟩ := ih (fun part hmem => hread part (List.mem_cons_of_mem _ hmem))
            htheirs htail
          exact ⟨rfl, rfl⟩

/-- A text begins with one form at most. -/
theorem render_append_inj {form other : Form} {rest more : List Char} (hform : form.Legible)
    (hother : other.Legible) (hrest : Stops rest) (hmore : Stops more)
    (h : form.render ++ rest = other.render ++ more) : form = other ∧ rest = more := by
  -- The first character tells the sort of a form: no word begins with a quote or a parenthesis.
  induction hform generalizing other rest more with
  | @word text htext =>
      cases hother with
      | word hword =>
          obtain ⟨rfl, rfl⟩ :=
            Text.append_inj_of_class htext.isPlain hword.isPlain hrest hmore h
          exact ⟨rfl, rfl⟩
      | quoted _ => exact absurd h (htext.append_ne rfl _ _)
      | list _ _ => exact absurd h (htext.append_ne rfl _ _)
  | quoted text =>
      cases hother with
      | word hword => exact absurd h.symm (hword.append_ne rfl _ _)
      | quoted _ =>
          simp only [render, List.cons_append, List.append_assoc, List.nil_append,
            List.cons.injEq, true_and] at h
          obtain ⟨rfl, rfl⟩ := Text.flatMap_quotedChar_append_inj h
          exact ⟨rfl, rfl⟩
      | list _ _ => exact absurd (List.cons.inj h).1 (by decide)
  | @list head parts hhead _ ih =>
      cases hother with
      | word hword => exact absurd h.symm (hword.append_ne rfl _ _)
      | quoted _ => exact absurd (List.cons.inj h).1 (by decide)
      | @list other others hother hothers =>
          simp only [render, List.cons_append, List.append_assoc, List.nil_append,
            List.cons.injEq, true_and] at h
          obtain ⟨rfl, hparts⟩ := Text.append_inj_of_class hhead.isPlain hother.isPlain
            (stops_renderAll _ _) (stops_renderAll _ _) h
          obtain ⟨rfl, rfl⟩ := renderAll_append_inj ih hothers hparts
          exact ⟨rfl, rfl⟩

/-- A form is told by its text. -/
theorem render_inj {form other : Form} (hform : form.Legible) (hother : other.Legible)
    (h : form.render = other.render) : form = other := by
  have hstops : Stops [] := nofun
  have hnil : form.render ++ [] = other.render ++ [] := by rw [h]
  exact (render_append_inj hform hother hstops hstops hnil).1

end Form

end ExprLang
