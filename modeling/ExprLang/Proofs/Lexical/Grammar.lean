import Mathlib.Data.List.TakeWhile
import ExprLang.Token.Lexeme

/-!
# The lexical grammar

The pieces of text that are tokens, described without a reader: symbols, numbers, words and strings,
each with its kind and value. A piece of text is a lexeme in at most one way.
-/

namespace ExprLang.Token.Lexeme

open Text

/-- The inside of a string as it is spelled, and what it means. A backslash or a slash stands before
a character that is taken as it is. -/
inductive IsBody : List Char → List Char → Prop
  | nil : IsBody [] []
  | plain {c : Char} {spelled value : List Char} (hquote : c ≠ '"')
      (hescape : ¬ (c = '\\' ∨ c = '/')) (hbody : IsBody spelled value) :
      IsBody (c :: spelled) (c :: value)
  | escaped {escape c : Char} {spelled value : List Char} (hescape : escape = '\\' ∨ escape = '/')
      (hbody : IsBody spelled value) : IsBody (escape :: c :: spelled) (c :: value)

/-- The pieces of text that are tokens of a kind, with the value that they have. A decimal has
digits on at least one side of its point. -/
inductive IsLexeme : Kind → List Char → Option (List Char) → Prop
  | symbol {kind : Kind} {lexeme : List Char} (hmem : (lexeme, kind) ∈ Kind.symbols) :
      IsLexeme kind lexeme none
  | int {digits : List Char} (hne : digits ≠ []) (hdigits : ∀ c ∈ digits, c.isDigit = true) :
      IsLexeme .int digits (some digits)
  | decimal {whole fraction : List Char} (hne : whole ≠ [] ∨ fraction ≠ [])
      (hwhole : ∀ c ∈ whole, c.isDigit = true) (hfraction : ∀ c ∈ fraction, c.isDigit = true) :
      IsLexeme .decimal (whole ++ '.' :: fraction) (some (whole ++ '.' :: fraction))
  | word {c : Char} {tail : List Char} (hletter : isLetter c = true)
      (htail : ∀ d ∈ tail, isWordChar d = true) :
      IsLexeme (Kind.ofWord (c :: tail)) (c :: tail) (some (c :: tail))
  | string {spelled value : List Char} (hbody : IsBody spelled value) :
      IsLexeme .string ('"' :: (spelled ++ ['"'])) (some value)

/-- The longest lexeme that a text begins with, and the text after it. -/
structure IsLongest (text : List Char) (kind : Kind) (lexeme : List Char)
    (value : Option (List Char)) (rest : List Char) : Prop where
  isLexeme : IsLexeme kind lexeme value
  eq_append : text = lexeme ++ rest
  longest : ∀ {other : Kind} {piece : List Char} {meaning : Option (List Char)},
    IsLexeme other piece meaning → piece <+: text → piece.length ≤ lexeme.length

/-- Whether a text begins with a lexeme at all. -/
def HasLexeme (text : List Char) : Prop :=
  ∃ kind lexeme value, IsLexeme kind lexeme value ∧ lexeme <+: text

/-! ## First characters -/

theorem isLetter_eq_false_of_lt {c : Char} (h : c.toNat < 0x41) : isLetter c = false := by
  have hsplit : alphabetic = (0x41, 0x5A) :: alphabetic.tail := rfl
  rw [isLetter, hsplit, Ranges.contains]
  have : ¬ 0x41 ≤ c.toNat := by omega
  simp [this]

theorem isLetter_eq_false_of_isDigit {c : Char} (h : c.isDigit = true) : isLetter c = false := by
  apply isLetter_eq_false_of_lt
  simp only [Char.isDigit, Bool.and_eq_true, decide_eq_true_eq, UInt32.le_iff_toNat_le] at h
  have : c.toNat ≤ 57 := h.2
  omega

/-- A symbol begins with a character that begins no word, no string and no digits. -/
theorem symbol_head {c : Char} {tail : List Char} {kind : Kind}
    (h : (c :: tail, kind) ∈ Kind.symbols) :
    c.isDigit = false ∧ isLetter c = false ∧ c ≠ '"' := by
  have hall : ∀ entry ∈ Kind.symbols,
      entry.1.head?.all (fun c => !c.isDigit && !isLetter c && c != '"') := by decide
  simpa [and_assoc] using hall _ h

theorem symbol_eq_dot_iff {lexeme : List Char} {kind : Kind} (h : (lexeme, kind) ∈ Kind.symbols) :
    lexeme.head? = some '.' ↔ kind = .dot := by
  have hall : ∀ entry ∈ Kind.symbols, entry.1.head? = some '.' ↔ entry.2 = .dot := by decide
  exact hall _ h

theorem symbol_dot {lexeme : List Char} (h : (lexeme, Kind.dot) ∈ Kind.symbols) :
    lexeme = ['.'] := by
  have hall : ∀ entry ∈ Kind.symbols, entry.2 = .dot → entry.1 = ['.'] := by decide
  exact hall _ h rfl

theorem digit_ne_dot {c : Char} (h : c.isDigit = true) : c ≠ '.' := by
  rintro rfl
  exact absurd h (by decide)

/-- A word that is no name is one of the keywords. -/
theorem ofWord_eq_identifier_or_mem (word : List Char) :
    Kind.ofWord word = .identifier ∨ (word, Kind.ofWord word) ∈ Kind.keywords := by
  cases hlookup : Kind.keywords.lookup word with
  | none => exact .inl (by rw [Kind.ofWord, hlookup]; rfl)
  | some kind =>
      obtain ⟨before, after, hsplit, _⟩ := List.lookup_eq_some_iff.mp hlookup
      rw [Kind.ofWord, hlookup]
      exact .inr (by simp [hsplit])

/-! ## Lexemes by their first character -/

namespace IsLexeme

variable {kind : Kind} {c : Char} {tail : List Char} {value : Option (List Char)}

/-- A lexeme that begins with a digit is a number. -/
theorem of_isDigit (h : IsLexeme kind (c :: tail) value) (hc : c.isDigit = true) :
    (kind = .int ∧ value = some (c :: tail) ∧ ∀ d ∈ c :: tail, d.isDigit = true) ∨
      ∃ whole fraction, c :: tail = whole ++ '.' :: fraction ∧ kind = .decimal ∧
        value = some (c :: tail) ∧ (∀ d ∈ whole, d.isDigit = true) ∧
        ∀ d ∈ fraction, d.isDigit = true := by
  generalize hlexeme : c :: tail = lexeme at h
  cases h with
  | symbol hmem =>
      subst hlexeme
      exact absurd hc (by simp [(symbol_head hmem).1])
  | int _ hdigits => exact .inl ⟨rfl, rfl, hdigits⟩
  | decimal _ hwhole hfraction => exact .inr ⟨_, _, rfl, rfl, rfl, hwhole, hfraction⟩
  | word hletter _ =>
      obtain ⟨rfl, rfl⟩ := List.cons.inj hlexeme
      exact absurd hletter (by simp [isLetter_eq_false_of_isDigit hc])
  | string _ =>
      obtain ⟨rfl, rfl⟩ := List.cons.inj hlexeme
      exact absurd hc (by decide)

/-- A lexeme that begins with a letter is a word. -/
theorem of_isLetter (h : IsLexeme kind (c :: tail) value) (hc : isLetter c = true) :
    kind = Kind.ofWord (c :: tail) ∧ value = some (c :: tail) ∧
      ∀ d ∈ tail, isWordChar d = true := by
  have hdigit : c.isDigit = false := by
    cases hd : c.isDigit with
    | false => rfl
    | true => exact absurd hc (by simp [isLetter_eq_false_of_isDigit hd])
  generalize hlexeme : c :: tail = lexeme at h
  cases h with
  | symbol hmem =>
      subst hlexeme
      exact absurd hc (by simp [(symbol_head hmem).2.1])
  | int _ hdigits => exact absurd (hdigits c (hlexeme ▸ List.mem_cons_self)) (by simp [hdigit])
  | @decimal whole _ _ hwhole _ =>
      cases whole with
      | nil =>
          obtain ⟨rfl, _⟩ := List.cons.inj hlexeme
          exact absurd hc (by decide)
      | cons d whole =>
          obtain ⟨rfl, _⟩ := List.cons.inj hlexeme
          exact absurd (hwhole c List.mem_cons_self) (by simp [hdigit])
  | word _ htail =>
      obtain ⟨rfl, rfl⟩ := List.cons.inj hlexeme
      exact ⟨rfl, rfl, htail⟩
  | string _ =>
      obtain ⟨rfl, _⟩ := List.cons.inj hlexeme
      exact absurd hc (by decide)

/-- A lexeme that begins with a quote is a string. -/
theorem of_quote (h : IsLexeme kind ('"' :: tail) value) :
    ∃ spelled meaning, tail = spelled ++ ['"'] ∧ kind = .string ∧ value = some meaning ∧
      IsBody spelled meaning := by
  generalize hlexeme : '"' :: tail = lexeme at h
  cases h with
  | symbol hmem =>
      subst hlexeme
      exact absurd rfl (symbol_head hmem).2.2
  | int _ hdigits =>
      exact absurd (hdigits '"' (hlexeme ▸ List.mem_cons_self)) (by decide)
  | @decimal whole _ _ hwhole _ =>
      cases whole with
      | nil => exact absurd (List.cons.inj hlexeme).1 (by decide)
      | cons d whole =>
          obtain ⟨rfl, _⟩ := List.cons.inj hlexeme
          exact absurd (hwhole _ List.mem_cons_self) (by decide)
  | word hletter _ =>
      obtain ⟨rfl, _⟩ := List.cons.inj hlexeme
      exact absurd hletter (by decide)
  | string hbody => exact ⟨_, _, (List.cons.inj hlexeme).2, rfl, rfl, hbody⟩

/-- A lexeme that begins with none of these is a symbol or the fraction of a decimal. -/
theorem of_symbol (h : IsLexeme kind (c :: tail) value) (hdigit : c.isDigit = false)
    (hletter : isLetter c = false) (hquote : c ≠ '"') :
    ((c :: tail, kind) ∈ Kind.symbols ∧ value = none) ∨
      (c = '.' ∧ tail ≠ [] ∧ kind = .decimal ∧ value = some (c :: tail) ∧
        ∀ d ∈ tail, d.isDigit = true) := by
  generalize hlexeme : c :: tail = lexeme at h
  cases h with
  | symbol hmem => exact .inl ⟨hmem, rfl⟩
  | int _ hdigits => exact absurd (hdigits c (hlexeme ▸ List.mem_cons_self)) (by simp [hdigit])
  | @decimal whole fraction hne hwhole hfraction =>
      cases whole with
      | nil =>
          obtain ⟨rfl, rfl⟩ := List.cons.inj hlexeme
          exact .inr ⟨rfl, hne.resolve_left (by simp), rfl, rfl, hfraction⟩
      | cons d whole =>
          obtain ⟨rfl, _⟩ := List.cons.inj hlexeme
          exact absurd (hwhole c List.mem_cons_self) (by simp [hdigit])
  | word hcontra _ =>
      obtain ⟨rfl, _⟩ := List.cons.inj hlexeme
      exact absurd hcontra (by simp [hletter])
  | string _ => exact absurd (List.cons.inj hlexeme).1 hquote

/-- Names and the two truth values are spelled as words. -/
theorem eq_ofWord {lexeme : List Char} (h : IsLexeme kind lexeme value)
    (hkind : kind = .identifier ∨ kind = .true ∨ kind = .false) :
    kind = Kind.ofWord lexeme ∧ value = some lexeme := by
  cases h with
  | symbol hmem =>
      have hall : ∀ entry ∈ Kind.symbols,
          ¬ (entry.2 = .identifier ∨ entry.2 = .true ∨ entry.2 = .false) := by decide
      exact absurd hkind (hall _ hmem)
  | int _ _ => exact absurd hkind (by decide)
  | decimal _ _ _ => exact absurd hkind (by decide)
  | word _ _ => exact ⟨rfl, rfl⟩
  | string _ => exact absurd hkind (by decide)

/-- The value of a number is its spelling. -/
theorem value_of_number {lexeme : List Char} (h : IsLexeme kind lexeme value)
    (hkind : kind = .int ∨ kind = .decimal) : value = some lexeme := by
  cases h with
  | symbol hmem =>
      have hall : ∀ entry ∈ Kind.symbols, ¬ (entry.2 = .int ∨ entry.2 = .decimal) := by decide
      exact absurd hkind (hall _ hmem)
  | int _ _ => rfl
  | decimal _ _ _ => rfl
  | word _ _ => rfl
  | string _ => exact absurd hkind (by decide)

/-- A number is spelled by digits, a decimal with a point among them. -/
theorem digits_of_number {lexeme : List Char} (h : IsLexeme kind lexeme value)
    (hkind : kind = .int ∨ kind = .decimal) :
    (kind = .int ∧ lexeme ≠ [] ∧ ∀ d ∈ lexeme, d.isDigit = true) ∨
      (kind = .decimal ∧ ∃ whole fraction, lexeme = whole ++ '.' :: fraction ∧
        (whole ≠ [] ∨ fraction ≠ []) ∧ (∀ d ∈ whole, d.isDigit = true) ∧
        ∀ d ∈ fraction, d.isDigit = true) := by
  cases h with
  | symbol hmem =>
      have hall : ∀ entry ∈ Kind.symbols, ¬ (entry.2 = .int ∨ entry.2 = .decimal) := by decide
      exact absurd hkind (hall _ hmem)
  | int hne hdigits => exact .inl ⟨rfl, hne, hdigits⟩
  | decimal hne hwhole hfraction => exact .inr ⟨rfl, _, _, rfl, hne, hwhole, hfraction⟩
  | @word c tail _ _ =>
      have hall : ∀ entry ∈ Kind.keywords, ¬ (entry.2 = .int ∨ entry.2 = .decimal) := by decide
      rcases ofWord_eq_identifier_or_mem (c :: tail) with hword | hmem
      · exact absurd (hword ▸ hkind) (by decide)
      · exact absurd hkind (hall _ hmem)
  | string _ => exact absurd hkind (by decide)

end IsLexeme

end ExprLang.Token.Lexeme
