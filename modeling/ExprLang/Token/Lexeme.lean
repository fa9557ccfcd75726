import ExprLang.Text.Character
import ExprLang.Token.Kind

/-!
# Lexemes

`Lexeme.read` finds the token at the beginning of a text that does not begin with a blank. It takes
as many characters as belong together: a point belongs to the digits before or after it, and of two
symbols that begin the text the longer one counts.
-/

namespace ExprLang.Token

open Text

/-- A character of a word after the first. -/
def isWordChar (c : Char) : Bool :=
  isLetter c || isNumeral c || c == '_'

/-- What stands at the beginning of a text. -/
inductive Lexeme where
  /-- A token, the value that it has besides its spelling, and the text after it. -/
  | token (kind : Kind) (lexeme : List Char) (value : Option (List Char)) (rest : List Char)
  /-- A character that begins no token. -/
  | unexpected (c : Char)
  /-- A string that the text does not close. -/
  | unterminated
  deriving DecidableEq, Repr

namespace Lexeme

/-- A token whose value is its spelling. -/
def literal (kind : Kind) (lexeme rest : List Char) : Lexeme :=
  .token kind lexeme (some lexeme) rest

/-- The symbol at the beginning of a text. -/
def symbol? (text : List Char) : Option (List Char × Kind) :=
  Kind.symbols.find? (·.1.isPrefixOf text)

/-- The rest of a string after its opening quote: what is spelled up to the closing quote, what
that means, and the text after it. A backslash or a slash is dropped and the character after it
taken as it is. -/
def stringBody? : List Char → Option (List Char × List Char × List Char)
  | [] => none
  | '"' :: rest => some (['"'], [], rest)
  | c :: rest =>
    if c = '\\' ∨ c = '/' then
      match rest with
      | [] => none
      | d :: rest =>
        (stringBody? rest).map fun (spelled, value, rest) => (c :: d :: spelled, d :: value, rest)
    else (stringBody? rest).map fun (spelled, value, rest) => (c :: spelled, c :: value, rest)

/-- The number that a digit begins. -/
def number (c : Char) (text : List Char) : Lexeme :=
  let whole := c :: text.takeWhile Char.isDigit
  match text.dropWhile Char.isDigit with
  | '.' :: rest =>
    literal .decimal (whole ++ '.' :: rest.takeWhile Char.isDigit) (rest.dropWhile Char.isDigit)
  | rest => literal .int whole rest

/-- The word that a letter begins. -/
def word (c : Char) (text : List Char) : Lexeme :=
  let word := c :: text.takeWhile isWordChar
  literal (Kind.ofWord word) word (text.dropWhile isWordChar)

/-- Reads the token that a character begins, which is not a blank. -/
def read (c : Char) (text : List Char) : Lexeme :=
  match symbol? (c :: text) with
  | some (symbol, kind) =>
    if kind = .dot ∧ text.head?.any Char.isDigit then
      literal .decimal ('.' :: text.takeWhile Char.isDigit) (text.dropWhile Char.isDigit)
    else .token kind symbol none (text.drop (symbol.length - 1))
  | none =>
    if c.isDigit then number c text
    else if c = '"' then
      match stringBody? text with
      | some (spelled, value, rest) => .token .string ('"' :: spelled) (some value) rest
      | none => .unterminated
    else if isLetter c then word c text
    else .unexpected c

theorem stringBody?_length_le {text spelled value rest : List Char}
    (h : stringBody? text = some (spelled, value, rest)) : rest.length ≤ text.length := by
  fun_induction stringBody? text generalizing spelled value rest with
  | case1 => simp at h
  | case2 => grind
  | case3 => simp at h
  | case4 c _ d text _ ih =>
    obtain ⟨⟨_, _, _⟩, hbody, heq⟩ := Option.map_eq_some_iff.mp h
    have := ih hbody
    grind
  | case5 c text _ _ ih =>
    obtain ⟨⟨_, _, _⟩, hbody, heq⟩ := Option.map_eq_some_iff.mp h
    have := ih hbody
    grind

/-- A token has at least the character that begins it. -/
theorem read_length_le {c : Char} {text lexeme rest : List Char} {kind : Kind}
    {value : Option (List Char)} (h : read c text = .token kind lexeme value rest) :
    rest.length ≤ text.length := by
  have drop (p : Char → Bool) (text : List Char) : (text.dropWhile p).length ≤ text.length :=
    (List.dropWhile_sublist p).length_le
  have digits := drop Char.isDigit text
  simp only [read, number, word, literal] at h
  split at h
  · split at h
    · grind
    · grind
  · split at h
    · split at h
      next tail htail =>
        have := drop Char.isDigit tail
        rw [htail] at digits
        grind
      next => grind
    · split at h
      · split at h
        next hbody => grind [stringBody?_length_le hbody]
        next => grind
      · split at h
        next => grind [drop isWordChar text]
        next => grind

end Lexeme

end ExprLang.Token
