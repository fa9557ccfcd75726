/-!
# Kinds of tokens

A token is the end of the text, a name, a literal, a keyword or a symbol. Every kind has a name for
listings and messages and one for data; keywords and symbols have a fixed spelling.
-/

namespace ExprLang.Token

/-- What sort of token a piece of text is. -/
inductive Kind where
  | eof
  | identifier | int | decimal | string
  | «true» | «false» | «let» | const | var | «if» | «for»
  | plus | minus | star | slash | percent | caret | bang | dot | comma
  | leftParen | rightParen | leftBracket | rightBracket
  | equal | colon | question | greater | less
  | andAnd | orOr | equalEqual | bangEqual | greaterEqual | lessEqual | plusPlus | minusMinus
  | plusEqual | minusEqual | starEqual | slashEqual | percentEqual | caretEqual
  deriving DecidableEq, Repr, Inhabited

namespace Kind

/-- The name of a kind in listings and messages. -/
def name : Kind → String
  | eof => "EOF"
  | identifier => "IDENTIFIER"
  | int => "INT"
  | decimal => "DECIMAL"
  | string => "STRING"
  | «true» => "TRUE"
  | «false» => "FALSE"
  | «let» => "LET"
  | const => "CONST"
  | var => "VAR"
  | «if» => "IF"
  | «for» => "FOR"
  | plus => "PLUS"
  | minus => "MINUS"
  | star => "STAR"
  | slash => "SLASH"
  | percent => "PERCENT"
  | caret => "CARET"
  | bang => "BANG"
  | dot => "DOT"
  | comma => "COMMA"
  | leftParen => "LEFT_PAREN"
  | rightParen => "RIGHT_PAREN"
  | leftBracket => "LEFT_BRACKET"
  | rightBracket => "RIGHT_BRACKET"
  | equal => "EQUAL"
  | colon => "COLON"
  | question => "QUESTION"
  | greater => "GREATER"
  | less => "LESS"
  | andAnd => "AND_AND"
  | orOr => "OR_OR"
  | equalEqual => "EQUAL_EQUAL"
  | bangEqual => "BANG_EQUAL"
  | greaterEqual => "GREATER_EQUAL"
  | lessEqual => "LESS_EQUAL"
  | plusPlus => "PLUS_PLUS"
  | minusMinus => "MINUS_MINUS"
  | plusEqual => "PLUS_EQUAL"
  | minusEqual => "MINUS_EQUAL"
  | starEqual => "STAR_EQUAL"
  | slashEqual => "SLASH_EQUAL"
  | percentEqual => "PERCENT_EQUAL"
  | caretEqual => "CARET_EQUAL"

/-- The name of a kind in data. -/
def tag : Kind → String
  | eof => "Eof"
  | identifier => "Identifier"
  | int => "Int"
  | decimal => "Decimal"
  | string => "String"
  | «true» => "True"
  | «false» => "False"
  | «let» => "Let"
  | const => "Const"
  | var => "Var"
  | «if» => "If"
  | «for» => "For"
  | plus => "Plus"
  | minus => "Minus"
  | star => "Star"
  | slash => "Slash"
  | percent => "Percent"
  | caret => "Caret"
  | bang => "Bang"
  | dot => "Dot"
  | comma => "Comma"
  | leftParen => "LeftParen"
  | rightParen => "RightParen"
  | leftBracket => "LeftBracket"
  | rightBracket => "RightBracket"
  | equal => "Equal"
  | colon => "Colon"
  | question => "Question"
  | greater => "Greater"
  | less => "Less"
  | andAnd => "AndAnd"
  | orOr => "OrOr"
  | equalEqual => "EqualEqual"
  | bangEqual => "BangEqual"
  | greaterEqual => "GreaterEqual"
  | lessEqual => "LessEqual"
  | plusPlus => "PlusPlus"
  | minusMinus => "MinusMinus"
  | plusEqual => "PlusEqual"
  | minusEqual => "MinusEqual"
  | starEqual => "StarEqual"
  | slashEqual => "SlashEqual"
  | percentEqual => "PercentEqual"
  | caretEqual => "CaretEqual"

/-- Every kind once. -/
def all : List Kind :=
  [eof, identifier, int, decimal, string, «true», «false», «let», const, var, «if», «for», plus,
    minus, star, slash, percent, caret, bang, dot, comma, leftParen, rightParen, leftBracket,
    rightBracket, equal, colon, question, greater, less, andAnd, orOr, equalEqual, bangEqual,
    greaterEqual, lessEqual, plusPlus, minusMinus, plusEqual, minusEqual, starEqual, slashEqual,
    percentEqual, caretEqual]

/-- The kind that has a name in data. -/
def ofTag? (tag : String) : Option Kind :=
  all.find? (·.tag == tag)

/-- The words that are not names. -/
def keywords : List (List Char × Kind) :=
  [(['i', 'f'], «if»), (['f', 'o', 'r'], «for»), (['t', 'r', 'u', 'e'], «true»),
    (['f', 'a', 'l', 's', 'e'], «false»), (['v', 'a', 'r'], var), (['l', 'e', 't'], «let»),
    (['c', 'o', 'n', 's', 't'], const)]

/-- The kind of a word. -/
def ofWord (word : List Char) : Kind :=
  (keywords.lookup word).getD identifier

/-- The symbols, those of two characters first, so that the first one that begins a text is the
longest one that does. -/
def symbols : List (List Char × Kind) :=
  [(['&', '&'], andAnd), (['|', '|'], orOr), (['+', '+'], plusPlus), (['-', '-'], minusMinus),
    (['=', '='], equalEqual), (['!', '='], bangEqual), (['>', '='], greaterEqual),
    (['<', '='], lessEqual), (['+', '='], plusEqual), (['-', '='], minusEqual),
    (['*', '='], starEqual), (['/', '='], slashEqual), (['%', '='], percentEqual),
    (['^', '='], caretEqual), (['>'], greater), (['<'], less), (['+'], plus), (['-'], minus),
    (['*'], star), (['/'], slash), (['%'], percent), (['!'], bang), (['.'], dot), ([','], comma),
    (['('], leftParen), ([')'], rightParen), (['['], leftBracket), ([']'], rightBracket),
    (['^'], caret), (['='], equal), ([':'], colon), (['?'], question)]

end Kind

end ExprLang.Token
