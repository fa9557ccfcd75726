import ExprLang.Text.Span

/-!
# Reading a text character by character

A cursor stands between two characters of a text. It knows the bytes before it and the characters
after it. Past the end it reads the character NUL for ever, so only `atEnd` tells the end from a
NUL of the text.
-/

namespace ExprLang.Text

/-- A place between two characters of a text. -/
structure Cursor where
  /-- The whole text. -/
  source : List Char
  /-- The number of bytes before the place. -/
  position : Nat
  /-- The characters after the place. -/
  rest : List Char
  deriving DecidableEq, Repr

/-- What is read past the end of a text. -/
def endMark : Char := '\x00'

/-- The characters from a byte on, if one of them begins there or the text ends there. -/
def dropBytes? : Nat → List Char → Option (List Char)
  | 0, text => some text
  | _ + 1, [] => none
  | n + 1, c :: text => if c.utf8Size ≤ n + 1 then dropBytes? (n + 1 - c.utf8Size) text else none

/-- The characters before a byte, if one of them ends there. -/
def takeBytes? : Nat → List Char → Option (List Char)
  | 0, _ => some []
  | _ + 1, [] => none
  | n + 1, c :: text =>
    if c.utf8Size ≤ n + 1 then (takeBytes? (n + 1 - c.utf8Size) text).map (c :: ·) else none

/-- The characters between two bytes. A range that is turned around, reaches past the end or cuts
a character is empty. -/
def slice (first last : Nat) (text : List Char) : List Char :=
  if first ≤ last then
    ((dropBytes? first text).bind (takeBytes? (last - first))).getD []
  else []

namespace Cursor

/-- The cursor before the first character of a text. -/
def ofText (text : List Char) : Cursor :=
  ⟨text, 0, text⟩

/-- Whether nothing is left to read. -/
def atEnd (cursor : Cursor) : Bool :=
  cursor.rest.isEmpty

/-- The next character, which is NUL past the end. -/
def current (cursor : Cursor) : Char :=
  cursor.rest.headD endMark

/-- Moves past the next character; the end stays where it is. -/
def advance (cursor : Cursor) : Cursor :=
  match cursor.rest with
  | [] => cursor
  | c :: rest => { cursor with position := cursor.position + c.utf8Size, rest }

/-- Moves past a piece of text that stands at the cursor. -/
def skip (piece rest : List Char) (cursor : Cursor) : Cursor :=
  { cursor with position := cursor.position + byteLength piece, rest }

end Cursor

end ExprLang.Text
