/-!
# Places in a text

Places in a text are counted in bytes of its UTF-8 form. A span is the place of a piece of text:
where it begins and how many bytes it has.

Every error of the language is a cause. A diagnostic is how a cause is told to a reader: a message,
a code by which tools know the kind of error, advice, and the places of the source to look at.
-/

namespace ExprLang

namespace Text

/-- The number of bytes of a text in UTF-8. -/
def byteLength : List Char → Nat
  | [] => 0
  | c :: text => c.utf8Size + byteLength text

@[simp]
theorem byteLength_nil : byteLength [] = 0 := rfl

@[simp]
theorem byteLength_cons (c : Char) (text : List Char) :
    byteLength (c :: text) = c.utf8Size + byteLength text := rfl

@[simp]
theorem byteLength_append (first second : List Char) :
    byteLength (first ++ second) = byteLength first + byteLength second := by
  induction first with
  | nil => simp
  | cons c first ih => simp [ih, Nat.add_assoc]

theorem length_le_byteLength (text : List Char) : text.length ≤ byteLength text := by
  induction text with
  | nil => exact Nat.le_refl 0
  | cons c text ih =>
    have := c.utf8Size_pos
    simp only [List.length_cons, byteLength_cons]
    omega

/-- The place of a piece of text. -/
structure Span where
  /-- The byte at which the piece begins. -/
  offset : Nat
  /-- The number of its bytes. -/
  length : Nat
  deriving DecidableEq, Repr, Inhabited

namespace Span

/-- The first byte after the piece. -/
def stop (span : Span) : Nat :=
  span.offset + span.length

end Span

end Text

/-- A place of the source with a remark on it. -/
structure Label where
  remark : Option String
  span : Text.Span
  deriving DecidableEq, Repr, Inhabited

/-- What is told about an error. -/
structure Diagnostic where
  message : String
  code : Option String := none
  help : Option String := none
  labels : List Label := []
  deriving DecidableEq, Repr, Inhabited

end ExprLang
