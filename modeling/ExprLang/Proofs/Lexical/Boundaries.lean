import Mathlib.Logic.Function.Iterate
import ExprLang.Proofs.Lexical.Location

/-!
# Where a cursor stands

A cursor keeps what is left of its text. A reader that knows only the text and a byte in it finds
the same there, because the byte is always one at which a character begins or the text ends. Pieces
of a text between two such bytes are cut out as their bytes are, and all others are empty.
-/

namespace ExprLang.Text

theorem utf8ByteSize_eq_byteLength (text : String) :
    text.utf8ByteSize = byteLength text.toList := by
  have hlist (list : List Char) : (String.ofList list).utf8ByteSize = byteLength list := by
    induction list with
    | nil => rfl
    | cons c list ih =>
        rw [String.ofList_cons, String.utf8ByteSize_append, ih]
        simp
  rw [← hlist, String.ofList_toList]

theorem rawEndPos_ofList (list : List Char) :
    (String.ofList list).rawEndPos = ⟨byteLength list⟩ := by
  rw [String.rawEndPos, utf8ByteSize_eq_byteLength, String.toList_ofList]

/-- A place in a text at which a character begins or the text ends. -/
def IsBoundary (text : String) (byte : Nat) : Prop :=
  String.Pos.Raw.IsValid text ⟨byte⟩

instance (text : String) (byte : Nat) : Decidable (IsBoundary text byte) :=
  inferInstanceAs (Decidable (String.Pos.Raw.IsValid text ⟨byte⟩))

section Boundaries

variable {text : String} {before after piece : List Char} {byte first last : Nat}

/-- A boundary is the number of bytes before some place between characters. -/
theorem isBoundary_iff : IsBoundary text byte ↔
    ∃ before after, text.toList = before ++ after ∧ byteLength before = byte := by
  rw [IsBoundary, String.Pos.Raw.isValid_iff_exists_append]
  constructor
  · rintro ⟨front, back, rfl, hbyte⟩
    refine ⟨front.toList, back.toList, String.toList_append, ?_⟩
    rw [← utf8ByteSize_eq_byteLength]
    exact (congrArg String.Pos.Raw.byteIdx hbyte).symm
  · rintro ⟨before, after, htext, rfl⟩
    refine ⟨.ofList before, .ofList after, ?_, (rawEndPos_ofList before).symm⟩
    rw [← String.ofList_append, ← htext, String.ofList_toList]

theorem IsBoundary.le (h : IsBoundary text byte) : byte ≤ byteLength text.toList := by
  obtain ⟨before, after, htext, rfl⟩ := isBoundary_iff.mp h
  rw [htext, byteLength_append]
  exact Nat.le_add_right _ _

/-- Of two beginnings of a text, the one with no more bytes is a beginning of the other. -/
theorem exists_append_of_byteLength_le {others rest : List Char}
    (h : before ++ after = others ++ rest) (hle : byteLength before ≤ byteLength others) :
    ∃ piece, others = before ++ piece ∧ after = piece ++ rest := by
  rcases List.append_eq_append_iff.mp h with ⟨piece, hothers, hafter⟩ | ⟨piece, hbefore, hrest⟩
  · exact ⟨piece, hothers, hafter⟩
  · have hlength := length_le_byteLength piece
    rw [hbefore, byteLength_append] at hle
    obtain rfl : piece = [] := List.length_eq_zero_iff.mp (by omega)
    exact ⟨[], by simpa using hbefore.symm, by simpa using hrest.symm⟩

/-! ## Pieces of a text -/

theorem dropBytes?_byteLength (before after : List Char) :
    dropBytes? (byteLength before) (before ++ after) = some after := by
  induction before with
  | nil => cases after <;> rfl
  | cons c before ih =>
      obtain ⟨size, hsize⟩ := Nat.exists_eq_add_one.mpr c.utf8Size_pos
      rw [byteLength_cons, List.cons_append, hsize, Nat.add_right_comm, dropBytes?, hsize]
      rw [if_pos (by omega), Nat.add_right_comm, Nat.add_sub_cancel_left]
      exact ih

theorem exists_of_dropBytes? {list rest : List Char} (h : dropBytes? byte list = some rest) :
    ∃ before, list = before ++ rest ∧ byteLength before = byte := by
  fun_induction dropBytes? byte list with
  | case1 list =>
      cases h
      exact ⟨[], rfl, rfl⟩
  | case2 => cases h
  | case3 count c list hle ih =>
      obtain ⟨before, rfl, hbefore⟩ := ih h
      exact ⟨c :: before, rfl, by rw [byteLength_cons, hbefore]; omega⟩
  | case4 => cases h

theorem takeBytes?_byteLength (piece rest : List Char) :
    takeBytes? (byteLength piece) (piece ++ rest) = some piece := by
  induction piece with
  | nil => cases rest <;> rfl
  | cons c piece ih =>
      obtain ⟨size, hsize⟩ := Nat.exists_eq_add_one.mpr c.utf8Size_pos
      rw [byteLength_cons, List.cons_append, hsize, Nat.add_right_comm, takeBytes?, hsize]
      rw [if_pos (by omega), Nat.add_right_comm, Nat.add_sub_cancel_left, ih]
      rfl

theorem exists_of_takeBytes? {list piece : List Char} (h : takeBytes? byte list = some piece) :
    ∃ rest, list = piece ++ rest ∧ byteLength piece = byte := by
  fun_induction takeBytes? byte list generalizing piece with
  | case1 list =>
      cases h
      exact ⟨list, rfl, rfl⟩
  | case2 => cases h
  | case3 count c list hle ih =>
      obtain ⟨tail, htail, rfl⟩ := Option.map_eq_some_iff.mp h
      obtain ⟨rest, rfl, hlength⟩ := ih htail
      exact ⟨rest, rfl, by rw [byteLength_cons, hlength]; omega⟩
  | case4 => cases h

/-- A piece that stands in a text is cut out of it. -/
theorem slice_append (before piece after : List Char) :
    slice (byteLength before) (byteLength before + byteLength piece) (before ++ (piece ++ after)) =
      piece := by
  rw [slice, if_pos (Nat.le_add_right _ _), Nat.add_sub_cancel_left, dropBytes?_byteLength,
    Option.bind_some, takeBytes?_byteLength, Option.getD_some]

/-- Only between boundaries there is something to cut out. -/
theorem slice_eq_nil (h : ¬ (first ≤ last ∧ IsBoundary text first ∧ IsBoundary text last)) :
    slice first last text.toList = [] := by
  rw [slice]
  split
  next hle =>
    cases hdrop : dropBytes? first text.toList with
    | none => rfl
    | some rest =>
        obtain ⟨before, htext, hbefore⟩ := exists_of_dropBytes? hdrop
        rw [Option.bind_some]
        cases htake : takeBytes? (last - first) rest with
        | none => rfl
        | some piece =>
            obtain ⟨after, rfl, hpiece⟩ := exists_of_takeBytes? htake
            refine absurd ⟨hle, isBoundary_iff.mpr ⟨before, _, htext, hbefore⟩, ?_⟩ h
            refine isBoundary_iff.mpr ⟨before ++ piece, after, by rw [htext, List.append_assoc], ?_⟩
            rw [byteLength_append, hbefore, hpiece]
            omega
  next => rfl

theorem size_utf8Encode (list : List Char) : list.utf8Encode.size = byteLength list := by
  rw [← String.toByteArray_ofList, String.size_toByteArray, utf8ByteSize_eq_byteLength,
    String.toList_ofList]

/-- What is cut out between two boundaries has the bytes between them. -/
theorem utf8Encode_slice (hle : first ≤ last) (hfirst : IsBoundary text first)
    (hlast : IsBoundary text last) :
    (slice first last text.toList).utf8Encode = text.toByteArray.extract first last := by
  obtain ⟨before, rest, htext, rfl⟩ := isBoundary_iff.mp hfirst
  obtain ⟨others, after, hsame, rfl⟩ := isBoundary_iff.mp hlast
  obtain ⟨piece, rfl, rfl⟩ := exists_append_of_byteLength_le (htext.symm.trans hsame) hle
  rw [← String.utf8Encode_toList, htext, byteLength_append, slice_append, List.utf8Encode_append,
    List.utf8Encode_append]
  have hskip : (before.utf8Encode ++ (piece.utf8Encode ++ after.utf8Encode)).extract
      (byteLength before + 0) (byteLength before + byteLength piece) =
        (piece.utf8Encode ++ after.utf8Encode).extract 0 (byteLength piece) :=
    ByteArray.extract_append_size_add' (size_utf8Encode before).symm
  rw [Nat.add_zero] at hskip
  rw [hskip, ByteArray.extract_append_eq_left (size_utf8Encode piece).symm]

end Boundaries

/-! ## Reading by the byte -/

/-- A reader at a byte of a text. It keeps nothing but the byte. -/
structure Reader where
  text : String
  byte : Nat

namespace Reader

/-- What is left of the text. There is no answer where no character begins. -/
def rest? (reader : Reader) : Option (List Char) :=
  if h : IsBoundary reader.text reader.byte then
    some (reader.text.sliceFrom ⟨⟨reader.byte⟩, h⟩).copy.toList
  else none

/-- The next character, which is NUL past the end. -/
def current? (reader : Reader) : Option Char :=
  reader.rest?.map fun rest => rest.head?.getD '\x00'

/-- The reader behind the next character; at the end it stays. -/
def advance? (reader : Reader) : Option Reader :=
  reader.rest?.map fun rest =>
    { reader with byte := reader.byte + byteLength rest.head?.toList }

/-- Whether the text has no such byte. -/
def atEnd (reader : Reader) : Bool :=
  reader.text.utf8ByteSize ≤ reader.byte

/-- The reader after some advances, if each of them finds what is left of the text. -/
def advanceAll? (reader : Reader) : Nat → Option Reader
  | 0 => some reader
  | count + 1 => (reader.advanceAll? count).bind advance?

theorem rest?_byteLength {text : String} {before after : List Char}
    (h : text.toList = before ++ after) :
    (Reader.mk text (byteLength before)).rest? = some after := by
  have hboundary : IsBoundary text (byteLength before) := isBoundary_iff.mpr ⟨before, after, h, rfl⟩
  let place : text.Pos := ⟨⟨byteLength before⟩, hboundary⟩
  have hsplits : place.Splits (.ofList before) (.ofList after) := by
    refine ⟨?_, (rawEndPos_ofList before).symm⟩
    rw [← String.ofList_append, ← h, String.ofList_toList]
  rw [rest?, dif_pos hboundary, place.splits.eq_right hsplits, String.toList_ofList]

/-- Each advance finds a character or the end, and leads to such a place again. -/
theorem advanceAll?_eq (text : String) (count : Nat) :
    (Reader.mk text 0).advanceAll? count = some ⟨text, byteLength (text.toList.take count)⟩ := by
  induction count with
  | zero => rfl
  | succ count ih =>
      rw [advanceAll?, ih, Option.bind_some, advance?,
        rest?_byteLength (List.take_append_drop count text.toList).symm, Option.map_some,
        List.head?_drop, ← byteLength_append, ← List.take_add_one]

end Reader

/-! ## Cursors -/

namespace Cursor

theorem advance_eq (cursor : Cursor) : cursor.advance =
    { cursor with
      position := cursor.position + byteLength cursor.rest.head?.toList
      rest := cursor.rest.tail } := by
  obtain ⟨source, position, rest⟩ := cursor
  cases rest <;> rfl

/-- A cursor has as many characters behind it as it was advanced, up to the end of the text. -/
theorem iterate_advance_ofText (text : List Char) (count : Nat) :
    advance^[count] (ofText text) = ⟨text, byteLength (text.take count), text.drop count⟩ := by
  induction count with
  | zero => rfl
  | succ count ih =>
      rw [Function.iterate_succ_apply', ih, advance_eq, List.take_add_one, byteLength_append,
        List.head?_drop, List.tail_drop]

/-- Where a cursor stands after some advances over a text, and what it reads there. -/
structure StandsAfter (text : String) (count : Nat) (cursor : Cursor) : Prop where
  source_eq : cursor.source = text.toList
  position_eq : cursor.position = byteLength (text.toList.take (min count text.length))
  position_le : cursor.position ≤ text.utf8ByteSize
  isBoundary : IsBoundary text cursor.position
  /-- A reader that keeps only the byte comes as far, since it always finds what is left. -/
  reader : (Reader.mk text 0).advanceAll? count = some ⟨text, cursor.position⟩
  reader_rest : (Reader.mk text cursor.position).rest? = some cursor.rest
  reader_current : (Reader.mk text cursor.position).current? = some cursor.current
  reader_atEnd : (Reader.mk text cursor.position).atEnd = cursor.atEnd
  slice_append_rest : slice 0 cursor.position text.toList ++ cursor.rest = text.toList
  current_of_cons : ∀ c rest, cursor.rest = c :: rest → cursor.current = c
  current_of_nil : cursor.rest = [] → cursor.current = '\x00'
  atEnd_iff : cursor.atEnd = true ↔ cursor.rest = []

/-- No number of advances brings a cursor to a byte at which there is nothing to read from. -/
theorem standsAfter_iterate_advance (text : String) (count : Nat) :
    (advance^[count] (ofText text.toList)).StandsAfter text count := by
  have hsplit : text.toList.take count ++ text.toList.drop count = text.toList :=
    List.take_append_drop count text.toList
  have hboundary : IsBoundary text (byteLength (text.toList.take count)) :=
    isBoundary_iff.mpr ⟨_, _, hsplit.symm, rfl⟩
  have hrest := Reader.rest?_byteLength hsplit.symm
  rw [iterate_advance_ofText]
  refine ⟨rfl, ?_, ?_, hboundary, Reader.advanceAll?_eq text count, hrest, ?_, ?_, ?_, ?_, ?_, ?_⟩
  · rw [← String.length_toList, ← List.take_eq_take_min]
  · rw [utf8ByteSize_eq_byteLength]
    exact hboundary.le
  · rw [Reader.current?, hrest, Option.map_some, current, List.headD_eq_head?_getD]
    rfl
  · have hall : text.utf8ByteSize =
        byteLength (text.toList.take count) + byteLength (text.toList.drop count) := by
      rw [utf8ByteSize_eq_byteLength, ← byteLength_append, hsplit]
    rw [Reader.atEnd, atEnd, hall]
    dsimp only
    cases text.toList.drop count with
    | nil => exact decide_eq_true (Nat.le_refl _)
    | cons c rest =>
        have hpos : 0 < byteLength (c :: rest) := Nat.add_pos_left c.utf8Size_pos _
        exact decide_eq_false (by omega)
  · have hslice := slice_append [] (text.toList.take count) (text.toList.drop count)
    rw [byteLength_nil, Nat.zero_add, List.nil_append, hsplit] at hslice
    rw [hslice, hsplit]
  · intro c rest hcons
    rw [current, hcons]
    rfl
  · intro hnil
    rw [current, hnil]
    rfl
  · exact List.isEmpty_iff

/-- A cursor stands at a boundary of its text after any number of advances, and pieces of the text
are cut out by their bytes where both ends are boundaries, and are empty elsewhere. -/
theorem standsAfter_and_slice (text : String) :
    (∀ count, (advance^[count] (ofText text.toList)).StandsAfter text count) ∧
      ∀ first last, (slice first last text.toList).utf8Encode =
        if first ≤ last ∧ last ≤ text.utf8ByteSize ∧ IsBoundary text first ∧ IsBoundary text last
        then text.toByteArray.extract first last else .empty := by
  refine ⟨standsAfter_iterate_advance text, fun first last => ?_⟩
  split
  next h =>
    obtain ⟨hle, -, hfirst, hlast⟩ := h
    exact utf8Encode_slice hle hfirst hlast
  next h =>
    rw [slice_eq_nil fun ⟨hle, hfirst, hlast⟩ => h ⟨hle, ?_, hfirst, hlast⟩]
    · rfl
    · rw [utf8ByteSize_eq_byteLength]
      exact hlast.le

/-- A NUL of the text is no end. -/
example : (ofText ['\x00', 'ß']).current = '\x00' ∧ (ofText ['\x00', 'ß']).atEnd = false ∧
    slice 1 3 ['\x00', 'ß'] = ['ß'] ∧ slice 1 2 ['\x00', 'ß'] = [] := by decide

end Cursor

end ExprLang.Text
