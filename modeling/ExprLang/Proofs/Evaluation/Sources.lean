import ExprLang.Proofs.Evaluation.Errors
import ExprLang.Proofs.Lexical.Boundaries

/-!
# Strings and calls in a text

What an expression says stands in the text that spells it. A string has its quotes around it there,
so it is shorter than the text, and a call has a parenthesis.
-/

namespace ExprLang

open Text

/-! ## Lexemes -/

namespace Token.Lexeme

theorem IsBody.byteLength_le {spelled value : List Char} (h : IsBody spelled value) :
    byteLength value ≤ byteLength spelled := by
  induction h with
  | nil => exact Nat.le_refl _
  | plain _ _ _ ih => exact Nat.add_le_add_left ih _
  | escaped _ _ ih =>
      simp only [byteLength_cons]
      omega

namespace IsLexeme

variable {lexeme : List Char} {value : Option (List Char)}

/-- A word is no string and no symbol. -/
theorem ofWord_ne {kind : Kind} (hkind : kind ≠ .identifier)
    (hkeywords : ∀ entry ∈ Kind.keywords, entry.2 ≠ kind) (word : List Char) :
    Kind.ofWord word ≠ kind := by
  rcases ofWord_eq_identifier_or_mem word with hname | hmem
  · rw [hname]
    exact hkind.symm
  · exact hkeywords _ hmem

theorem of_string (h : IsLexeme .string lexeme value) :
    ∃ spelled meaning, lexeme = '"' :: (spelled ++ ['"']) ∧ value = some meaning ∧
      IsBody spelled meaning := by
  generalize hkind : Kind.string = kind at h
  cases h with
  | symbol hmem =>
      have hall : ∀ entry ∈ Kind.symbols, entry.2 ≠ .string := by decide
      exact absurd hkind.symm (hall _ hmem)
  | word _ _ => exact absurd hkind.symm (ofWord_ne (by decide) (by decide) _)
  | string hbody => exact ⟨_, _, rfl, rfl, hbody⟩
  | _ => cases hkind

theorem of_leftParen (h : IsLexeme .leftParen lexeme value) : lexeme = ['('] := by
  generalize hkind : Kind.leftParen = kind at h
  cases h with
  | symbol hmem =>
      have hall : ∀ entry ∈ Kind.symbols, entry.2 = .leftParen → entry.1 = ['('] := by decide
      exact hall _ hmem hkind.symm
  | word _ _ => exact absurd hkind.symm (ofWord_ne (by decide) (by decide) _)
  | _ => cases hkind

end IsLexeme

end Token.Lexeme

/-! ## Parsed texts -/

theorem LiteralKind.eq_of_ofToken?_eq_string {kind : Token.Kind}
    (h : ofToken? kind = some .string) : kind = .string := by
  cases kind <;> cases h
  rfl

variable {source : String} {expr : Expr}

/-- The tokens that an expression is drawn from are lexemes in its text. -/
theorem exists_tokens_of_parse (h : parse source = .ok expr) :
    ∃ tokens, expr.Everywhere (Expr.DrawnFrom tokens) ∧
      ∀ token ∈ tokens, token.word.IsLexeme ∧ token.lexeme.toList <:+: source.toList := by
  obtain ⟨-, -, tokens, eof, htokenize, -, hspelled⟩ := spelled_of_parse h
  refine ⟨tokens, hspelled.drawnFrom fun _ hmem => hmem, fun token hmem => ⟨?_, ?_⟩⟩
  · exact isLexeme_of_tokenize htokenize token (List.mem_append_left _ hmem)
      (hspelled.kind_ne_eof token hmem)
  · rw [tokenize_eq_outcome] at htokenize
    have hread : token ∈ (Cursor.ofText source.toList).tokens.1 := by
      rw [fst_eq_of_outcome htokenize]
      exact List.mem_append_left _ hmem
    obtain ⟨before, after, hsplit, -⟩ :=
      Cursor.marks_of_mem_tokens _ (Cursor.stands_ofText _) token hread
    exact ⟨before, after, hsplit.symm⟩

/-- A string in a text is shorter than the text, in which its quotes stand as well. -/
theorem of_contains_string (h : parse source = .ok expr) {text : String}
    (hstring : expr.Contains (.constant .string text)) :
    text.utf8ByteSize < source.utf8ByteSize ∧ '"' ∈ source.toList := by
  obtain ⟨tokens, hdrawn, htokens⟩ := exists_tokens_of_parse h
  obtain ⟨token, hmem, hkind, rfl⟩ := (hdrawn.of_contains hstring).node
  obtain ⟨hword, before, after, hsource⟩ := htokens token hmem
  have hlexeme : Token.Lexeme.IsLexeme token.kind token.lexeme.toList
    (token.value.map String.toList) := hword
  rw [LiteralKind.eq_of_ofToken?_eq_string hkind] at hlexeme
  obtain ⟨spelled, meaning, hspelled, hvalue, hbody⟩ := hlexeme.of_string
  obtain ⟨text, htext, rfl⟩ := Option.map_eq_some_iff.mp hvalue
  rw [Token.text, htext, Option.getD_some, utf8ByteSize_eq_byteLength, utf8ByteSize_eq_byteLength,
    ← hsource, hspelled]
  have hle := hbody.byteLength_le
  have hquote : 0 < '"'.utf8Size := Char.utf8Size_pos '"'
  refine ⟨?_, by simp⟩
  simp only [byteLength_append, byteLength_cons, byteLength_nil]
  omega

theorem of_contains_call (h : parse source = .ok expr) {name : String} {arguments : List Expr}
    (hcall : expr.Contains (.call name arguments)) : '(' ∈ source.toList := by
  obtain ⟨tokens, hdrawn, htokens⟩ := exists_tokens_of_parse h
  obtain ⟨-, token, hmem, hkind⟩ := (hdrawn.of_contains hcall).node
  obtain ⟨hword, hinfix⟩ := htokens token hmem
  have hlexeme : Token.Lexeme.IsLexeme token.kind token.lexeme.toList
    (token.value.map String.toList) := hword
  rw [hkind] at hlexeme
  exact hinfix.subset (hlexeme.of_leftParen ▸ List.mem_singleton_self _)

end ExprLang
