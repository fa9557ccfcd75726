import ExprLang.Evaluation.Run
import ExprLang.Proofs.Grammar.Parsed
import ExprLang.Proofs.Lexical.Separated
import ExprLang.Proofs.Printing.Words

/-!
# Texts that are one literal

A lexeme with nothing around it is the only token of its text, and a text of one literal is parsed
to a constant. So every spelling of a string between quotes is evaluated to the string, and every
string has a spelling.
-/

namespace ExprLang

open Text Grammar
open Token.Lexeme (IsBody IsLexeme IsLongest)

/-! ## One token after another -/

/-- A text that begins with its longest lexeme is cut off behind it. -/
theorem Tokenizes.lexeme {offset : Nat} {kind : Token.Kind} {lexeme rest : List Char}
    {value : Option (List Char)} {tokens : List Token}
    (hlongest : IsLongest (lexeme ++ rest) kind lexeme value rest)
    (hrest : Tokenizes (offset + byteLength lexeme) rest (.ok tokens)) :
    Tokenizes offset (lexeme ++ rest)
      (.ok (⟨kind, .ofList lexeme, value.map .ofList, ⟨offset, byteLength lexeme⟩⟩ :: tokens)) := by
  obtain ⟨c, tail, rfl⟩ := List.exists_cons_of_ne_nil hlongest.isLexeme.ne_nil
  exact .token (List.forall_mem_nil _) hlongest.isLexeme.isBlank_head hlongest hrest

/-- A lexeme at the end of a text is the last token before the end. -/
theorem Tokenizes.last {kind : Token.Kind} {lexeme : List Char} {value : Option (List Char)}
    (h : IsLexeme kind lexeme value) (offset : Nat) :
    Tokenizes offset lexeme
      (.ok [⟨kind, .ofList lexeme, value.map .ofList, ⟨offset, byteLength lexeme⟩⟩,
        .eof (offset + byteLength lexeme)]) := by
  have hlongest : IsLongest (lexeme ++ []) kind lexeme value [] := h.isLongest (by simp)
  have hend : Tokenizes (offset + byteLength lexeme) [] (.ok [.eof (offset + byteLength lexeme)]) :=
    .finished (List.forall_mem_nil _)
  simpa using Tokenizes.lexeme hlongest hend

/-- A lexeme is the only token of its text. -/
theorem tokenize_of_isLexeme {kind : Token.Kind} {lexeme : List Char} {value : Option (List Char)}
    (h : IsLexeme kind lexeme value) :
    tokenize (.ofList lexeme) =
      .ok [⟨kind, .ofList lexeme, value.map .ofList, ⟨0, byteLength lexeme⟩⟩,
        .eof (byteLength lexeme)] := by
  have htokens := Tokenizes.last h 0
  rw [Nat.zero_add] at htokens
  rw [tokenize_eq_outcome]
  exact outcome_eq_of_tokenizes htokens rfl String.toList_ofList

/-! ## One literal -/

variable {source : String} {expr : Expr} {token : Token} {kind : LiteralKind} {stop : Nat}

/-- A text of one literal is a constant. -/
theorem parse_of_literal (h : tokenize source = .ok [token, .eof stop])
    (hkind : LiteralKind.ofToken? token.kind = some kind) :
    parse source = .ok (.constant kind token.text) := by
  have hstream := TokenStream.ofText_of_tokenize h (ne_eof_of_eq_some rfl hkind)
  rw [parse_eq_run hstream]
  obtain ⟨word, lexeme, value, span⟩ := token
  cases word <;> cases hkind <;> rfl

theorem run_of_parse (h : parse source = .ok expr) (mode : LogicMode) (machine : Machine) :
    (run mode source).run machine =
      match (expr.evaluate mode).run machine with
      | .ok value next => .ok value next
      | .error error next => .error (.runtime error) next := by
  rw [EStateM.run, run]
  split
  next error herror => cases h.symm.trans herror
  next parsed hparsed =>
    cases h.symm.trans hparsed
    rfl

/-- A text of one literal is evaluated to the value of the literal. -/
theorem run_of_literal (h : tokenize source = .ok [token, .eof stop])
    (hkind : LiteralKind.ofToken? token.kind = some kind) (mode : LogicMode) (machine : Machine) :
    (run mode source).run machine =
      match kind.value token.text with
      | .ok value => .ok value machine
      | .error error => .error (.runtime error) machine := by
  rw [run_of_parse (parse_of_literal h hkind), Expr.evaluate]
  cases kind.value token.text <;> rfl

/-! ## Strings -/

/-- A spelling between quotes. -/
def inQuotes (spelled : List Char) : List Char :=
  '"' :: (spelled ++ ['"'])

/-- Every string has a spelling, and every spelling between quotes is one token with the string as
its value and is evaluated to it. -/
theorem tokenize_and_run_of_isBody :
    (∀ text : String, ∃ spelled, IsBody spelled text.toList) ∧
      ∀ (text : String) (spelled : List Char), IsBody spelled text.toList →
        tokenize (.ofList (inQuotes spelled)) =
            .ok [⟨.string, .ofList (inQuotes spelled), some text,
                ⟨0, byteLength (inQuotes spelled)⟩⟩,
              .eof (byteLength (inQuotes spelled))] ∧
          ∀ mode machine,
            (run mode (.ofList (inQuotes spelled))).run machine = .ok (.string text) machine := by
  refine ⟨fun text => ⟨_, Word.isBody_escaped text.toList⟩, fun text spelled hbody => ?_⟩
  have htokens := tokenize_of_isLexeme (.string hbody)
  rw [Option.map_some, String.ofList_toList] at htokens
  exact ⟨htokens, run_of_literal htokens rfl⟩

theorem tokenize_and_run_of_isBody_escaped :
    let text := "\x00\"é/\\"
    let spelled := ['\x00', '/', '"', 'é', '/', '/', '/', '\\']
    (∃ spelled, IsBody spelled text.toList) ∧ IsBody spelled text.toList ∧
      tokenize (.ofList (inQuotes spelled)) =
        .ok [⟨.string, .ofList (inQuotes spelled), some text, ⟨0, 11⟩⟩, .eof 11] ∧
      ∀ mode machine,
        (run mode (.ofList (inQuotes spelled))).run machine = .ok (.string text) machine := by
  intro text spelled
  have hnul : '\x00' ≠ '"' ∧ ¬ ('\x00' = '\\' ∨ '\x00' = '/') := by simp
  have haccent : 'é' ≠ '"' ∧ ¬ ('é' = '\\' ∨ 'é' = '/') := by simp
  have htext : text.toList = ['\x00', '"', 'é', '/', '\\'] := by decide
  have hbody : IsBody spelled text.toList := by
    rw [htext]
    exact .plain hnul.1 hnul.2 (.escaped (.inr rfl) (.plain haccent.1 haccent.2
      (.escaped (.inr rfl) (.escaped (.inr rfl) .nil))))
  obtain ⟨htokens, hrun⟩ := tokenize_and_run_of_isBody.2 text spelled hbody
  exact ⟨tokenize_and_run_of_isBody.1 text, hbody, htokens, hrun⟩

end ExprLang
