import ExprLang.Proofs.Lexical.Tokenization

/-!
# Words with blanks between them

Two lexemes written one after the other may be read as something else. With a blank between them
each of them is read as it is, because only strings have blanks inside and a string says itself
where it ends. So what a text is cut into does not depend on the blanks that are written there.
-/

namespace ExprLang

open Text

theorem Text.Ranges.exists_of_contains {ranges : Ranges} {code : Nat}
    (h : ranges.contains code = true) : ∃ range ∈ ranges, range.1 ≤ code ∧ code ≤ range.2 := by
  induction ranges with
  | nil => cases h
  | cons range ranges ih =>
      rw [Ranges.contains, Bool.and_eq_true, Bool.or_eq_true] at h
      obtain ⟨hfirst, hlast | hrest⟩ := h
      · exact ⟨range, List.mem_cons_self, of_decide_eq_true hfirst, of_decide_eq_true hlast⟩
      · obtain ⟨other, hmem, hother⟩ := ih hrest
        exact ⟨other, List.mem_cons_of_mem _ hmem, hother⟩

theorem Text.isLetter_eq_false_of_isBlank {c : Char} (h : isBlank c = true) :
    isLetter c = false ∧ c.isDigit = false := by
  have hall : ∀ range ∈ whiteSpace, ∀ step ∈ List.range (range.2 + 1 - range.1),
      alphabetic.contains (range.1 + step) = false ∧
        ¬ (48 ≤ range.1 + step ∧ range.1 + step ≤ 57) := by decide +kernel
  obtain ⟨range, hmem, hfirst, hlast⟩ := Ranges.exists_of_contains h
  have hcode := hall range hmem (c.toNat - range.1) (List.mem_range.mpr (by omega))
  rw [Nat.add_sub_cancel' hfirst] at hcode
  refine ⟨hcode.1, ?_⟩
  cases hdigit : c.isDigit with
  | false => rfl
  | true =>
      simp only [Char.isDigit, Bool.and_eq_true, decide_eq_true_eq, UInt32.le_iff_toNat_le]
        at hdigit
      exact absurd hdigit hcode.2

/-- No blank stands in a word. -/
theorem Token.isWordChar_eq_false_of_isBlank {c : Char} (h : isBlank c = true) :
    isWordChar c = false := by
  have hall : ∀ range ∈ whiteSpace, ∀ step ∈ List.range (range.2 + 1 - range.1),
      numeric.contains (range.1 + step) = false ∧ range.1 + step ≠ '_'.toNat := by decide +kernel
  obtain ⟨range, hmem, hfirst, hlast⟩ := Ranges.exists_of_contains h
  have hcode := hall range hmem (c.toNat - range.1) (List.mem_range.mpr (by omega))
  rw [Nat.add_sub_cancel' hfirst] at hcode
  have hline : (c == '_') = false := beq_eq_false_iff_ne.mpr fun heq => hcode.2 (by rw [heq])
  rw [isWordChar, (isLetter_eq_false_of_isBlank h).1, isNumeral, hcode.1, hline]
  rfl

namespace Token.Lexeme

variable {kind : Kind} {c : Char} {lexeme tail rest : List Char} {value : Option (List Char)}

/-- A lexeme begins with no blank. -/
theorem IsLexeme.isBlank_head (h : IsLexeme kind (c :: tail) value) : isBlank c = false := by
  cases hblank : isBlank c with
  | false => rfl
  | true =>
      obtain ⟨hletter, hdigit⟩ := isLetter_eq_false_of_isBlank hblank
      have hquote : c ≠ '"' := by
        rintro rfl
        exact absurd hblank (by decide)
      rcases h.of_symbol hdigit hletter hquote with ⟨hmem, -⟩ | ⟨rfl, -⟩
      · have hall : ∀ entry ∈ Kind.symbols, entry.1.head?.all (fun c => !isBlank c) := by decide
        exact absurd hblank (by simpa using hall _ hmem)
      · exact absurd hblank (by decide)

/-- Only strings have blanks inside. -/
theorem IsLexeme.exists_quote_of_isBlank (h : IsLexeme kind lexeme value) (hc : isBlank c = true)
    (hmem : c ∈ lexeme) : ∃ tail, lexeme = '"' :: tail := by
  obtain ⟨hletter, hdigit⟩ := isLetter_eq_false_of_isBlank hc
  cases h with
  | symbol hsymbol =>
      have hall : Kind.symbols.all (fun entry => entry.1.all (!isBlank ·)) = true := by decide
      have hblank := List.all_eq_true.mp (List.all_eq_true.mp hall _ hsymbol) c hmem
      exact absurd hc (by simpa using hblank)
  | int _ hdigits => exact absurd (hdigits c hmem) (by simp [hdigit])
  | decimal _ hwhole hfraction =>
      rcases List.mem_append.mp hmem with hmem | hmem
      · exact absurd (hwhole c hmem) (by simp [hdigit])
      · rcases List.mem_cons.mp hmem with rfl | hmem
        · exact absurd hc (by decide)
        · exact absurd (hfraction c hmem) (by simp [hdigit])
  | word hfirst htail =>
      rcases List.mem_cons.mp hmem with rfl | hmem
      · exact absurd hfirst (by simp [hletter])
      · exact absurd (htail c hmem) (by simp [isWordChar_eq_false_of_isBlank hc])
  | string _ => exact ⟨_, rfl⟩

/-- A lexeme with a blank after it is the longest one there. -/
theorem IsLexeme.isLongest (h : IsLexeme kind lexeme value)
    (hrest : ∀ c ∈ rest.head?, isBlank c = true) :
    IsLongest (lexeme ++ rest) kind lexeme value rest := by
  refine ⟨h, rfl, ?_⟩
  intro other piece meaning hpiece hpre
  by_contra hlonger
  obtain ⟨more, rfl⟩ :=
    List.prefix_of_prefix_length_le (List.prefix_append lexeme rest) hpre (by omega)
  have hmore : more <+: rest := (List.prefix_append_right_inj lexeme).mp hpre
  cases more with
  | nil => exact hlonger (by simp)
  | cons d more =>
      obtain ⟨after, rfl⟩ := hmore
      obtain ⟨tail, htail⟩ := hpiece.exists_quote_of_isBlank (hrest d rfl) (by simp)
      obtain ⟨c, inside, rfl⟩ := List.exists_cons_of_ne_nil h.ne_nil
      rw [List.cons_append] at htail
      obtain ⟨rfl, -⟩ := List.cons.inj htail
      -- Both pieces are strings, and the shorter one is closed before the blank.
      obtain ⟨first, _, rfl, -, -, hfirst⟩ := h.of_quote
      obtain ⟨second, _, hsecond, -, -, hbody⟩ := hpiece.of_quote
      have hleft := stringBody?_append hfirst (d :: more)
      have hright := stringBody?_append hbody []
      have hsame : first ++ '"' :: d :: more = second ++ ['"'] := by
        simpa using hsecond
      rw [hsame, hright] at hleft
      simp at hleft

end Token.Lexeme

/-- A token without its place. -/
structure Word where
  kind : Token.Kind
  lexeme : String
  value : Option String
  deriving DecidableEq, Repr

namespace Word

/-- The value of the word, or its spelling if it has none. -/
def text (word : Word) : String :=
  word.value.getD word.lexeme

/-- Whether the word is spelled as its kind and value demand. -/
def IsLexeme (word : Word) : Prop :=
  Token.Lexeme.IsLexeme word.kind word.lexeme.toList (word.value.map String.toList)

/-- Whether a text consists of words with blanks between any two of them and around them. -/
inductive Spaces : List Word → List Char → Prop
  | nil {blanks : List Char} (hblanks : ∀ c ∈ blanks, isBlank c = true) : Spaces [] blanks
  | cons {blanks rest : List Char} {word : Word} {words : List Word}
      (hblanks : ∀ c ∈ blanks, isBlank c = true) (hgap : ∀ c ∈ rest.head?, isBlank c = true)
      (hrest : Spaces words rest) : Spaces (word :: words) (blanks ++ (word.lexeme.toList ++ rest))

/-- The words with single spaces between them. -/
def spaced (words : List Word) : String :=
  " ".intercalate (words.map Word.lexeme)

theorem spaced_cons_cons (first second : Word) (rest : List Word) :
    (spaced (first :: second :: rest)).toList =
      first.lexeme.toList ++ ' ' :: (spaced (second :: rest)).toList := by
  simp [spaced, String.intercalate_cons_cons]

/-- Words with single spaces between them have blanks between them. -/
theorem spaces_spaced (words : List Word) {blanks : List Char}
    (hblanks : ∀ c ∈ blanks, isBlank c = true) :
    Spaces words (blanks ++ (spaced words).toList) := by
  induction words generalizing blanks with
  | nil => exact .nil (by simpa [spaced] using hblanks)
  | cons word words ih =>
      cases words with
      | nil =>
          rw [show (spaced [word]).toList = word.lexeme.toList ++ [] by simp [spaced]]
          exact .cons hblanks (by simp) (.nil (List.forall_mem_nil _))
      | cons next words =>
          have hspace : [' '].all isBlank = true := by decide
          rw [spaced_cons_cons]
          refine .cons hblanks ?_ (ih (List.all_eq_true.mp hspace))
          rintro c ⟨⟩
          decide

end Word

/-- What a token is apart from its place. -/
def Token.word (token : Token) : Word :=
  ⟨token.kind, token.lexeme, token.value⟩

/-- Words with blanks between them are cut into themselves. -/
theorem Tokenizes.of_spaces {words : List Word} {text : List Char} (h : Word.Spaces words text)
    (hwords : ∀ word ∈ words, word.IsLexeme) (offset : Nat) :
    ∃ tokens stop, Tokenizes offset text (.ok (tokens ++ [.eof stop])) ∧
      tokens.map Token.word = words := by
  induction h generalizing offset with
  | nil hblanks => exact ⟨[], _, .finished hblanks, rfl⟩
  | @cons blanks rest word words hblanks hgap _ ih =>
      obtain ⟨hword, hothers⟩ := List.forall_mem_cons.mp hwords
      obtain ⟨c, tail, hlexeme⟩ := List.exists_cons_of_ne_nil hword.ne_nil
      rw [Word.IsLexeme, hlexeme] at hword
      obtain ⟨tokens, stop, htokens, hsame⟩ :=
        ih hothers (offset + byteLength blanks + byteLength word.lexeme.toList)
      rw [hlexeme] at htokens
      have hwhole := Tokenizes.token hblanks hword.isBlank_head (hword.isLongest hgap) htokens
      have hspelling : String.ofList (c :: tail) = word.lexeme := by
        rw [← hlexeme, String.ofList_toList]
      have hvalue : (word.value.map String.toList).map String.ofList = word.value := by
        cases word.value <;> simp
      rw [hspelling, hvalue] at hwhole
      refine ⟨⟨word.kind, word.lexeme, word.value,
        ⟨offset + byteLength blanks, byteLength (c :: tail)⟩⟩ :: tokens, stop, ?_, ?_⟩
      · rw [hlexeme]
        exact hwhole
      · rw [List.map_cons, hsame]
        rfl

/-- Words with blanks between them are the tokens of the text that they form. -/
theorem tokenize_of_spaces {words : List Word} {text : String}
    (h : Word.Spaces words text.toList) (hwords : ∀ word ∈ words, word.IsLexeme) :
    ∃ tokens stop, tokenize text = .ok (tokens ++ [.eof stop]) ∧
      tokens.map Token.word = words := by
  obtain ⟨tokens, stop, htokens, hsame⟩ := Tokenizes.of_spaces h hwords 0
  refine ⟨tokens, stop, ?_, hsame⟩
  rw [tokenize_eq_outcome]
  exact outcome_eq_of_tokenizes htokens rfl rfl

/-- Words with single spaces between them are the tokens of the text that they form. -/
theorem tokenize_spaced {words : List Word} (hwords : ∀ word ∈ words, word.IsLexeme) :
    ∃ tokens stop, tokenize (Word.spaced words) = .ok (tokens ++ [.eof stop]) ∧
      tokens.map Token.word = words :=
  tokenize_of_spaces (Word.spaces_spaced words (List.forall_mem_nil _)) hwords

/-! ## Tokens of a text -/

theorem Tokenizes.exists_row {offset : Nat} {text : List Char}
    {result : Except LexicalError (List Token)} (h : Tokenizes offset text result) :
    ∀ tokens, result = .ok tokens →
      ∃ row stop, tokens = row ++ [.eof stop] ∧ ∀ token ∈ row, token.word.IsLexeme := by
  induction h with
  | finished _ =>
      rintro tokens ⟨⟩
      exact ⟨[], _, rfl, List.forall_mem_nil _⟩
  | @token offset blanks text lexeme rest c kind value result _ _ hlongest _ ih =>
      intro tokens hresult
      cases result with
      | error error => cases hresult
      | ok others =>
          cases hresult
          obtain ⟨row, stop, rfl, hrow⟩ := ih others rfl
          refine ⟨_ :: row, stop, rfl, List.forall_mem_cons.mpr ⟨?_, hrow⟩⟩
          have hvalue : (value.map String.ofList).map String.toList = value := by
            cases value <;> simp
          rw [Word.IsLexeme, Token.word, String.toList_ofList, hvalue]
          exact hlongest.isLexeme
  | unterminated _ _ =>
      intro tokens hresult
      cases hresult
  | unexpected _ _ _ _ =>
      intro tokens hresult
      cases hresult

variable {source : String} {tokens : List Token}

/-- The tokens of a text are lexemes and an end token after them. -/
theorem exists_row_of_tokenize (h : tokenize source = .ok tokens) :
    ∃ row stop, tokens = row ++ [.eof stop] ∧ ∀ token ∈ row, token.word.IsLexeme := by
  rw [tokenize_eq_outcome] at h
  exact (tokenizes_tokens _).exists_row tokens h

/-- The tokens of a text but the end token are lexemes. -/
theorem isLexeme_of_tokenize (h : tokenize source = .ok tokens) :
    ∀ token ∈ tokens, token.kind ≠ .eof → token.word.IsLexeme := by
  obtain ⟨row, stop, rfl, hrow⟩ := exists_row_of_tokenize h
  intro token hmem hkind
  rcases List.mem_append.mp hmem with hmem | hmem
  · exact hrow token hmem
  · obtain rfl := List.mem_singleton.mp hmem
    exact absurd rfl hkind

end ExprLang
