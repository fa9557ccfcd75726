import ExprLang.Proofs.Lexical.Grammar

/-!
# Reading the longest lexeme

`Lexeme.read` answers the longest lexeme that a text begins with, and fails only where there is
none. A text that begins with a quote and has no lexeme is a string that is never closed.
-/

namespace ExprLang.Token.Lexeme

open Text

/-! ## Strings -/

theorem stringBody?_plain {c : Char} (hquote : c ≠ '"') (hescape : ¬ (c = '\\' ∨ c = '/'))
    (text : List Char) :
    stringBody? (c :: text) =
      (stringBody? text).map fun (spelled, value, rest) => (c :: spelled, c :: value, rest) := by
  cases text <;> simp [stringBody?, hescape]

theorem stringBody?_escaped {escape : Char} (hescape : escape = '\\' ∨ escape = '/') (c : Char)
    (text : List Char) :
    stringBody? (escape :: c :: text) =
      (stringBody? text).map fun (spelled, value, rest) =>
        (escape :: c :: spelled, c :: value, rest) := by
  have hquote : escape ≠ '"' := by
    rintro rfl
    exact absurd hescape (by decide)
  simp [stringBody?, hescape]

theorem stringBody?_append {spelled value : List Char} (h : IsBody spelled value)
    (rest : List Char) :
    stringBody? (spelled ++ '"' :: rest) = some (spelled ++ ['"'], value, rest) := by
  induction h with
  | nil => rfl
  | plain hquote hescape _ ih =>
      rw [List.cons_append, stringBody?_plain hquote hescape, ih]
      rfl
  | escaped hescape _ ih =>
      rw [List.cons_append, List.cons_append, stringBody?_escaped hescape, ih]
      rfl

theorem isBody_of_stringBody? {text spelled value rest : List Char}
    (h : stringBody? text = some (spelled, value, rest)) :
    ∃ body, spelled = body ++ ['"'] ∧ IsBody body value ∧ text = spelled ++ rest := by
  fun_induction stringBody? text generalizing spelled value rest with
  | case1 => cases h
  | case2 tail =>
      cases h
      exact ⟨[], rfl, .nil, rfl⟩
  | case3 => cases h
  | case4 escape hquote hescape c text ih =>
      obtain ⟨⟨piece, meaning, after⟩, hpiece, heq⟩ := Option.map_eq_some_iff.mp h
      cases heq
      obtain ⟨body, rfl, hbody, rfl⟩ := ih hpiece
      exact ⟨escape :: c :: body, rfl, .escaped hescape hbody, rfl⟩
  | case5 c text hquote hescape ih =>
      obtain ⟨⟨piece, meaning, after⟩, hpiece, heq⟩ := Option.map_eq_some_iff.mp h
      cases heq
      obtain ⟨body, rfl, hbody, rfl⟩ := ih hpiece
      exact ⟨c :: body, rfl, .plain hquote hescape hbody, rfl⟩

theorem IsBody.value_unique {spelled first second : List Char} (hfirst : IsBody spelled first)
    (hsecond : IsBody spelled second) : first = second := by
  have heq := (stringBody?_append hfirst []).symm.trans (stringBody?_append hsecond [])
  simpa using heq

/-! ## One reading of a lexeme -/

namespace IsLexeme

theorem ne_nil {kind : Kind} {lexeme : List Char} {value : Option (List Char)}
    (h : IsLexeme kind lexeme value) : lexeme ≠ [] := by
  cases h with
  | symbol hmem =>
      have hall : ∀ entry ∈ Kind.symbols, entry.1 ≠ [] := by decide
      exact hall _ hmem
  | int hne _ => exact hne
  | decimal _ _ _ => simp
  | word _ _ => simp
  | string _ => simp

/-- The end of a text has no characters, so it is no lexeme. -/
theorem kind_ne_eof {kind : Kind} {lexeme : List Char} {value : Option (List Char)}
    (h : IsLexeme kind lexeme value) : kind ≠ .eof := by
  cases h with
  | symbol hmem =>
      have hall : ∀ entry ∈ Kind.symbols, entry.2 ≠ .eof := by decide
      exact hall _ hmem
  | int _ _ => decide
  | decimal _ _ _ => decide
  | @word c tail _ _ =>
      rcases ofWord_eq_identifier_or_mem (c :: tail) with hname | hmem
      · rw [hname]
        decide
      · have hall : ∀ entry ∈ Kind.keywords, entry.2 ≠ .eof := by decide
        exact hall _ hmem
  | string _ => decide

/-- Digits alone are no decimal. -/
theorem not_forall_isDigit_of_dot {whole fraction : List Char} :
    ¬ ∀ c ∈ whole ++ '.' :: fraction, c.isDigit = true :=
  fun h => digit_ne_dot (h '.' (by simp)) rfl

/-- A piece of text is a lexeme of one kind and with one value. -/
theorem unique {first second : Kind} {lexeme : List Char} {left right : Option (List Char)}
    (hfirst : IsLexeme first lexeme left) (hsecond : IsLexeme second lexeme right) :
    first = second ∧ left = right := by
  obtain ⟨c, tail, rfl⟩ := List.exists_cons_of_ne_nil hfirst.ne_nil
  -- The first character decides which rule of the grammar applies.
  by_cases hdigit : c.isDigit = true
  · rcases hfirst.of_isDigit hdigit with ⟨rfl, rfl, hall⟩ | ⟨_, _, heq, rfl, rfl, _⟩ <;>
      rcases hsecond.of_isDigit hdigit with ⟨rfl, rfl, hother⟩ | ⟨_, _, hsplit, rfl, rfl, _⟩
    · exact ⟨rfl, rfl⟩
    · exact absurd (hsplit ▸ hall) not_forall_isDigit_of_dot
    · exact absurd (heq ▸ hother) not_forall_isDigit_of_dot
    · exact ⟨rfl, rfl⟩
  by_cases hletter : isLetter c = true
  · obtain ⟨rfl, rfl, _⟩ := hfirst.of_isLetter hletter
    obtain ⟨rfl, rfl, _⟩ := hsecond.of_isLetter hletter
    exact ⟨rfl, rfl⟩
  by_cases hquote : c = '"'
  · subst hquote
    obtain ⟨spelled, _, rfl, rfl, rfl, hbody⟩ := hfirst.of_quote
    obtain ⟨_, _, heq, rfl, rfl, hother⟩ := hsecond.of_quote
    obtain rfl := List.append_cancel_right heq
    exact ⟨rfl, congrArg some (hbody.value_unique hother)⟩
  · rw [Bool.not_eq_true] at hdigit hletter
    rcases hfirst.of_symbol hdigit hletter hquote with
      ⟨hmem, rfl⟩ | ⟨rfl, hne, rfl, rfl, _⟩ <;>
      rcases hsecond.of_symbol hdigit hletter hquote with
        ⟨hother, rfl⟩ | ⟨hdot, hne', rfl, rfl, _⟩
    · have hall : ∀ entry ∈ Kind.symbols, ∀ other ∈ Kind.symbols,
          entry.1 = other.1 → entry.2 = other.2 := by decide
      exact ⟨hall _ hmem _ hother rfl, rfl⟩
    · subst hdot
      obtain rfl := (symbol_eq_dot_iff hmem).mp rfl
      exact absurd (List.cons.inj (symbol_dot hmem)).2 hne'
    · obtain rfl := (symbol_eq_dot_iff hother).mp rfl
      exact absurd (List.cons.inj (symbol_dot hother)).2 hne
    · exact ⟨rfl, rfl⟩

end IsLexeme

theorem IsLongest.unique {text lexeme piece rest after : List Char} {kind other : Kind}
    {value meaning : Option (List Char)} (hfirst : IsLongest text kind lexeme value rest)
    (hsecond : IsLongest text other piece meaning after) :
    kind = other ∧ lexeme = piece ∧ value = meaning ∧ rest = after := by
  have hle := hfirst.longest hsecond.isLexeme ⟨after, hsecond.eq_append.symm⟩
  have hge := hsecond.longest hfirst.isLexeme ⟨rest, hfirst.eq_append.symm⟩
  obtain ⟨rfl, rfl⟩ := List.append_inj (hfirst.eq_append.symm.trans hsecond.eq_append) (by omega)
  obtain ⟨rfl, rfl⟩ := hfirst.isLexeme.unique hsecond.isLexeme
  exact ⟨rfl, rfl, rfl, rfl⟩

/-! ## Reading by the first character -/

theorem length_le_length_takeWhile {p : Char → Bool} {piece text : List Char}
    (hpiece : ∀ c ∈ piece, p c = true) (hpre : piece <+: text) :
    piece.length ≤ (text.takeWhile p).length := by
  obtain ⟨after, rfl⟩ := hpre
  rw [List.takeWhile_append_of_pos hpiece]
  simp

/-- Symbols are tried in the order of their lengths, so the first that fits is the longest. -/
theorem symbol?_eq_some {text symbol : List Char} {kind : Kind}
    (h : symbol? text = some (symbol, kind)) :
    (symbol, kind) ∈ Kind.symbols ∧ symbol <+: text ∧
      ∀ entry ∈ Kind.symbols, entry.1 <+: text → entry.1.length ≤ symbol.length := by
  obtain ⟨hpre, before, after, hsplit, hbefore⟩ := List.find?_eq_some_iff_append.mp h
  have hsorted : Kind.symbols.Pairwise fun first second => second.1.length ≤ first.1.length := by
    decide
  refine ⟨by simp [hsplit], List.isPrefixOf_iff_prefix.mp hpre, ?_⟩
  intro entry hmem hfits
  rw [hsplit] at hmem hsorted
  rcases List.mem_append.mp hmem with hmem | hmem
  · have hnot := hbefore entry hmem
    rw [List.isPrefixOf_iff_prefix.mpr hfits] at hnot
    exact absurd hnot (by decide)
  · rcases List.mem_cons.mp hmem with rfl | hmem
    · exact Nat.le_refl _
    · exact (List.pairwise_cons.mp (List.pairwise_append.mp hsorted).2.1).1 entry hmem

theorem symbol?_eq_none {text : List Char} (h : symbol? text = none) {lexeme : List Char}
    {kind : Kind} (hmem : (lexeme, kind) ∈ Kind.symbols) : ¬ lexeme <+: text := by
  intro hpre
  have hnot := List.find?_eq_none.mp h _ hmem
  exact hnot (List.isPrefixOf_iff_prefix.mpr hpre)

/-- The pieces that a text can begin with share its first character. -/
theorem exists_of_prefix {kind : Kind} {piece text : List Char} {value : Option (List Char)}
    {c : Char} (h : IsLexeme kind piece value) (hpre : piece <+: c :: text) :
    ∃ tail, piece = c :: tail ∧ tail <+: text := by
  obtain ⟨d, tail, rfl⟩ := List.exists_cons_of_ne_nil h.ne_nil
  obtain ⟨rfl, htail⟩ := List.cons_prefix_cons.mp hpre
  exact ⟨tail, rfl, htail⟩

/-- Digits with a point after them are the digits before the point of the text. -/
theorem takeWhile_of_dot {whole fraction text : List Char}
    (hwhole : ∀ c ∈ whole, c.isDigit = true) (hpre : whole ++ '.' :: fraction <+: text) :
    ∃ after, text.takeWhile Char.isDigit = whole ∧
      text.dropWhile Char.isDigit = '.' :: (fraction ++ after) := by
  obtain ⟨after, rfl⟩ := hpre
  refine ⟨after, ?_, ?_⟩
  · rw [List.append_assoc, List.takeWhile_append_of_pos hwhole, List.cons_append,
      List.takeWhile_cons_of_neg (by decide), List.append_nil]
  · rw [List.append_assoc, List.dropWhile_append_of_pos hwhole, List.cons_append,
      List.dropWhile_cons_of_neg (by decide)]

/-- The digits at the beginning of a text, with the point and the digits after them if there is a
point, are the longest number there. -/
theorem isLongest_of_number {c : Char} {text : List Char} (hc : c.isDigit = true) {kind : Kind}
    {lexeme rest : List Char} {value : Option (List Char)}
    (h : number c text = .token kind lexeme value rest) :
    IsLongest (c :: text) kind lexeme value rest := by
  have htake : (c :: text).takeWhile Char.isDigit = c :: text.takeWhile Char.isDigit :=
    List.takeWhile_cons_of_pos hc
  have hdrop : (c :: text).dropWhile Char.isDigit = text.dropWhile Char.isDigit :=
    List.dropWhile_cons_of_pos hc
  have hsplit := List.takeWhile_append_dropWhile (p := Char.isDigit) (l := c :: text)
  have hdigits : ∀ d ∈ (c :: text).takeWhile Char.isDigit, d.isDigit = true :=
    fun _ hmem => List.mem_takeWhile_imp hmem
  rw [htake] at hdigits
  rw [htake, hdrop] at hsplit
  simp only [number, literal] at h
  split at h
  next tail htail =>
    cases h
    rw [htail] at hsplit
    refine ⟨.decimal (.inl (by simp)) hdigits fun _ hmem => List.mem_takeWhile_imp hmem, ?_, ?_⟩
    · simpa using hsplit.symm
    intro other piece meaning hpiece hpre
    obtain ⟨after, rfl, _⟩ := exists_of_prefix hpiece hpre
    rcases hpiece.of_isDigit hc with ⟨_, _, hall⟩ | ⟨whole, fraction, heq, _, _, hwhole, hfraction⟩
    · have hle := length_le_length_takeWhile hall hpre
      rw [htake] at hle
      rw [List.length_append]
      omega
    · -- Another decimal has its point at the same place.
      rw [heq] at hpre ⊢
      obtain ⟨remaining, hbefore, hafter⟩ := takeWhile_of_dot hwhole hpre
      rw [hdrop, htail] at hafter
      have hle := length_le_length_takeWhile hfraction ⟨remaining, (List.cons.inj hafter).2.symm⟩
      rw [← htake, hbefore]
      simp only [List.length_append, List.length_cons]
      omega
  next hdot =>
    cases h
    refine ⟨.int (by simp) hdigits, hsplit.symm, ?_⟩
    intro other piece meaning hpiece hpre
    obtain ⟨after, rfl, _⟩ := exists_of_prefix hpiece hpre
    rcases hpiece.of_isDigit hc with ⟨_, _, hall⟩ | ⟨whole, fraction, heq, _, _, hwhole, _⟩
    · have hle := length_le_length_takeWhile hall hpre
      rw [htake] at hle
      exact hle
    · rw [heq] at hpre
      obtain ⟨remaining, _, hafter⟩ := takeWhile_of_dot hwhole hpre
      exact absurd (hdrop.symm.trans hafter) (hdot _)

/-- A letter with the word characters after it is the longest word there. -/
theorem isLongest_of_word {c : Char} {text : List Char} (hc : isLetter c = true) :
    IsLongest (c :: text) (Kind.ofWord (c :: text.takeWhile isWordChar))
      (c :: text.takeWhile isWordChar) (some (c :: text.takeWhile isWordChar))
      (text.dropWhile isWordChar) := by
  refine ⟨.word hc fun _ hmem => List.mem_takeWhile_imp hmem, ?_, ?_⟩
  · rw [List.cons_append, List.takeWhile_append_dropWhile]
  intro other piece meaning hpiece hpre
  obtain ⟨after, rfl, htail⟩ := exists_of_prefix hpiece hpre
  obtain ⟨_, _, hall⟩ := hpiece.of_isLetter hc
  have hle := length_le_length_takeWhile hall htail
  simp only [List.length_cons]
  omega

/-- A string ends at its first quote that nothing escapes, so no text begins with two of them. -/
theorem isLongest_of_stringBody? {text spelled value rest : List Char}
    (h : stringBody? text = some (spelled, value, rest)) :
    IsLongest ('"' :: text) .string ('"' :: spelled) (some value) rest := by
  obtain ⟨body, rfl, hbody, heq⟩ := isBody_of_stringBody? h
  refine ⟨.string hbody, by rw [heq, List.cons_append], ?_⟩
  intro other piece meaning hpiece hpre
  obtain ⟨tail, rfl, after, htail⟩ := exists_of_prefix hpiece hpre
  obtain ⟨inside, _, rfl, _, _, hinside⟩ := hpiece.of_quote
  have hread := stringBody?_append hinside after
  rw [← List.singleton_append, ← List.append_assoc, htail, h] at hread
  simp only [Option.some.injEq, Prod.mk.injEq] at hread
  rw [hread.1]

/-- A text that begins with a quote has a lexeme only if the string is closed. -/
theorem not_hasLexeme_of_stringBody? {text : List Char} (h : stringBody? text = none) :
    ¬ HasLexeme ('"' :: text) := by
  rintro ⟨_, piece, _, hpiece, hpre⟩
  obtain ⟨tail, rfl, after, htail⟩ := exists_of_prefix hpiece hpre
  obtain ⟨inside, _, rfl, _, _, hinside⟩ := hpiece.of_quote
  have hread := stringBody?_append hinside after
  rw [← List.singleton_append, ← List.append_assoc, htail, h] at hread
  cases hread

/-- What each answer of `read` says about the text. -/
def Describes (c : Char) (text : List Char) : Lexeme → Prop
  | .token kind lexeme value rest => IsLongest (c :: text) kind lexeme value rest
  | .unexpected d => d = c ∧ c ≠ '"' ∧ ¬ HasLexeme (c :: text)
  | .unterminated => c = '"' ∧ ¬ HasLexeme (c :: text)

/-- Where a symbol stands it is the longest lexeme, but for a point before digits. -/
theorem describes_of_symbol? {c : Char} {text symbol : List Char} {kind : Kind}
    (h : symbol? (c :: text) = some (symbol, kind)) : Describes c text (read c text) := by
  obtain ⟨hmem, hpre, hlongest⟩ := symbol?_eq_some h
  obtain ⟨tail, rfl, after, rfl⟩ := exists_of_prefix (.symbol hmem) hpre
  obtain ⟨hdigit, hletter, hquote⟩ := symbol_head hmem
  simp only [read, h]
  split
  next hdot =>
    obtain ⟨rfl, hhead⟩ := hdot
    obtain ⟨rfl, rfl⟩ := List.cons.inj (symbol_dot hmem)
    rw [List.nil_append] at hhead ⊢
    -- The point begins a decimal, and a symbol there is not longer than the point.
    have hne : after.takeWhile Char.isDigit ≠ [] := by
      cases after with
      | nil => cases hhead
      | cons d after => simp [List.takeWhile_cons_of_pos (show d.isDigit = true from hhead)]
    have hlexeme : IsLexeme .decimal ([] ++ '.' :: after.takeWhile Char.isDigit) _ :=
      .decimal (.inr hne) (by simp) fun _ hd => List.mem_takeWhile_imp hd
    refine ⟨hlexeme, by simp, ?_⟩
    intro other piece meaning hpiece hfits
    obtain ⟨tail, rfl, htail⟩ := exists_of_prefix hpiece hfits
    rcases hpiece.of_symbol hdigit hletter hquote with ⟨hother, _⟩ | ⟨_, _, _, _, hall⟩
    · have hle := hlongest _ hother hfits
      simp only [List.length_cons, List.length_nil] at hle ⊢
      omega
    · have hle := length_le_length_takeWhile hall htail
      simp only [List.length_cons]
      omega
  next hdot =>
    refine ⟨.symbol hmem, by simp, ?_⟩
    intro other piece meaning hpiece hfits
    obtain ⟨rest, rfl, hrest⟩ := exists_of_prefix hpiece hfits
    rcases hpiece.of_symbol hdigit hletter hquote with ⟨hother, _⟩ | ⟨rfl, hne, _, _, hall⟩
    · exact hlongest _ hother hfits
    · obtain rfl := (symbol_eq_dot_iff hmem).mp rfl
      obtain ⟨_, rfl⟩ := List.cons.inj (symbol_dot hmem)
      obtain ⟨d, digits, rfl⟩ := List.exists_cons_of_ne_nil hne
      obtain ⟨remaining, rfl⟩ := hrest
      exact absurd ⟨rfl, by simpa using hall d List.mem_cons_self⟩ hdot

/-- Reading answers the longest lexeme, and fails only where there is none. -/
theorem describes_read (c : Char) (text : List Char) : Describes c text (read c text) := by
  cases hsymbol : symbol? (c :: text) with
  | some entry => exact describes_of_symbol? hsymbol
  | none =>
      simp only [read, hsymbol]
      split
      next hdigit =>
        cases hnumber : number c text with
        | token kind lexeme value rest => exact isLongest_of_number hdigit hnumber
        | unexpected d =>
            simp only [number, literal] at hnumber
            split at hnumber <;> cases hnumber
        | unterminated =>
            simp only [number, literal] at hnumber
            split at hnumber <;> cases hnumber
      next hdigit =>
        split
        next hquote =>
          subst hquote
          split
          next hbody => exact isLongest_of_stringBody? hbody
          next hbody => exact ⟨rfl, not_hasLexeme_of_stringBody? hbody⟩
        next hquote =>
          split
          next hletter => exact isLongest_of_word hletter
          next hletter =>
            refine ⟨rfl, hquote, ?_⟩
            rintro ⟨kind, piece, value, hpiece, hpre⟩
            obtain ⟨tail, rfl, htail⟩ := exists_of_prefix hpiece hpre
            rw [Bool.not_eq_true] at hdigit hletter
            rcases hpiece.of_symbol hdigit hletter hquote with ⟨hmem, _⟩ | ⟨rfl, _⟩
            · exact symbol?_eq_none hsymbol hmem hpre
            · have hmem : (['.'], Kind.dot) ∈ Kind.symbols := by decide
              exact symbol?_eq_none hsymbol hmem (by simp)

theorem read_of_isLongest {c : Char} {text lexeme rest : List Char} {kind : Kind}
    {value : Option (List Char)} (h : IsLongest (c :: text) kind lexeme value rest) :
    read c text = .token kind lexeme value rest := by
  have hread := describes_read c text
  have hsome : HasLexeme (c :: text) := ⟨kind, lexeme, value, h.isLexeme, rest, h.eq_append.symm⟩
  cases hanswer : read c text with
  | token other piece meaning after =>
      rw [hanswer] at hread
      obtain ⟨rfl, rfl, rfl, rfl⟩ := h.unique hread
      rfl
  | unexpected d =>
      rw [hanswer] at hread
      exact absurd hsome hread.2.2
  | unterminated =>
      rw [hanswer] at hread
      exact absurd hsome hread.2

theorem read_of_not_hasLexeme {c : Char} {text : List Char} (h : ¬ HasLexeme (c :: text)) :
    read c text = if c = '"' then .unterminated else .unexpected c := by
  have hread := describes_read c text
  cases hanswer : read c text with
  | token kind lexeme value rest =>
      rw [hanswer] at hread
      exact absurd ⟨kind, lexeme, value, hread.isLexeme, rest, hread.eq_append.symm⟩ h
  | unexpected d =>
      rw [hanswer] at hread
      rw [if_neg hread.2.1, hread.1]
  | unterminated =>
      rw [hanswer] at hread
      rw [if_pos hread.1]

end ExprLang.Token.Lexeme
