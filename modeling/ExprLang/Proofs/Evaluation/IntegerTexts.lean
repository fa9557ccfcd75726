import ExprLang.Proofs.Evaluation.Builtins
import ExprLang.Proofs.Evaluation.Integers
import ExprLang.Proofs.Evaluation.LiteralTexts

/-!
# Integers that are read back

A row of digits is evaluated to the integer that it denotes, also behind a minus sign, and refused
if there is no such integer of 64 bits. So an integer is read back from its text, with one
exception: the least one has no literal, because its digits are read before they are negated. The
reader for texts takes the sign with the digits and reads back every integer.
-/

namespace ExprLang

open Text
open Token.Lexeme (IsLexeme IsLongest)

/-! ## Numbers and their texts -/

namespace Integer

/-- The number that a text denotes: a row of digits after an optional sign. -/
inductive Denotes : List Char → Int → Prop
  | unsigned {digits : List Char} (hne : digits ≠ []) (hdigits : ∀ c ∈ digits, c.isDigit = true) :
      Denotes digits (Decimal.digitsValue digits)
  | plus {digits : List Char} (hne : digits ≠ []) (hdigits : ∀ c ∈ digits, c.isDigit = true) :
      Denotes ('+' :: digits) (Decimal.digitsValue digits)
  | minus {digits : List Char} (hne : digits ≠ []) (hdigits : ∀ c ∈ digits, c.isDigit = true) :
      Denotes ('-' :: digits) (-(Decimal.digitsValue digits))

variable {text digits : List Char} {n : Int}

theorem map_unsigned?_eq_some_iff {negative : Bool} :
    (unsigned? digits).map (signed negative) = some n ↔
      digits ≠ [] ∧ (∀ c ∈ digits, c.isDigit = true) ∧
        signed negative (Decimal.digitsValue digits) = n := by
  rw [unsigned?, ← List.all_eq_true, ← and_assoc]
  by_cases hdigits : digits ≠ [] ∧ digits.all Char.isDigit = true
  · rw [if_pos hdigits, Option.map_some, Option.some_inj, and_iff_right hdigits]
  · rw [if_neg hdigits, Option.map_none]
    exact iff_of_false (Option.some_ne_none n).symm fun h => hdigits h.1

theorem numeral?_eq_some_iff : numeral? text = some n ↔ Denotes text n := by
  constructor
  · intro h
    rw [numeral?] at h
    split_ifs at h with hminus hplus
    all_goals obtain ⟨hne, hdigits, rfl⟩ := map_unsigned?_eq_some_iff.mp h
    · obtain ⟨tail, rfl⟩ := List.head?_eq_some_iff.mp hminus
      exact .minus hne hdigits
    · obtain ⟨tail, rfl⟩ := List.head?_eq_some_iff.mp hplus
      exact .plus hne hdigits
    · exact .unsigned hne hdigits
  · intro h
    cases h with
    | unsigned hne hdigits =>
        rw [numeral?, if_neg (head?_ne_of_isDigit rfl hdigits),
          if_neg (head?_ne_of_isDigit rfl hdigits)]
        exact map_unsigned?_eq_some_iff.mpr ⟨hne, hdigits, rfl⟩
    | plus hne hdigits =>
        rw [numeral?, if_neg (by simp), List.head?_cons, if_pos rfl]
        exact map_unsigned?_eq_some_iff.mpr ⟨hne, hdigits, rfl⟩
    | minus hne hdigits =>
        rw [numeral?, List.head?_cons, if_pos rfl]
        exact map_unsigned?_eq_some_iff.mpr ⟨hne, hdigits, rfl⟩

/-- Exactly the texts that denote an integer of the range are read. -/
theorem read?_eq_ok_iff {i : Int64} : read? text = .ok i ↔ Denotes text i.toInt := by
  have hread := toOption_read? text
  rw [← numeral?_eq_some_iff]
  constructor
  · intro h
    rw [h] at hread
    obtain ⟨n, hn, hi⟩ := Option.bind_eq_some_iff.mp hread.symm
    rw [hn, ofInt?_eq_some_iff.mp hi]
  · intro h
    rw [h, Option.bind_some, ofInt?_eq_some_iff.mpr rfl] at hread
    cases hanswer : read? text <;> rw [hanswer] at hread <;> cases hread
    rfl

theorem digitsValue_toDigits (m : Nat) : Decimal.digitsValue (Nat.toDigits 10 m) = m :=
  Nat.ofDigitChars_ten_toDigits

/-- The text of an integer is a row of digits, after a minus sign if the integer is negative. -/
theorem text_cases (i : Int64) : ∃ digits : List Char, digits ≠ [] ∧
    (∀ c ∈ digits, c.isDigit = true) ∧
      ((i.toInt = Decimal.digitsValue digits ∧ Integer.text i = .ofList digits) ∨
        i.toInt = -(Decimal.digitsValue digits : Int) ∧
          Integer.text i = .ofList ('-' :: digits)) := by
  have hdigits (m : Nat) : ∀ c ∈ Nat.toDigits 10 m, c.isDigit = true := fun _ hc =>
    Nat.isDigit_of_mem_toDigits (by decide) (Nat.le_refl _) hc
  rw [Integer.text]
  cases i.toInt with
  | ofNat m =>
      refine ⟨_, Nat.toDigits_ne_nil, hdigits m, .inl ⟨?_, rfl⟩⟩
      rw [digitsValue_toDigits]
      rfl
  | negSucc m =>
      refine ⟨_, Nat.toDigits_ne_nil, hdigits (m + 1), .inr ⟨?_, rfl⟩⟩
      rw [digitsValue_toDigits]
      rfl

theorem denotes_text (i : Int64) : Denotes (Integer.text i).toList i.toInt := by
  obtain ⟨digits, hne, hdigits, ⟨hi, htext⟩ | ⟨hi, htext⟩⟩ := text_cases i
  · rw [hi, htext, String.toList_ofList]
    exact .unsigned hne hdigits
  · rw [hi, htext, String.toList_ofList]
    exact .minus hne hdigits

/-! ## Blanks around a number -/

theorem isBlank_eq_false_of_isDigit (hdigits : ∀ c ∈ digits, c.isDigit = true) :
    ∀ c ∈ digits, isBlank c = false := by
  intro c hc
  have hlexeme : IsLexeme .int [c] (some [c]) :=
    .int (List.cons_ne_nil _ _) (List.forall_mem_singleton.mpr (hdigits c hc))
  exact hlexeme.isBlank_head

theorem Denotes.isBlank_eq_false (h : Denotes text n) : ∀ c ∈ text, isBlank c = false := by
  cases h with
  | unsigned _ hdigits => exact isBlank_eq_false_of_isDigit hdigits
  | plus _ hdigits => exact List.forall_mem_cons.mpr ⟨rfl, isBlank_eq_false_of_isDigit hdigits⟩
  | minus _ hdigits => exact List.forall_mem_cons.mpr ⟨rfl, isBlank_eq_false_of_isDigit hdigits⟩

theorem Denotes.ne_nil (h : Denotes text n) : text ≠ [] := by
  cases h with
  | unsigned hne _ => exact hne
  | plus _ _ => exact List.cons_ne_nil _ _
  | minus _ _ => exact List.cons_ne_nil _ _

/-- Blanks are dropped up to a text that does not begin with one. -/
theorem dropWhile_isBlank {blanks : List Char} (hblanks : ∀ c ∈ blanks, isBlank c = true)
    (hne : text ≠ []) (htext : ∀ c ∈ text, isBlank c = false) (rest : List Char) :
    (blanks ++ (text ++ rest)).dropWhile isBlank = text ++ rest := by
  obtain ⟨c, tail, rfl⟩ := List.exists_cons_of_ne_nil hne
  have hc : ¬ isBlank c = true := by simp [htext c List.mem_cons_self]
  rw [List.dropWhile_append_of_pos hblanks, List.cons_append, List.dropWhile_cons_of_neg hc]

/-- Blanks around a number are left out. -/
theorem Denotes.trim_eq (h : Denotes text n) {before after : List Char}
    (hbefore : ∀ c ∈ before, isBlank c = true) (hafter : ∀ c ∈ after, isBlank c = true) :
    trim (before ++ text ++ after) = text := by
  have hback : ∀ c ∈ text.reverse, isBlank c = false := fun c hc =>
    h.isBlank_eq_false c (List.mem_reverse.mp hc)
  have hend := dropWhile_isBlank (fun c hc => hafter c (List.mem_reverse.mp hc))
    (List.reverse_ne_nil_iff.mpr h.ne_nil) hback []
  rw [List.append_nil] at hend
  rw [trim, List.append_assoc, dropWhile_isBlank hbefore h.ne_nil h.isBlank_eq_false,
    List.reverse_append, hend, List.reverse_reverse]

end Integer

/-! ## Digits as a literal -/

section Literal

variable {digits : List Char}

/-- A minus sign before digits is a token of its own. -/
theorem isLongest_minus (hdigits : ∀ c ∈ digits, c.isDigit = true) :
    IsLongest (['-'] ++ digits) .minus ['-'] none digits := by
  refine ⟨.symbol (by decide), rfl, fun {kind piece value} hpiece hpre => ?_⟩
  obtain ⟨tail, rfl, htail⟩ := Token.Lexeme.exists_of_prefix hpiece hpre
  rcases hpiece.of_symbol rfl (Token.Lexeme.isLetter_eq_false_of_lt (by decide)) (by decide) with
    ⟨hmem, -⟩ | ⟨hdot, -⟩
  · -- There are no digits in a symbol.
    have hsymbols : ∀ entry ∈ Token.Kind.symbols, entry.1.any Char.isDigit = false := by decide
    cases tail with
    | nil => exact Nat.le_refl _
    | cons c tail =>
        have hc := hdigits c (htail.subset List.mem_cons_self)
        have hany : ('-' :: c :: tail).any Char.isDigit = true :=
          List.any_eq_true.mpr ⟨c, by simp, hc⟩
        cases hany.symm.trans (hsymbols _ hmem)
  · exact absurd hdot (by decide)

theorem tokenize_of_minus (hne : digits ≠ []) (hdigits : ∀ c ∈ digits, c.isDigit = true) :
    tokenize (.ofList ('-' :: digits)) =
      .ok [⟨.minus, "-", none, ⟨0, 1⟩⟩,
        ⟨.int, .ofList digits, some (.ofList digits), ⟨1, byteLength digits⟩⟩,
        .eof (1 + byteLength digits)] := by
  have htokens := Tokenizes.lexeme (isLongest_minus hdigits) (Tokenizes.last (.int hne hdigits) 1)
  rw [tokenize_eq_outcome]
  exact outcome_eq_of_tokenizes htokens rfl String.toList_ofList

theorem parse_of_minus (hne : digits ≠ []) (hdigits : ∀ c ∈ digits, c.isDigit = true) :
    parse (.ofList ('-' :: digits)) =
      .ok (.unary .negate (.constant .int (.ofList digits))) := by
  have hstream := TokenStream.ofText_of_tokenize (tokenize_of_minus hne hdigits) (by decide)
  rw [parse_eq_run hstream]
  rfl

/-- Digits are a constant with the number that they make as its value, unless that is too large. -/
theorem value_of_digits (hne : digits ≠ []) (hdigits : ∀ c ∈ digits, c.isDigit = true) :
    (Decimal.digitsValue digits ≤ 2 ^ 63 - 1 ∧ ∃ n : Int64,
        n.toInt = Decimal.digitsValue digits ∧
        LiteralKind.int.value (.ofList digits) = .ok (.int n)) ∨
      2 ^ 63 - 1 < Decimal.digitsValue digits ∧
        LiteralKind.int.value (.ofList digits) =
          .error (.invalidLiteral .int (.ofList digits)) := by
  have hfits := Integer.fits_natCast_iff (n := Decimal.digitsValue digits)
  rw [LiteralKind.value, String.toList_ofList, Integer.read?_of_isDigit hne hdigits]
  by_cases hle : Decimal.digitsValue digits ≤ 2 ^ 63 - 1
  · obtain ⟨n, hn, hread⟩ :=
      Integer.exists_of_inRange (Integer.fits_iff_inRange.mp (hfits.mpr hle))
    rw [hread]
    exact .inl ⟨hle, n, hn, rfl⟩
  · rw [Integer.ofInt?, if_neg fun h => hle (hfits.mp h)]
    exact .inr ⟨Nat.not_le.mp hle, rfl⟩

/-- What a row of digits is evaluated to, and the same digits after a minus sign. -/
structure ReadsDigits (digits : List Char) (mode : LogicMode) (machine : Machine) : Prop where
  small : Decimal.digitsValue digits ≤ 2 ^ 63 - 1 → ∃ n m : Int64,
    n.toInt = Decimal.digitsValue digits ∧ m.toInt = -(Decimal.digitsValue digits : Int) ∧
      (run mode (.ofList digits)).run machine = .ok (.int n) machine ∧
      (run mode (.ofList ('-' :: digits))).run machine = .ok (.int m) machine
  large : 2 ^ 63 - 1 < Decimal.digitsValue digits →
    (run mode (.ofList digits)).run machine =
        .error (.runtime (.invalidLiteral .int (.ofList digits))) machine ∧
      (run mode (.ofList ('-' :: digits))).run machine =
        .error (.runtime (.invalidLiteral .int (.ofList digits))) machine

theorem run_of_digits (hne : digits ≠ []) (hdigits : ∀ c ∈ digits, c.isDigit = true)
    (mode : LogicMode) (machine : Machine) :
    (run mode (.ofList digits)).run machine =
      match LiteralKind.int.value (.ofList digits) with
      | .ok value => .ok value machine
      | .error error => .error (.runtime error) machine :=
  run_of_literal (tokenize_of_isLexeme (.int hne hdigits)) rfl mode machine

/-- A minus sign before digits negates what they are evaluated to. -/
theorem run_of_minus (hne : digits ≠ []) (hdigits : ∀ c ∈ digits, c.isDigit = true)
    (mode : LogicMode) (machine : Machine) :
    (run mode (.ofList ('-' :: digits))).run machine =
      match (LiteralKind.int.value (.ofList digits)).bind UnaryOp.negate.apply with
      | .ok value => .ok value machine
      | .error error => .error (.runtime error) machine := by
  have hnegate :
      ((Expr.unary .negate (.constant .int (.ofList digits))).evaluate mode).run machine =
        (EvalM.ofExcept ((LiteralKind.int.value (.ofList digits)).bind UnaryOp.negate.apply)).run
          machine := by
    rw [Expr.evaluate, Expr.evaluate]
    cases LiteralKind.int.value (.ofList digits) <;> rfl
  rw [run_of_parse (parse_of_minus hne hdigits), hnegate]
  cases (LiteralKind.int.value (.ofList digits)).bind UnaryOp.negate.apply <;> rfl

theorem readsDigits (hne : digits ≠ []) (hdigits : ∀ c ∈ digits, c.isDigit = true)
    (mode : LogicMode) (machine : Machine) : ReadsDigits digits mode machine := by
  have hplain := run_of_digits hne hdigits mode machine
  have hminus := run_of_minus hne hdigits mode machine
  rcases value_of_digits hne hdigits with ⟨hle, n, hn, hvalue⟩ | ⟨hgt, hvalue⟩
  · -- There is one integer more below zero than above it.
    have hin : Integer.InRange (-n.toInt) := by
      rw [← Integer.fits_iff_inRange]
      simp only [Integer.fits, Bool.and_eq_true, decide_eq_true_eq]
      omega
    obtain ⟨m, hm, hnegated⟩ := (UnaryOp.isExact_negate n).of_inRange hin
    rw [hvalue] at hplain hminus
    rw [Except.bind, hnegated] at hminus
    rw [hn] at hm
    exact ⟨fun _ => ⟨n, m, hn, hm, hplain, hminus⟩, fun hgt => absurd hle (Nat.not_le.mpr hgt)⟩
  · rw [hvalue] at hplain hminus
    exact ⟨fun hle => absurd hle (Nat.not_le.mpr hgt), fun _ => ⟨hplain, hminus⟩⟩

end Literal

/-! ## Integers and their texts -/

/-- Every integer but the least one is read back as a literal. -/
theorem run_text {n : Int64} (hn : n ≠ Int64.minValue) (mode : LogicMode) (machine : Machine) :
    (run mode (Integer.text n)).run machine = .ok (.int n) machine := by
  have hne : n.toInt ≠ Int64.minValue.toInt := fun h => hn (Int64.toInt_inj.mp h)
  rw [Int64.toInt_minValue] at hne
  -- What is left has digits that are no larger than the greatest integer.
  have hlower := n.le_toInt
  have hupper := n.toInt_lt
  obtain ⟨digits, hdigits, hall, ⟨hvalue, htext⟩ | ⟨hvalue, htext⟩⟩ := Integer.text_cases n
  · obtain ⟨i, -, hi, -, hrun, -⟩ := (readsDigits hdigits hall mode machine).small (by omega)
    rw [htext, hrun, Int64.toInt_inj.mp (hi.trans hvalue.symm)]
  · obtain ⟨-, i, -, hi, -, hrun⟩ := (readsDigits hdigits hall mode machine).small (by omega)
    rw [htext, hrun, Int64.toInt_inj.mp (hi.trans hvalue.symm)]

/-- The machine with the functions of the language. -/
def Machine.withBuiltins (machine : Machine) : Machine :=
  { machine with environment := machine.environment.withBuiltins }

namespace Builtin

variable {source : String} {value : Value}

/-- The reader for texts answers the integer that a text denotes without the blanks around it, and
nothing for any other text. -/
theorem run_parseInt_eq_ok_iff {heap next : Heap} :
    (parseInt.invoke [.string source]).run heap = .ok value next ↔
      next = heap ∧ ∃ n : Int64, value = .int n ∧
        Integer.Denotes (trim source.toList) n.toInt := by
  rw [parseInt, invoke_ofString]
  constructor
  · intro h
    obtain ⟨hreply, rfl⟩ := HostM.of_ofExcept h
    obtain ⟨_, result, ⟨⟩, hbody, hresult⟩ := of_reply hreply
    refine ⟨rfl, ?_⟩
    split at hbody <;> cases hbody
    next n hread =>
      cases hresult
      exact ⟨n, rfl, Integer.read?_eq_ok_iff.mp hread⟩
  · rintro ⟨rfl, n, rfl, hdenotes⟩
    rw [reply_string, Integer.read?_eq_ok_iff.mpr hdenotes]
    rfl

/-- A text is read by the function of that name, and the call changes nothing. -/
theorem run_callFunction_parseInt_eq_ok_iff {machine next : Machine} :
    (callFunction "parseInt" [.string source]).run machine.withBuiltins = .ok value next ↔
      next = machine.withBuiltins ∧ ∃ n : Int64, value = .int n ∧
        Integer.Denotes (trim source.toList) n.toInt := by
  have hfunction : machine.withBuiltins.environment.function? "parseInt" = some parseInt := by
    rw [Machine.withBuiltins, Environment.withBuiltins, function?_define]
    rfl
  rw [run_callFunction_of_function? hfunction]
  constructor
  · intro h
    cases hrun : (parseInt.invoke [.string source]).run machine.withBuiltins.heap <;>
      rw [hrun] at h <;> cases h
    obtain ⟨rfl, hread⟩ := run_parseInt_eq_ok_iff.mp hrun
    exact ⟨rfl, hread⟩
  · rintro ⟨rfl, hread⟩
    rw [run_parseInt_eq_ok_iff.mpr ⟨rfl, hread⟩]

end Builtin

/-- Digits are read as the number that they make, with or without a minus sign before them, and
refused if that is too large. So every integer but the least one is read back from what it is shown
as; the function that reads texts reads back every integer, also with blanks around it, and no text
that denotes no integer. -/
theorem integers_read_back :
    (∀ digits : List Char, digits ≠ [] → (∀ c ∈ digits, c.isDigit = true) →
      ∀ mode machine, ReadsDigits digits mode machine) ∧
    (∀ n : Int64, n ≠ Int64.minValue → ∀ mode machine,
      (run mode (machine.heap.display (.int n))).run machine = .ok (.int n) machine) ∧
    (∀ (n : Int64) (before after : List Char), (∀ c ∈ before, isBlank c = true) →
      (∀ c ∈ after, isBlank c = true) → ∀ machine : Machine,
        (callFunction "parseInt"
            [.string (.ofList (before ++ (machine.heap.display (.int n)).toList ++ after))]).run
            machine.withBuiltins = .ok (.int n) machine.withBuiltins) ∧
    ∀ (source : String) (machine : Machine) (value : Value) (next : Machine),
      (callFunction "parseInt" [.string source]).run machine.withBuiltins = .ok value next ↔
        next = machine.withBuiltins ∧ ∃ n : Int64, value = .int n ∧
          Integer.Denotes (trim source.toList) n.toInt := by
  refine ⟨fun _ hne hdigits => readsDigits hne hdigits, fun _ hn => run_text hn,
    fun n before after hbefore hafter machine => ?_,
    fun _ _ _ _ => Builtin.run_callFunction_parseInt_eq_ok_iff⟩
  have hdenotes := Integer.denotes_text n
  refine Builtin.run_callFunction_parseInt_eq_ok_iff.mpr ⟨rfl, n, rfl, ?_⟩
  rw [String.toList_ofList, Heap.display, hdenotes.trim_eq hbefore hafter]
  exact hdenotes

theorem integers_read_back_least :
    let digits := "9223372036854775808".toList
    (digits ≠ [] ∧ (∀ c ∈ digits, c.isDigit = true) ∧ 2 ^ 63 - 1 < Decimal.digitsValue digits ∧
      ∀ mode machine, (run mode (.ofList ('-' :: digits))).run machine =
        .error (.runtime (.invalidLiteral .int (.ofList digits))) machine) ∧
    (∀ mode machine, (run mode (.ofList ['-', '0', '0', '7'])).run machine =
      .ok (.int (-7)) machine) ∧
    (Int64.maxValue ≠ Int64.minValue ∧ ∀ mode machine,
      (run mode (machine.heap.display (.int .maxValue))).run machine =
        .ok (.int .maxValue) machine) ∧
    (isBlank ' ' = true ∧ isBlank '\n' = true ∧ ∀ machine : Machine,
      (callFunction "parseInt"
          [.string (.ofList ([' '] ++ (machine.heap.display (.int .minValue)).toList ++
            ['\n']))]).run machine.withBuiltins = .ok (.int .minValue) machine.withBuiltins) := by
  intro digits
  obtain ⟨hliteral, htext, hparse, -⟩ := integers_read_back
  have hne : digits ≠ [] := by decide
  have hdigits : ∀ c ∈ digits, c.isDigit = true := List.all_eq_true.mp rfl
  have hlarge : 2 ^ 63 - 1 < Decimal.digitsValue digits := by decide
  refine ⟨⟨hne, hdigits, hlarge, fun mode machine => ?_⟩, fun mode machine => ?_,
    ⟨by decide, htext .maxValue (by decide)⟩, rfl, rfl,
    hparse .minValue [' '] ['\n'] (List.forall_mem_singleton.mpr rfl)
      (List.forall_mem_singleton.mpr rfl)⟩
  · exact ((hliteral digits hne hdigits mode machine).large hlarge).2
  · obtain ⟨-, m, -, hm, -, hrun⟩ :=
      (hliteral ['0', '0', '7'] (by decide) (List.all_eq_true.mp rfl) mode machine).small
        (by decide)
    have hseven : m.toInt = (-7 : Int64).toInt := hm
    rw [hrun, Int64.toInt_inj.mp hseven]

end ExprLang
