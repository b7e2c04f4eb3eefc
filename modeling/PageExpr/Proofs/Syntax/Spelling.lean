import PageExpr.Proofs.Syntax.Branching
import PageExpr.Proofs.Syntax.Completeness

/-
  Which characters spell which tokens.

  Characters spell tokens in front of a rest if these tokens
  are found, wherever the characters begin, and the search then
  goes on with the rest.  Spellings are put together one behind
  the other.

  Main declarations:
    * `TokenStream.prepend`
    * `Lexer.Spells`
    * `Lexer.Spells.append`
    * `Lexer.spells_scan`
    * `Lexer.Delimited`
    * `Lexer.spells_identifier`
    * `Lexer.spells_integer`
    * `Lexer.spells_numeral`
    * `Lexer.spells_string`
    * `Lexer.spells_operator`
-/

namespace PageExpr

namespace TokenStream

/- The stream with tokens before it. -/
def prepend
    (tokens : List SpannedToken)
    (stream : TokenStream) : TokenStream :=
  { stream with tokens := tokens ++ stream.tokens }

/- Tokens are put before a stream one part after the other. -/
theorem prepend_append
    (us vs : List SpannedToken)
    (stream : TokenStream) :
    prepend (us ++ vs) stream = prepend us (prepend vs stream) := by
  simp [prepend]

end TokenStream

namespace Token

/- A word that is no keyword is an identifier. -/
theorem ofWord_eq_identifier
    {word : String}
    (h : isKeyword word = false) :
    ofWord word = .identifier word := by
  rw [ofWord, lookup_keywords_eq_none_iff.2 h, Option.getD_none]

end Token

namespace Lexer

------------------------------------------------------------
-- Spellings
------------------------------------------------------------

/-
  The characters spell the tokens if the rest follows: from
  each position, the tokens are found and then those of the
  rest.
-/
def Spells
    (cs : List Char)
    (ts : List Token)
    (rest : List Char) : Prop :=
  ∀ position, ∃ tokens,
    tokenizeFrom 0 position (cs ++ rest) =
        (tokenizeFrom 0 (position + cs.length) rest).prepend
          tokens ∧
      Parser.kinds tokens = ts

/- Spellings follow each other. -/
theorem Spells.append
    {cs ds rest : List Char}
    {ts us : List Token}
    (hFirst : Spells cs ts (ds ++ rest))
    (hSecond : Spells ds us rest) :
    Spells (cs ++ ds) (ts ++ us) rest := by
  intro position
  rcases hFirst position with ⟨tokens, hTokens, rfl⟩
  rcases hSecond (position + cs.length) with
    ⟨others, hOthers, rfl⟩
  refine ⟨tokens ++ others, ?_, by simp [Parser.kinds]⟩
  rw [List.append_assoc, hTokens, hOthers,
    TokenStream.prepend_append, List.length_append, Nat.add_assoc]

/- A blank spells nothing. -/
theorem spells_blank
    {c : Char}
    (rest : List Char)
    (h : Text.isBlank c = true) :
    Spells [c] [] rest := by
  intro position
  refine ⟨[], ?_, rfl⟩
  rw [List.singleton_append, tokenizeFrom]
  simp only [h, if_true]
  rfl

/- Owed characters are passed over. -/
theorem tokenizeFrom_owed
    (cs rest : List Char)
    (position : Nat) :
    tokenizeFrom cs.length position (cs ++ rest) =
      tokenizeFrom 0 (position + cs.length) rest := by
  induction cs generalizing position with
  | nil => rfl
  | cons c cs ih =>
      rw [List.length_cons, List.cons_append, tokenizeFrom, ih]
      congr 1
      omega

/- What is scanned as a token spells it. -/
theorem spells_scan
    {c : Char}
    {cs rest : List Char}
    {token : Token}
    (hBlank : Text.isBlank c = false)
    (hScan : scan c (cs ++ rest) = .ok (token, cs.length + 1)) :
    Spells (c :: cs) [token] rest := by
  intro position
  let text :=
    String.ofList ((c :: (cs ++ rest)).take (cs.length + 1))
  refine ⟨[⟨token, text, position⟩], ?_, rfl⟩
  rw [List.cons_append, tokenizeFrom]
  simp only [hBlank, hScan, Bool.false_eq_true, if_false]
  rw [Nat.add_sub_cancel, tokenizeFrom_owed, List.length_cons,
    Nat.add_assoc, Nat.add_comm 1]
  rfl

/- The tokens of a text that is spelt to its end. -/
theorem Spells.tokenize
    {cs : List Char}
    {ts : List Token}
    (h : Spells cs ts []) :
    ∃ tokens,
      Lexer.tokenize cs 0 = ⟨tokens, .complete cs.length⟩ ∧
        Parser.kinds tokens = ts := by
  rcases h 0 with ⟨tokens, hTokens, hKinds⟩
  refine ⟨tokens, ?_, hKinds⟩
  rw [List.append_nil] at hTokens
  rw [Lexer.tokenize, hTokens]
  simp [tokenizeFrom, TokenStream.prepend]

------------------------------------------------------------
-- Ends of Words and Numbers
------------------------------------------------------------

/- No word and no number goes on in the rest. -/
structure Delimited
    (rest : List Char) : Prop where
  word : ∀ c ∈ rest.head?, Text.isNamePart c = false
  number : Numeral.Stops rest

/- The end of a text ends words and numbers. -/
theorem delimited_nil :
    Delimited [] :=
  ⟨by simp, rfl, rfl, rfl⟩

/- A character that is no part of either ends both. -/
theorem delimited_cons
    {c : Char}
    (rest : List Char)
    (hWord : Text.isNamePart c = false)
    (hPoint : c ≠ '.') :
    Delimited (c :: rest) := by
  have hDigit : c.isDigit = false := by
    rw [Bool.eq_false_iff]
    intro hDigit
    rw [Text.isNamePart, Text.isAlphanumeric,
      Text.isNumeric_of_isDigit hDigit, Bool.or_true,
      Bool.true_or] at hWord
    cases hWord
  have hMark : c ≠ 'e' ∧ c ≠ 'E' := by
    constructor
    · rintro rfl
      cases hWord
    · rintro rfl
      cases hWord
  refine ⟨by simpa using hWord, Numeral.digits_cons rest hDigit,
    ?_, ?_⟩
  · simp [Numeral.scanFraction, hPoint]
  · simp [Numeral.scanExponent, hMark]

/- A blank ends words and numbers. -/
theorem delimited_space
    (rest : List Char) :
    Delimited (' ' :: rest) :=
  delimited_cons rest (by decide) (by decide)

/- A dot in front of a name ends words and numbers. -/
theorem delimited_dot
    {c : Char}
    (rest : List Char)
    (hName : Text.isNameStart c = true) :
    Delimited ('.' :: c :: rest) := by
  have hDigits := Numeral.digits_cons rest
    (Text.isDigit_of_isNameStart hName)
  refine ⟨by simp; decide, Numeral.digits_cons _ (by decide),
    ?_, ?_⟩
  · simp [Numeral.scanFraction, hDigits]
  · simp [Numeral.scanExponent]

------------------------------------------------------------
-- Words
------------------------------------------------------------

/- The parts of a name are taken up to where the name ends. -/
theorem takeWhile_name
    {cs rest : List Char}
    (hParts : ∀ d ∈ cs, Text.isNamePart d = true)
    (hRest : Delimited rest) :
    (cs ++ rest).takeWhile Text.isNamePart = cs := by
  rw [List.takeWhile_append_of_pos hParts]
  cases rest with
  | nil => rw [List.takeWhile_nil, List.append_nil]
  | cons d rest =>
      have hEnd : Text.isNamePart d = false :=
        hRest.word d (by simp)
      rw [List.takeWhile_cons_of_neg (by simp [hEnd]),
        List.append_nil]

/- A word in front of its end spells the token of the word. -/
theorem spells_word
    {word : String}
    {rest : List Char}
    (hWord : Text.IsIdentifier word)
    (hRest : Delimited rest) :
    Spells word.toList [Token.ofWord word] rest := by
  rcases hWord with ⟨c, cs, hChars, hStart, hParts⟩
  rw [hChars]
  apply spells_scan (Text.isBlank_of_isNameStart hStart)
  rw [scan_eq_scanWord _ hStart, scanWord,
    takeWhile_name hParts hRest, ← hChars, String.ofList_toList,
    hChars]
  rfl

/- A name that is no keyword spells an identifier. -/
theorem spells_identifier
    {name : String}
    {rest : List Char}
    (hName : Text.IsIdentifier name)
    (hKeyword : Token.isKeyword name = false)
    (hRest : Delimited rest) :
    Spells name.toList [.identifier name] rest := by
  have h := spells_word hName hRest
  rwa [Token.ofWord_eq_identifier hKeyword] at h

------------------------------------------------------------
-- Numbers
------------------------------------------------------------

/- A written numeral spells the number that it is scanned as. -/
theorem spells_numeral
    {n : Numeral}
    {mark : Char}
    {token : Token}
    {rest : List Char}
    (hProper : n.Proper)
    (hWhole : n.whole ≠ [])
    (hToken :
      scanNumber (n.written mark ++ rest) =
        .ok (token, n.text.length)) :
    Spells (n.written mark) [token] rest := by
  rcases List.exists_cons_of_ne_nil hWhole with ⟨c, ds, hDigits⟩
  have hDigit : c.isDigit = true :=
    hProper.whole c (by simp [hDigits])
  obtain ⟨cs, hChars⟩ : ∃ cs, n.written mark = c :: cs :=
    ⟨_, by rw [Numeral.written, hDigits, List.cons_append]⟩
  rw [← Numeral.length_written mark hProper, hChars] at hToken
  rw [hChars]
  apply spells_scan (Text.isBlank_of_isDigit hDigit)
  rw [scan_eq_scanNumber _ hDigit]
  exact hToken

/- A number that is not negative spells itself. -/
theorem spells_integer
    {n : Int64}
    {rest : List Char}
    (hNonneg : 0 ≤ n.toInt)
    (hRest : Delimited rest) :
    Spells (toString n.toInt).toList [.integer n] rest := by
  rcases Int.eq_ofNat_of_zero_le hNonneg with ⟨k, hk⟩
  let numeral : Numeral := ⟨.absent, Nat.toDigits 10 k, none, none⟩
  have hProper : numeral.Proper :=
    ⟨rfl, Numeral.allDigits_toDigits k, by simp [numeral],
      by simp [numeral]⟩
  have hText :
      (toString n.toInt).toList = numeral.written 'e' := by
    have hRepr : (toString n.toInt).toList = Nat.toDigits 10 k := by
      rw [hk]
      exact Nat.toList_repr
    rw [hRepr]
    simp [numeral, Numeral.written, Numeral.fractionText,
      Numeral.writtenExponentText]
  have hValue : Integer.ofInt? numeral.toInt = some n := by
    rw [Integer.ofInt?_eq_some_iff]
    simp [hk, numeral, Numeral.toInt, Sign.isMinus,
      Numeral.value_toDigits]
  rw [hText]
  apply spells_numeral hProper Nat.toDigits_ne_nil
  rw [scanNumber,
    Numeral.scan_written (.inl rfl) hProper hRest.number]
  simp only [hValue]
  rfl

/- A finite number with a clear sign spells itself. -/
theorem spells_float
    {x : Binary64}
    {rest : List Char}
    (hFinite : x.isFinite = true)
    (hSign : x.isNegative = false)
    (hRest : Delimited rest) :
    Spells (Value.floatLayout.text x).toList [.float x] rest := by
  have hProper := Value.floatLayout.proper_numeral x
  have hMark : Numeral.IsMark Value.floatLayout.mark := .inr rfl
  have hValue : (Value.floatLayout.numeral x).toBinary64 = x := by
    have hRead := Value.floatLayout.ofDecimal_numeral hFinite
    rw [hSign] at hRead
    rw [Numeral.toBinary64, hProper.sign]
    exact hRead
  rw [Layout.toList_text, hSign]
  apply spells_numeral hProper
    (Value.floatLayout.whole_numeral_ne_nil x)
  rw [scanNumber, Numeral.scan_written hMark hProper hRest.number]
  simp only [Value.floatLayout.isWhole_numeral x rfl, hValue]
  cases x with
  | infinity negative => simp [Binary64.isFinite] at hFinite
  | _ => rfl

------------------------------------------------------------
-- Strings
------------------------------------------------------------

/- Escaped characters are scanned as they were. -/
theorem scanQuoted_escape
    (cs rest : List Char)
    (offset : Nat) :
    scanQuoted '"' offset (cs.flatMap Expr.escape ++ '"' :: rest) =
      .ok (cs, offset + (cs.flatMap Expr.escape).length + 1) := by
  induction cs generalizing offset with
  | nil => simp [scanQuoted.eq_def]
  | cons c cs ih =>
      rw [List.flatMap_cons, List.append_assoc]
      by_cases hEscaped : c = '"' ∨ c = '\\'
      · have hEscape : Expr.escape c = ['\\', c] := by
          simp [Expr.escape, hEscaped]
        have hEscapable : isEscapable c = true := by
          rcases hEscaped with rfl | rfl <;> rfl
        rw [hEscape, List.cons_append, List.singleton_append,
          scanQuoted.eq_def]
        simp [hEscapable, ih, Except.map]
        omega
      · have hEscape : Expr.escape c = [c] := by
          simp [Expr.escape, hEscaped]
        simp only [not_or] at hEscaped
        rw [hEscape, List.singleton_append, scanQuoted.eq_def]
        simp [hEscaped, ih, Except.map]
        omega

/- A string between quotes spells itself. -/
theorem spells_string
    (s : String)
    (rest : List Char) :
    Spells (Expr.quoted s).toList [.string s] rest := by
  have hText :
      (Expr.quoted s).toList =
        '"' :: (s.toList.flatMap Expr.escape ++ ['"']) := by
    simp [Expr.quoted]
  rw [hText]
  apply spells_scan (by decide)
  have hScan :
      ∀ cs, scan '"' cs = scanString '"' cs :=
    fun _ => rfl
  rw [hScan, scanString, List.append_assoc, List.singleton_append,
    scanQuoted_escape]
  simp [Except.map, Nat.add_comm]

------------------------------------------------------------
-- Operators and Signs
------------------------------------------------------------

/- An operator in front of a blank spells itself. -/
theorem spells_operator
    (op : BinaryOp)
    (rest : List Char) :
    Spells op.symbol.toList [.operator op] (' ' :: rest) := by
  rcases op with op | op | op | op <;> cases op <;>
    exact spells_scan (by decide) rfl

/-
  An operator before its operand spells its token, unless an
  equals sign behind it makes it another one.
-/
theorem spells_unary
    (op : UnaryOp)
    {rest : List Char}
    (hRest : ∀ c ∈ rest.head?, c ≠ '=') :
    Spells op.text.toList [Grammar.prefixToken op] rest := by
  cases op with
  | negate => exact spells_scan (by decide) rfl
  | not =>
      change Spells ['!'] [.not] rest
      apply spells_scan (by decide)
      have hScan :
          ∀ cs, scan '!' cs = scanPair '='
            (.operator (.equality .notEqual)) .not cs :=
        fun _ => rfl
      rw [hScan, List.nil_append]
      cases rest with
      | nil => rfl
      | cons c cs => simp [scanPair, hRest c (by simp)]
  | empty =>
      have hWord : Text.IsIdentifier "empty" := by decide
      exact (spells_word hWord (delimited_space rest)).append
        (spells_blank rest (by decide))

/- The signs that are tokens whatever follows them. -/
def signs : List (Char × Token) :=
  [('(', .leftParen), (')', .rightParen), ('[', .leftBracket),
    (']', .rightBracket), ('?', .question), (':', .colon)]

/- A sign spells its token. -/
theorem spells_sign
    {c : Char}
    {token : Token}
    (rest : List Char)
    (h : (c, token) ∈ signs) :
    Spells [c] [token] rest := by
  simp only [signs, List.mem_cons, Prod.mk.injEq, List.not_mem_nil,
    or_false] at h
  rcases h with h | h | h | h | h | h <;> obtain ⟨rfl, rfl⟩ := h <;>
    exact spells_scan (by decide) rfl

/- A sign ends words and numbers. -/
theorem delimited_sign
    {c : Char}
    (rest : List Char)
    (h : c ∈ signs.map Prod.fst) :
    Delimited (c :: rest) := by
  have hSigns :
      (signs.map Prod.fst).all
        (fun sign => !Text.isNamePart sign && sign != '.') =
          true := by
    decide
  have hSign := List.all_eq_true.1 hSigns c h
  simp only [Bool.and_eq_true, Bool.not_eq_true', bne_iff_ne]
    at hSign
  exact delimited_cons rest hSign.1 hSign.2

/- A dot in front of a name spells itself. -/
theorem spells_dot
    {c : Char}
    (cs : List Char)
    (hName : Text.isNameStart c = true) :
    Spells ['.'] [.dot] (c :: cs) := by
  apply spells_scan (by decide)
  have hDigit := Text.isDigit_of_isNameStart hName
  have hStart : Text.isNameStart '.' = false := by decide
  simp [scan, startsWithDigit, hDigit, hStart, punctuation?]

end Lexer

end PageExpr
