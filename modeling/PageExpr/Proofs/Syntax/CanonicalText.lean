import PageExpr.Proofs.Syntax.CanonicalTree
import PageExpr.Proofs.Syntax.Spelling

/-
  The canonical text of an expression is parsed as the
  expression again.

  The canonical text spells certain tokens, and these tokens
  derive the expression.  Since the parser accepts exactly what
  the grammar derives, the text leads back to the expression.

  Main declarations:
    * `Expr.tokens`
    * `Expr.derives_tokens`
    * `Expr.spells_text`
    * `Expr.parse_text`
    * `Expr.parse_text_of_parse`
-/

namespace PageExpr

namespace Expr

open Grammar (Derives)

------------------------------------------------------------
-- Tokens of Canonical Texts
------------------------------------------------------------

/- The token of a constant that can be written. -/
def literalToken : Value → Token
  | .boolean b => .boolean b
  | .integer n => .integer n
  | .float x => .float x
  | .string s => .string s
  | _ => .null

/- The tokens in parentheses. -/
def parenthesized
    (ts : List Token) : List Token :=
  .leftParen :: (ts ++ [.rightParen])

/- The tokens of the canonical text. -/
def tokens : Expr → List Token
  | .literal value => [literalToken value]
  | .implicit object => [.identifier object.name]
  | .var name => [.identifier name]
  | .access object key =>
      let owner :=
        if object.isUnary then parenthesized object.tokens
        else object.tokens
      match dottedName? key with
      | some name => owner ++ [.dot, .identifier name]
      | none =>
          owner ++ .leftBracket :: (key.tokens ++ [.rightBracket])
  | .binary op left right =>
      parenthesized (left.tokens ++ .operator op :: right.tokens)
  | .unary op operand =>
      Grammar.prefixToken op :: operand.tokens
  | .conditional condition thenBranch elseBranch =>
      parenthesized
        (condition.tokens ++ .question ::
          (thenBranch.tokens ++ .colon :: elseBranch.tokens))

/- The key behind a dot is a plain name. -/
theorem dottedName?_eq_some
    {key : Expr}
    {name : String}
    (h : dottedName? key = some name) :
    key = .literal (.string name) ∧ isPlainName name = true := by
  unfold dottedName? at h
  split at h
  · split at h
    · rename_i hPlain
      cases h
      exact ⟨rfl, hPlain⟩
    · cases h
  · cases h

/- A plain name is an identifier that is no keyword. -/
theorem isPlainName_iff
    {name : String} :
    isPlainName name = true ↔
      Text.IsIdentifier name ∧ Token.isKeyword name = false := by
  unfold isPlainName
  split
  · rename_i hChars
    simp [Text.IsIdentifier, hChars]
  · rename_i c cs hChars
    simp [Text.IsIdentifier, hChars, List.all_eq_true]

------------------------------------------------------------
-- Derivations
------------------------------------------------------------

/- The token of a constant is read as the constant. -/
theorem constant?_literalToken
    {value : Value}
    (h : value.IsConstant) :
    Grammar.constant? (literalToken value) = some value := by
  cases value <;> first | rfl | exact h.elim

/- In parentheses every expression can be accessed. -/
theorem derives_parenthesized
    {ts : List Token}
    {e : Expr}
    (h : Derives .conditional ts e) :
    Derives .access (parenthesized ts) e :=
  (Derives.group h).loosen _ (by decide)

/- The tightest level that derives a canonical text. -/
def outerLevel
    (e : Expr) : Grammar.Level :=
  if e.isUnary then .prefixed else .access

/- A canonical text is an operand of every binary operator. -/
theorem derives_of_outerLevel
    {ts : List Token}
    {e : Expr}
    (level : Grammar.Level)
    (h : Derives e.outerLevel ts e)
    (hRank : level.rank ≤ 7) :
    Derives level ts e := by
  apply h.loosen
  unfold outerLevel
  split
  · exact hRank
  · exact Nat.le_succ_of_le hRank

/- The tokens of a canonical expression derive it. -/
theorem derives_tokens
    {e : Expr}
    (hCanonical : e.Canonical) :
    Derives e.outerLevel e.tokens e := by
  induction e with
  | literal value =>
      have hConstant := constant?_literalToken hCanonical
      exact (Derives.literal hConstant).loosen .access (by decide)
  | implicit object =>
      exact Derives.implicit.loosen .access (by decide)
  | var name =>
      have hName := hCanonical.2.2
      exact (Derives.var hName).loosen .access (by decide)
  | access object key ihObject ihKey =>
      have hObject := ihObject hCanonical.1
      have hOwner :
          Derives .access
            (if object.isUnary then parenthesized object.tokens
            else object.tokens) object := by
        split
        · exact derives_parenthesized
            (derives_of_outerLevel _ hObject (Nat.zero_le _))
        · rename_i hAccess
          rwa [outerLevel, if_neg hAccess] at hObject
      rw [tokens]
      cases hName : dottedName? key with
      | some name =>
          rcases dottedName?_eq_some hName with ⟨rfl, -⟩
          exact hOwner.property
      | none =>
          have hKey := ihKey hCanonical.2
          exact hOwner.subscript
            (derives_of_outerLevel _ hKey (Nat.zero_le _))
  | binary op left right ihLeft ihRight =>
      have hRank := Grammar.rank_levelOf op
      have hNext := Grammar.rank_next_levelOf op
      have hLeft := derives_of_outerLevel (Grammar.levelOf op)
        (ihLeft hCanonical.1) (by omega)
      have hRight := derives_of_outerLevel (Grammar.levelOf op).next
        (ihRight hCanonical.2) (by omega)
      exact derives_parenthesized
        ((Derives.binary op rfl hLeft hRight).loosen _
          (Nat.zero_le _))
  | unary op operand ih =>
      exact .unary op
        (derives_of_outerLevel _ (ih hCanonical) (by decide))
  | conditional condition thenBranch elseBranch ihCondition ihThen
      ihElse =>
      rcases hCanonical with ⟨hCondition, hThen, hElse⟩
      exact derives_parenthesized
        (.conditional
          (derives_of_outerLevel _ (ihCondition hCondition)
            (by decide))
          (derives_of_outerLevel _ (ihThen hThen) (by decide))
          (derives_of_outerLevel _ (ihElse hElse) (by decide)))

------------------------------------------------------------
-- Spellings
------------------------------------------------------------

section Spellings

open Lexer (Spells Delimited)

variable {rest : List Char}

/- The text of a constant spells its token. -/
theorem spells_literalText
    {value : Value}
    (hConstant : value.IsConstant)
    (hRest : Delimited rest) :
    Spells (literalText value).toList [literalToken value]
      rest := by
  cases value with
  | null =>
      have hWord : Text.IsIdentifier "null" := by decide
      exact Lexer.spells_word hWord hRest
  | boolean b =>
      cases b with
      | false =>
          have hWord : Text.IsIdentifier "false" := by decide
          exact Lexer.spells_word hWord hRest
      | true =>
          have hWord : Text.IsIdentifier "true" := by decide
          exact Lexer.spells_word hWord hRest
  | integer n => exact Lexer.spells_integer hConstant hRest
  | float x =>
      rcases hConstant with ⟨hFinite, hSign⟩
      have hText :
          literalText (.float x) = Value.floatLayout.text x := by
        cases x with
        | finite => rfl
        | _ => cases hFinite
      rw [hText]
      exact Lexer.spells_float hFinite hSign hRest
  | string s => exact Lexer.spells_string s rest
  | _ => exact hConstant.elim

/- The name of an implicit object spells its token. -/
theorem spells_implicit
    (object : ImplicitObject)
    (hRest : Delimited rest) :
    Spells object.name.toList [.identifier object.name] rest := by
  have hName :
      Text.IsIdentifier object.name ∧
        Token.isKeyword object.name = false := by
    cases object <;> decide
  exact Lexer.spells_identifier hName.1 hName.2 hRest

/- A text in parentheses spells its tokens in parentheses. -/
theorem spells_parenthesized
    {cs : List Char}
    {ts : List Token}
    (h : Spells cs ts (')' :: rest)) :
    Spells ('(' :: (cs ++ [')'])) (parenthesized ts) rest :=
  (Lexer.spells_sign _ (by decide)).append
    (h.append (Lexer.spells_sign rest (by decide)))

/- The first token of a canonical text is no sign of equality. -/
theorem exists_tokens_eq_cons
    (e : Expr) :
    ∃ token ts, e.tokens = token :: ts ∧
      token ≠ .operator (.equality .equal) := by
  induction e with
  | literal value =>
      refine ⟨_, _, rfl, ?_⟩
      cases value <;> simp [literalToken]
  | access object key ihObject ihKey =>
      have hOwner :
          ∃ token ts,
            (if object.isUnary then parenthesized object.tokens
            else object.tokens) = token :: ts ∧
              token ≠ .operator (.equality .equal) := by
        split
        · exact ⟨_, _, rfl, by simp⟩
        · exact ihObject
      rcases hOwner with ⟨token, ts, hTokens, hToken⟩
      rw [tokens]
      simp only [hTokens]
      split <;> exact ⟨_, _, rfl, hToken⟩
  | unary op operand ih =>
      refine ⟨_, _, rfl, ?_⟩
      cases op <;> simp [Grammar.prefixToken]
  | _ => exact ⟨_, _, rfl, by simp⟩

/-
  A text does not begin with an equals sign if its first token
  does not.
-/
theorem ne_equals_of_spells
    {cs : List Char}
    {token : Token}
    {ts : List Token}
    (h : Spells cs (token :: ts) rest)
    (hToken : token ≠ .operator (.equality .equal)) :
    ∀ c ∈ (cs ++ rest).head?, c ≠ '=' := by
  rintro c hHead rfl
  rcases List.head?_eq_some_iff.1 hHead with ⟨tail, hChars⟩
  rcases h 0 with ⟨found, hFound, hKinds⟩
  obtain ⟨spanned, others, rfl⟩ :
      ∃ spanned others, found = spanned :: others := by
    cases found with
    | nil => cases hKinds
    | cons spanned others => exact ⟨_, _, rfl⟩
  have hSpanned : spanned.token = token :=
    (List.cons.inj hKinds).1
  have hBlank : Text.isBlank '=' = false := by decide
  have hScan :
      Lexer.scan '=' tail =
        Lexer.scanDouble '=' (.operator (.equality .equal)) tail :=
    rfl
  have hTokens := congrArg TokenStream.tokens hFound
  rw [hChars, Lexer.tokenizeFrom] at hTokens
  simp only [hBlank, hScan, Bool.false_eq_true, if_false] at hTokens
  cases hDouble :
      Lexer.scanDouble '=' (.operator (.equality .equal)) tail with
  | error e =>
      rw [hDouble] at hTokens
      cases hTokens
  | ok read =>
      rcases read with ⟨double, length⟩
      rw [hDouble] at hTokens
      have hFirst := (List.cons.inj hTokens).1
      apply hToken
      rw [← hSpanned, ← hFirst]
      exact Lexer.eq_of_scanDouble hDouble

/- Two texts and a token that stands between blanks. -/
theorem spells_between
    {cs mark ds : List Char}
    {ts us : List Token}
    {token : Token}
    (hLeft :
      ∀ {rest : List Char}, Delimited rest → Spells cs ts rest)
    (hMark : ∀ rest, Spells mark [token] (' ' :: rest))
    (hRight : Spells ds us rest) :
    Spells (cs ++ (' ' :: (mark ++ (' ' :: ds))))
      (ts ++ token :: us) rest := by
  have hBlank :
      ∀ rest, Spells [' '] [] rest :=
    fun rest => Lexer.spells_blank rest (by decide)
  have hBehind : Spells (' ' :: ds) us rest :=
    (hBlank _).append hRight
  have hMarked :
      Spells (mark ++ (' ' :: ds)) (token :: us) rest :=
    (hMark _).append hBehind
  have hSpaced :
      Spells (' ' :: (mark ++ (' ' :: ds))) (token :: us) rest :=
    (hBlank _).append hMarked
  exact (hLeft (Lexer.delimited_space _)).append hSpaced

/- A dot and a plain name behind a text. -/
theorem spells_property
    {cs : List Char}
    {ts : List Token}
    {name : String}
    (hOwner :
      ∀ {rest : List Char}, Delimited rest → Spells cs ts rest)
    (hName : isPlainName name = true)
    (hRest : Delimited rest) :
    Spells (cs ++ ('.' :: name.toList))
      (ts ++ [.dot, .identifier name]) rest := by
  rcases isPlainName_iff.1 hName with ⟨hWord, hKeyword⟩
  have hSpells := Lexer.spells_identifier hWord hKeyword hRest
  rcases hWord with ⟨c, ds, hChars, hStart, -⟩
  rw [hChars] at hSpells ⊢
  have hDot :
      Spells ('.' :: c :: ds) [.dot, .identifier name] rest :=
    (Lexer.spells_dot _ hStart).append hSpells
  exact (hOwner (Lexer.delimited_dot _ hStart)).append hDot

/- A key in brackets behind a text. -/
theorem spells_subscript
    {cs ds : List Char}
    {ts us : List Token}
    (hOwner :
      ∀ {rest : List Char}, Delimited rest → Spells cs ts rest)
    (hKey :
      ∀ {rest : List Char}, Delimited rest → Spells ds us rest) :
    Spells (cs ++ ('[' :: (ds ++ [']'])))
      (ts ++ .leftBracket :: (us ++ [.rightBracket])) rest := by
  have hClosing :
      Spells (ds ++ [']']) (us ++ [.rightBracket]) rest :=
    (hKey (Lexer.delimited_sign rest (by decide))).append
      (Lexer.spells_sign rest (by decide))
  have hBrackets :
      Spells ('[' :: (ds ++ [']']))
        (.leftBracket :: (us ++ [.rightBracket])) rest :=
    (Lexer.spells_sign _ (by decide)).append hClosing
  exact (hOwner (Lexer.delimited_sign _ (by decide))).append
    hBrackets

/- What is accessed stands in parentheses if it has to. -/
theorem spells_owner
    {object : Expr}
    (hObject :
      ∀ {rest : List Char}, Delimited rest →
        Spells object.text.toList object.tokens rest)
    (hRest : Delimited rest) :
    Spells
      (if object.isUnary then "(" ++ object.text ++ ")"
      else object.text).toList
      (if object.isUnary then parenthesized object.tokens
      else object.tokens) rest := by
  have hText :
      ("(" ++ object.text ++ ")").toList =
        '(' :: (object.text.toList ++ [')']) := by
    simp
  by_cases hUnary : object.isUnary = true
  · rw [if_pos hUnary, if_pos hUnary, hText]
    exact spells_parenthesized
      (hObject (Lexer.delimited_sign rest (by decide)))
  · rw [if_neg hUnary, if_neg hUnary]
    exact hObject hRest

/- The text of a canonical expression spells its tokens. -/
theorem spells_text
    {e : Expr}
    (hCanonical : e.Canonical)
    (hRest : Delimited rest) :
    Spells e.text.toList e.tokens rest := by
  induction e generalizing rest with
  | literal value => exact spells_literalText hCanonical hRest
  | implicit object => exact spells_implicit object hRest
  | var name =>
      rcases hCanonical with ⟨hName, hKeyword, -⟩
      exact Lexer.spells_identifier hName hKeyword hRest
  | access object key ihObject ihKey =>
      rcases hCanonical with ⟨hObject, hKey⟩
      have hOwner :=
        fun {rest : List Char} (hRest : Delimited rest) =>
          spells_owner (ihObject hObject) hRest
      rw [text, tokens]
      cases hName : dottedName? key with
      | some name =>
          rcases dottedName?_eq_some hName with ⟨-, hPlain⟩
          have hSpells := spells_property hOwner hPlain hRest
          simpa using hSpells
      | none =>
          have hSpells :
              Spells _ (_ ++ .leftBracket :: _) rest :=
            spells_subscript hOwner (ihKey hKey)
          simpa using hSpells
  | binary op left right ihLeft ihRight =>
      rcases hCanonical with ⟨hLeft, hRight⟩
      have hClosed : Delimited (')' :: rest) :=
        Lexer.delimited_sign rest (by decide)
      have hText :
          (binary op left right).text.toList =
            '(' :: (left.text.toList ++
              (' ' :: (op.symbol.toList ++
                (' ' :: right.text.toList))) ++ [')']) := by
        simp [text]
      rw [hText]
      exact spells_parenthesized
        (spells_between (ihLeft hLeft) (Lexer.spells_operator op)
          (ihRight hRight hClosed))
  | unary op operand ih =>
      have hOperand := ih hCanonical hRest
      rcases exists_tokens_eq_cons operand with
        ⟨token, ts, hTokens, hToken⟩
      have hHead :
          ∀ c ∈ (operand.text.toList ++ rest).head?, c ≠ '=' := by
        rw [hTokens] at hOperand
        exact ne_equals_of_spells hOperand hToken
      rw [text, String.toList_append]
      exact (Lexer.spells_unary op hHead).append hOperand
  | conditional condition thenBranch elseBranch ihCondition ihThen
      ihElse =>
      rcases hCanonical with ⟨hCondition, hThen, hElse⟩
      have hClosed : Delimited (')' :: rest) :=
        Lexer.delimited_sign rest (by decide)
      have hText :
          (conditional condition thenBranch
              elseBranch).text.toList =
            '(' :: (condition.text.toList ++
              (' ' :: (['?'] ++ (' ' ::
                (thenBranch.text.toList ++
                  (' ' :: ([':'] ++
                    (' ' :: elseBranch.text.toList))))))) ++
              [')']) := by
        simp [text]
      rw [hText]
      have hQuestion :
          ∀ rest, Spells ['?'] [.question] (' ' :: rest) :=
        fun rest => Lexer.spells_sign _ (by decide)
      have hColon :
          ∀ rest, Spells [':'] [.colon] (' ' :: rest) :=
        fun rest => Lexer.spells_sign _ (by decide)
      have hBranches := spells_between (ihThen hThen) hColon
        (ihElse hElse hClosed)
      exact spells_parenthesized
        (spells_between (ihCondition hCondition) hQuestion hBranches)

end Spellings

------------------------------------------------------------
-- Round Trips
------------------------------------------------------------

/- A canonical expression is read back from its text. -/
theorem parse_text
    {e : Expr}
    (h : e.Canonical) :
    parse e.text = .ok e := by
  have hSpells := spells_text h Lexer.delimited_nil
  rcases hSpells.tokenize with ⟨tokens, hTokens, hKinds⟩
  rw [parse_eq_ok_iff_of_tokens hTokens, hKinds]
  exact derives_of_outerLevel _ (derives_tokens h) (Nat.zero_le _)

/-
  The expressions that come out of the parser are the canonical
  ones, every canonical expression is read back from its text,
  and so different parsed expressions have different texts.
-/
theorem parse_text_of_parse :
    (∀ (source : String) (e : Expr),
      parse source = .ok e → e.Canonical) ∧
    (∀ e : Expr, e.Canonical → parse e.text = .ok e) ∧
    (∀ (s t : String) (e f : Expr),
      parse s = .ok e → parse t = .ok f →
        e.text = f.text → e = f) := by
  refine ⟨fun _ _ => canonical_of_parse, fun _ => parse_text, ?_⟩
  intro s t e f he hf hText
  have hFirst := parse_text (canonical_of_parse he)
  have hSecond := parse_text (canonical_of_parse hf)
  rw [hText] at hFirst
  exact Except.ok.inj (hFirst.symm.trans hSecond)

/- The property of a negation, and the negation of a property. -/
theorem parse_text_negation :
    parse "(-a).b" = .ok
        (.access (.unary .negate (.var "a"))
          (.literal (.string "b"))) ∧
      parse "-a.b" = .ok
        (.unary .negate
          (.access (.var "a") (.literal (.string "b")))) ∧
      (Expr.access (.unary .negate (.var "a"))
        (.literal (.string "b"))).Canonical ∧
      (Expr.access (.unary .negate (.var "a"))
          (.literal (.string "b"))).text ≠
        (Expr.unary .negate
          (.access (.var "a") (.literal (.string "b")))).text := by
  have hName :
      ∀ object : ImplicitObject, object.name ≠ "a" := by
    intro object
    cases object <;> decide
  have hVar : (Expr.var "a").Canonical :=
    ⟨by decide, by decide, hName⟩
  have hFirst :
      parse "(-a).b" = .ok
        (.access (.unary .negate (.var "a"))
          (.literal (.string "b"))) :=
    parse_text_of_parse.2.1
      (.access (.unary .negate (.var "a"))
        (.literal (.string "b")))
      ⟨hVar, trivial⟩
  have hSecond :
      parse "-a.b" = .ok
        (.unary .negate
          (.access (.var "a") (.literal (.string "b")))) :=
    parse_text_of_parse.2.1
      (.unary .negate
        (.access (.var "a") (.literal (.string "b"))))
      ⟨hVar, trivial⟩
  refine ⟨hFirst, hSecond, parse_text_of_parse.1 _ _ hFirst, ?_⟩
  intro hText
  cases parse_text_of_parse.2.2 _ _ _ _ hFirst hSecond hText

end Expr

end PageExpr
