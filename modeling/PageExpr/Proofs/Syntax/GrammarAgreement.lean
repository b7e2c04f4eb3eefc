import PageExpr.Proofs.Syntax.Soundness

/-
  The parser accepts exactly what the grammar derives, and
  builds the one tree that it derives.

  Main declarations:
    * `Grammar.derives_unique`
    * `Expr.parse_eq_ok_iff_of_tokens`
    * `Expr.parse_eq_ok_iff_derives`
-/

namespace PageExpr

------------------------------------------------------------
-- Unique Trees
------------------------------------------------------------

namespace Grammar

/- Tokens with texts and positions that do not matter. -/
def bare
    (ts : List Token) : List SpannedToken :=
  ts.map fun token => ⟨token, "", 0⟩

/- Nothing of the tokens is lost. -/
theorem kinds_bare
    (ts : List Token) :
    Parser.kinds (bare ts) = ts := by
  simp [Parser.kinds, bare, Function.comp_def]

/-
  Tokens derive at most one expression, since the parser finds
  each expression that they derive.
-/
theorem derives_unique
    {level : Level}
    {ts : List Token}
    {e f : Expr}
    (he : Derives level ts e)
    (hf : Derives level ts f) :
    e = f := by
  have hParse :
      ∀ {g : Expr}, Derives level ts g →
        Parser.whole ⟨bare ts, .complete 0⟩ = .ok g := by
    intro g hg
    apply Parser.whole_of_derives
    rw [kinds_bare]
    exact hg.loosen _ (Nat.zero_le _)
  have hEq := (hParse he).symm.trans (hParse hf)
  exact Except.ok.inj hEq

end Grammar

------------------------------------------------------------
-- Texts
------------------------------------------------------------

namespace Parser

/- A stream that breaks off is never read as a whole. -/
theorem whole_broken_ne_ok
    (tokens : List SpannedToken)
    (error : LexError)
    (e : Expr) :
    whole ⟨tokens, .broken error⟩ ≠ .ok e := by
  unfold whole expression
  generalize State.operand .bottom = start
  induction tokens generalizing start with
  | nil => simp [run]
  | cons spanned rest ih =>
      simp only [run]
      cases hStep : step start spanned.token with
      | next state => exact ih state
      | finished value => simp
      | refused expected => simp

end Parser

namespace Expr

/- For texts with tokens, only the tokens matter. -/
theorem parse_eq_ok_iff_of_tokens
    {source : String}
    {tokens : List SpannedToken}
    {position : Nat}
    (h :
      Lexer.tokenize source.toList 0 =
        ⟨tokens, .complete position⟩)
    (e : Expr) :
    parse source = .ok e ↔
      Grammar.Derives .conditional (Parser.kinds tokens) e := by
  rw [parse, parseAt, h]
  exact ⟨Parser.derives_of_whole, Parser.whole_of_derives position⟩

/- A text that is parsed has tokens up to its end. -/
theorem tokenize_of_parse
    {source : String}
    {e : Expr}
    (h : parse source = .ok e) :
    ∃ tokens position,
      Lexer.tokenize source.toList 0 =
        ⟨tokens, .complete position⟩ := by
  cases hStream : Lexer.tokenize source.toList 0 with
  | mk tokens ending =>
      cases ending with
      | complete position => exact ⟨tokens, position, rfl⟩
      | broken error =>
          rw [parse, parseAt, hStream] at h
          exact absurd h (Parser.whole_broken_ne_ok _ _ _)

/-
  A text is parsed as an expression exactly if it consists of
  tokens that derive the expression.  There is no second such
  expression, at no level of the grammar.  So texts with the
  same tokens, in whatever spelling, give the same expression.
-/
theorem parse_eq_ok_iff_derives :
    (∀ (source : String) (e : Expr),
      parse source = .ok e ↔
        ∃ tokens position,
          Lexer.tokenize source.toList 0 =
            ⟨tokens, .complete position⟩ ∧
          Grammar.Derives .conditional (Parser.kinds tokens) e) ∧
    (∀ (level : Grammar.Level) (ts : List Token) (e f : Expr),
      Grammar.Derives level ts e → Grammar.Derives level ts f →
        e = f) ∧
    (∀ (s t : String) (us vs : List SpannedToken) (p q : Nat),
      Lexer.tokenize s.toList 0 = ⟨us, .complete p⟩ →
      Lexer.tokenize t.toList 0 = ⟨vs, .complete q⟩ →
      Parser.kinds us = Parser.kinds vs →
        ∀ e, parse s = .ok e ↔ parse t = .ok e) := by
  refine ⟨?_, ?_, ?_⟩
  · intro source e
    constructor
    · intro hParse
      rcases tokenize_of_parse hParse with
        ⟨tokens, position, hTokens⟩
      exact ⟨tokens, position, hTokens,
        (parse_eq_ok_iff_of_tokens hTokens e).1 hParse⟩
    · rintro ⟨tokens, position, hTokens, hDerives⟩
      exact (parse_eq_ok_iff_of_tokens hTokens e).2 hDerives
  · intro level ts e f he hf
    exact Grammar.derives_unique he hf
  · intro s t us vs p q hs ht hKinds e
    rw [parse_eq_ok_iff_of_tokens hs, parse_eq_ok_iff_of_tokens ht,
      hKinds]

/- The words for operators and both quotes give one tree. -/
theorem parse_words_eq_parse_symbols :
    Parser.kinds (Lexer.tokenize "a and not 'b'".toList 0).tokens =
        Parser.kinds (Lexer.tokenize "a&&!\"b\"".toList 0).tokens ∧
      parse "a and not 'b'" =
        .ok (.binary (.logical .and) (.var "a")
          (.unary .not (.literal (.string "b")))) := by
  have hWords :
      Lexer.tokenize "a and not 'b'".toList 0 =
        ⟨[⟨.identifier "a", "a", 0⟩,
          ⟨.operator (.logical .and), "and", 2⟩, ⟨.not, "not", 6⟩,
          ⟨.string "b", "'b'", 10⟩], .complete 13⟩ := by
    decide +kernel
  have hSymbols :
      Lexer.tokenize "a&&!\"b\"".toList 0 =
        ⟨[⟨.identifier "a", "a", 0⟩,
          ⟨.operator (.logical .and), "&&", 1⟩, ⟨.not, "!", 3⟩,
          ⟨.string "b", "\"b\"", 4⟩], .complete 7⟩ := by
    decide +kernel
  have hName :
      ∀ object : ImplicitObject, object.name ≠ "a" := by
    intro object
    cases object <;> decide
  have hLeft :
      Grammar.Derives .conjunction [.identifier "a"] (.var "a") :=
    (Grammar.Derives.var hName).loosen _ (by decide)
  have hRight :
      Grammar.Derives .prefixed [.string "b"]
        (.literal (.string "b")) :=
    (Grammar.Derives.literal rfl).loosen _ (by decide)
  have hUnary :
      Grammar.Derives .prefixed [.not, .string "b"]
        (.unary .not (.literal (.string "b"))) :=
    .unary .not hRight
  have hDerives :=
    (Grammar.Derives.binary (.logical .and) rfl hLeft
      (hUnary.loosen _ (by decide))).loosen .conditional (by decide)
  have hParse := (parse_eq_ok_iff_derives.1 _ _).2
    ⟨_, _, hSymbols, hDerives⟩
  refine ⟨by rw [hWords, hSymbols]; rfl, ?_⟩
  exact (parse_eq_ok_iff_derives.2.2 _ _ _ _ _ _ hWords hSymbols
    rfl _).2 hParse

end Expr

end PageExpr
