import PageExpr.Syntax.Template

/-
  A text that begins further on gives the same tokens, the same
  expressions and the same errors, with positions further on.

  Main declarations:
    * `SyntaxError.shift`
    * `SyntaxError.position_shift`
    * `TokenStream.shift`
    * `Lexer.tokenizeFrom_shift`
    * `Parser.run_shift`
    * `Expr.parseAt_shift`
    * `Template.segmentsFrom_shift`
-/

namespace PageExpr

------------------------------------------------------------
-- Shifted Positions
------------------------------------------------------------

/- The error in a text that begins further on. -/
def SyntaxError.shift
    (n : Nat) : SyntaxError → SyntaxError
  | .lexical error => .lexical (error.shift n)
  | .unexpectedToken expected found position =>
      .unexpectedToken expected found (n + position)
  | .unexpectedEnd position => .unexpectedEnd (n + position)
  | .unterminated position => .unterminated (n + position)

/- Only the position of an error is shifted. -/
theorem SyntaxError.position_shift
    (n : Nat)
    (e : SyntaxError) :
    (e.shift n).position = n + e.position := by
  cases e <;> rfl

/- The token in a text that begins further on. -/
def SpannedToken.shift
    (n : Nat)
    (spanned : SpannedToken) : SpannedToken :=
  { spanned with position := n + spanned.position }

/- The end of a text that begins further on. -/
def StreamEnd.shift
    (n : Nat) : StreamEnd → StreamEnd
  | .complete position => .complete (n + position)
  | .broken error => .broken (error.shift n)

/- The tokens of a text that begins further on. -/
def TokenStream.shift
    (n : Nat)
    (stream : TokenStream) : TokenStream :=
  ⟨stream.tokens.map (SpannedToken.shift n), stream.ending.shift n⟩

------------------------------------------------------------
-- Tokens
------------------------------------------------------------

/- Tokens do not depend on where the text begins. -/
theorem Lexer.tokenizeFrom_shift
    (n owed position : Nat)
    (cs : List Char) :
    tokenizeFrom owed (n + position) cs =
      (tokenizeFrom owed position cs).shift n := by
  induction cs generalizing owed position with
  | nil => rfl
  | cons c cs ih =>
      cases owed with
      | succ owed => exact ih owed (position + 1)
      | zero =>
          rw [tokenizeFrom, tokenizeFrom]
          split
          · exact ih 0 (position + 1)
          · cases hScan : scan c cs with
            | error e =>
                simp [TokenStream.shift, StreamEnd.shift,
                  LexError.shift, Nat.add_assoc]
            | ok found =>
                rcases found with ⟨token, length⟩
                have hRest := ih (length - 1) (position + 1)
                rw [← Nat.add_assoc] at hRest
                simp only [hRest]
                rfl

------------------------------------------------------------
-- Expressions
------------------------------------------------------------

namespace Parser

/- The parser does not depend on where the tokens stand. -/
theorem run_shift
    (n : Nat)
    (ending : StreamEnd)
    (state : State)
    (tokens : List SpannedToken) :
    run (ending.shift n) state
        (tokens.map (SpannedToken.shift n)) =
      match run ending state tokens with
      | .ok (value, rest) =>
          .ok (value, rest.map (SpannedToken.shift n))
      | .error e => .error (e.shift n) := by
  induction tokens generalizing state with
  | nil =>
      cases ending with
      | broken error => rfl
      | complete position =>
          cases hFinish : finish? state <;>
            simp [run, hFinish, StreamEnd.shift, SyntaxError.shift]
  | cons spanned rest ih =>
      rw [List.map_cons, run, run]
      have hToken : (spanned.shift n).token = spanned.token := rfl
      rw [hToken]
      cases step state spanned.token with
      | next state => exact ih state
      | finished value => rfl
      | refused expected => rfl

/- Whole expressions do not depend on where they stand. -/
theorem whole_shift
    (n : Nat)
    (stream : TokenStream) :
    whole (stream.shift n) =
      (whole stream).mapError (SyntaxError.shift n) := by
  rw [whole, whole, expression, expression]
  simp only [TokenStream.shift]
  rw [run_shift]
  cases run stream.ending (.operand .bottom) stream.tokens with
  | error e => rfl
  | ok read =>
      rcases read with ⟨value, rest⟩
      cases rest <;> rfl

end Parser

/- Only errors show where a text begins. -/
theorem Expr.parseAt_shift
    (n offset : Nat)
    (source : List Char) :
    parseAt (n + offset) source =
      (parseAt offset source).mapError (SyntaxError.shift n) := by
  rw [parseAt, parseAt, Lexer.tokenize, Lexer.tokenize,
    Lexer.tokenizeFrom_shift, Parser.whole_shift]

------------------------------------------------------------
-- Templates
------------------------------------------------------------

/- Errors are shifted after a result has been extended. -/
theorem mapError_map
    {α β : Type}
    (n : Nat)
    (f : α → β)
    (result : Except SyntaxError α) :
    (result.map f).mapError (SyntaxError.shift n) =
      (result.mapError (SyntaxError.shift n)).map f := by
  cases result <;> rfl

/- What has been extended without an error was no error. -/
theorem exists_of_map_eq_ok
    {ε α β : Type}
    {f : α → β}
    {result : Except ε α}
    {b : β}
    (h : result.map f = .ok b) :
    ∃ a, result = .ok a ∧ f a = b := by
  cases result with
  | error e => cases h
  | ok a => exact ⟨a, rfl, Except.ok.inj h⟩

/- An error that remains behind an extension was there before. -/
theorem error_of_map_eq_error
    {ε α β : Type}
    {f : α → β}
    {result : Except ε α}
    {e : ε}
    (h : result.map f = .error e) :
    result = .error e := by
  cases result with
  | error other =>
      cases h
      rfl
  | ok a => cases h

/- Segments do not depend on where the text begins. -/
theorem Template.segmentsFrom_shift
    (n owed position : Nat)
    (cs : List Char) :
    segmentsFrom owed (n + position) cs =
      (segmentsFrom owed position cs).mapError
        (SyntaxError.shift n) := by
  induction cs generalizing owed position with
  | nil => rfl
  | cons c cs ih =>
      cases owed with
      | succ owed => exact ih owed (position + 1)
      | zero =>
          have hRest := fun owed => ih owed (position + 1)
          rw [← Nat.add_assoc] at hRest
          rw [segmentsFrom, segmentsFrom]
          cases (if c = '$' then behindBrace? cs else none) with
          | none => simp only [hRest, mapError_map]
          | some inside =>
              dsimp only
              cases closingBrace? none inside with
              | none => rfl
              | some length =>
                  have hBody :=
                    Expr.parseAt_shift n (position + 2)
                      (inside.take length)
                  rw [← Nat.add_assoc] at hBody
                  dsimp only
                  rw [hBody, hRest]
                  cases Expr.parseAt (position + 2)
                      (inside.take length) with
                  | error e => rfl
                  | ok expr => exact (mapError_map n _ _).symm

end PageExpr
