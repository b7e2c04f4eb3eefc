import PageExpr.Proofs.Syntax.GrammarAgreement
import PageExpr.Proofs.Syntax.Spacing

/-
  Errors come at the earliest token that can be wrong.

  The parser takes tokens as long as they can go on to an
  expression: whatever state it has reached, a missing operand
  or name and the closing of all open levels complete it.  So
  the tokens it has taken before an error are the start of an
  expression, and with the refused token they are not.

  Main declarations:
    * `Parser.Rejected`, `Parser.rejected_of_whole`
    * `Expr.Accepted`, `Expr.Viable`
    * `Parser.completion`, `Parser.exists_finish?_completion`
    * `Expr.viable_iff_advance?`
    * `Expr.Earliest`, `Expr.earliest_of_tokenize`
-/

namespace PageExpr

------------------------------------------------------------
-- Rejected Streams
------------------------------------------------------------

namespace Parser

/-
  Why a stream is no expression: all tokens are taken before a
  fault, one token is not taken behind those before it, or all
  tokens are taken and something is missing.
-/
inductive Rejected
    (start : State)
    (stream : TokenStream) : SyntaxError → Prop where
  | lexical
      {state : State}
      {e : LexError}
      (hRead : advance? start (kinds stream.tokens) = some state)
      (hEnding : stream.ending = .broken e) :
      Rejected start stream (.lexical e)
  | unexpectedToken
      {state : State}
      {before after : List SpannedToken}
      {spanned : SpannedToken}
      {expected : Expectation}
      (hTokens : stream.tokens = before ++ spanned :: after)
      (hRead : advance? start (kinds before) = some state)
      (hRefused : advance? state [spanned.token] = none) :
      Rejected start stream
        (.unexpectedToken expected spanned.token spanned.position)
  | unexpectedEnd
      {state : State}
      {position : Nat}
      (hRead : advance? start (kinds stream.tokens) = some state)
      (hEnding : stream.ending = .complete position)
      (hFinish : finish? state = none) :
      Rejected start stream (.unexpectedEnd position)

/- A token that is taken does not change the reason. -/
theorem Rejected.cons
    {start next : State}
    {spanned : SpannedToken}
    {rest : List SpannedToken}
    {ending : StreamEnd}
    {e : SyntaxError}
    (hStep : step start spanned.token = .next next)
    (h : Rejected next ⟨rest, ending⟩ e) :
    Rejected start ⟨spanned :: rest, ending⟩ e := by
  have hFirst :
      ∀ tokens : List SpannedToken,
        advance? start (kinds (spanned :: tokens)) =
          advance? next (kinds tokens) :=
    fun tokens => advance?_cons _ hStep
  cases h with
  | lexical hRead hEnding =>
      exact .lexical ((hFirst rest).trans hRead) hEnding
  | @unexpectedToken state before after other expected hTokens hRead
      hRefused =>
      have hAll :
          spanned :: rest = (spanned :: before) ++ other :: after :=
        congrArg (spanned :: ·) hTokens
      exact .unexpectedToken hAll ((hFirst before).trans hRead)
        hRefused
  | unexpectedEnd hRead hEnding hFinish =>
      exact .unexpectedEnd ((hFirst rest).trans hRead) hEnding
        hFinish

/- The first token may be the one that is not taken. -/
theorem rejected_first
    {start : State}
    {spanned : SpannedToken}
    (rest : List SpannedToken)
    (ending : StreamEnd)
    (expected : Expectation)
    (h : ∀ next, step start spanned.token ≠ .next next) :
    Rejected start ⟨spanned :: rest, ending⟩
      (.unexpectedToken expected spanned.token
        spanned.position) := by
  have hAll : spanned :: rest = [] ++ spanned :: rest := rfl
  have hRefused : advance? start [spanned.token] = none := by
    rw [advance?]
    split
    · rename_i next hStep
      exact absurd hStep (h next)
    · rfl
  exact .unexpectedToken hAll rfl hRefused

/- There is a reason for every error. -/
theorem rejected_of_whole
    {stream : TokenStream}
    {e : SyntaxError}
    (h : whole stream = .error e) :
    Rejected (.operand .bottom) stream e := by
  rcases stream with ⟨tokens, ending⟩
  unfold whole expression at h
  generalize State.operand .bottom = start at h ⊢
  induction tokens generalizing start with
  | nil =>
      simp only [run] at h
      cases ending with
      | broken error =>
          cases h
          exact .lexical rfl rfl
      | complete position =>
          cases hFinish : finish? start with
          | some value => simp [hFinish] at h
          | none =>
              simp only [hFinish, Except.error.injEq] at h
              subst h
              exact .unexpectedEnd rfl rfl hFinish
  | cons spanned rest ih =>
      simp only [run] at h
      cases hStep : step start spanned.token with
      | next next =>
          rw [hStep] at h
          exact (ih next h).cons hStep
      | finished value =>
          rw [hStep] at h
          cases h
          exact rejected_first rest ending _ (by simp [hStep])
      | refused expected =>
          rw [hStep] at h
          cases h
          exact rejected_first rest ending expected (by simp [hStep])

/- Tokens that are all taken before a fault are no obstacle. -/
theorem whole_of_broken
    {tokens : List SpannedToken}
    {state : State}
    {error : LexError}
    (h :
      advance? (.operand .bottom) (kinds tokens) = some state) :
    whole ⟨tokens, .broken error⟩ = .error (.lexical error) := by
  unfold whole expression
  generalize State.operand .bottom = start at h
  induction tokens generalizing start with
  | nil => simp [run]
  | cons spanned rest ih =>
      simp only [kinds, List.map_cons, advance?] at h
      simp only [run]
      cases hStep : step start spanned.token with
      | next next =>
          rw [hStep] at h
          exact ih next h
      | finished value => simp [hStep] at h
      | refused expected => simp [hStep] at h

/- Tokens are taken if more of them are. -/
theorem exists_advance?_of_append
    {start state : State}
    {ts us : List Token}
    (h : advance? start (ts ++ us) = some state) :
    ∃ middle, advance? start ts = some middle ∧
      advance? middle us = some state := by
  induction ts generalizing start with
  | nil => exact ⟨start, rfl, h⟩
  | cons token rest ih =>
      rw [List.cons_append, advance?] at h
      rw [advance?]
      cases hStep : step start token with
      | next next =>
          rw [hStep] at h
          exact ih h
      | finished value => simp [hStep] at h
      | refused expected => simp [hStep] at h

------------------------------------------------------------
-- Completions
------------------------------------------------------------

/- The tokens that are supplied, in their spelling. -/
def fillers : List SpannedToken :=
  [⟨.null, "null", 0⟩, ⟨.identifier "a", "a", 0⟩,
    ⟨.rightParen, ")", 0⟩, ⟨.rightBracket, "]", 0⟩,
    ⟨.colon, ":", 0⟩]

/- What closes an opening behind a complete operand. -/
def closing : Opening → List SpannedToken
  | .group => [⟨.rightParen, ")", 0⟩]
  | .subscript _ => [⟨.rightBracket, "]", 0⟩]
  | .thenBranch _ => [⟨.colon, ":", 0⟩, ⟨.null, "null", 0⟩]

/- What closes all levels that are open. -/
def closings
    (stack : Stack) : List SpannedToken :=
  stack.openings.flatMap fun level => closing level.1

/- What completes an expression from a state on. -/
def completion : State → List SpannedToken
  | .operand stack => ⟨.null, "null", 0⟩ :: closings stack
  | .property _ stack => ⟨.identifier "a", "a", 0⟩ :: closings stack
  | .complete _ stack => closings stack

/- Only fillers are supplied. -/
theorem mem_fillers_of_mem_completion
    (state : State) :
    ∀ spanned ∈ completion state, spanned ∈ fillers := by
  have hClosing :
      ∀ opening, ∀ spanned ∈ closing opening,
        spanned ∈ fillers := by
    intro opening
    cases opening <;> simp [closing, fillers]
  have hClosings :
      ∀ stack, ∀ spanned ∈ closings stack, spanned ∈ fillers := by
    intro stack spanned hMem
    rcases List.mem_flatMap.1 hMem with ⟨level, -, hLevel⟩
    exact hClosing level.1 spanned hLevel
  cases state with
  | operand stack =>
      exact List.forall_mem_cons.2
        ⟨by simp [fillers], hClosings stack⟩
  | property object stack =>
      exact List.forall_mem_cons.2
        ⟨by simp [fillers], hClosings stack⟩
  | complete value stack => exact hClosings stack

/- Behind a complete operand all levels can be closed. -/
theorem exists_finish?_closings
    (openings : List (Opening × List Pending))
    (pending : List Pending)
    (value : Expr) :
    ∃ state e,
      advance? (.complete value ⟨pending, openings⟩)
          (kinds (closings ⟨pending, openings⟩)) = some state ∧
        finish? state = some e := by
  induction openings generalizing pending value with
  | nil => exact ⟨_, settleAll value pending, rfl, rfl⟩
  | cons level openings ih =>
      rcases level with ⟨opening, outer⟩
      cases opening with
      | group => exact ih outer _
      | subscript object => exact ih outer _
      | thenBranch condition => exact ih _ _

/- Every state can be completed. -/
theorem exists_finish?_completion
    (state : State) :
    ∃ last e,
      advance? state (kinds (completion state)) = some last ∧
        finish? last = some e := by
  cases state with
  | operand stack => exact exists_finish?_closings _ stack.pending _
  | property object stack =>
      exact exists_finish?_closings _ stack.pending _
  | complete value stack =>
      exact exists_finish?_closings _ stack.pending _

end Parser

------------------------------------------------------------
-- Starts of Expressions
------------------------------------------------------------

namespace Expr

/- Are these the tokens of a text that is an expression? -/
def Accepted
    (ts : List Token) : Prop :=
  ∃ (source : String) (tokens : List SpannedToken) (stop : Nat)
      (e : Expr),
    Lexer.tokenize source.toList 0 = ⟨tokens, .complete stop⟩ ∧
      Parser.kinds tokens = ts ∧ parse source = .ok e

/- Do the tokens begin those of an expression? -/
def Viable
    (ts : List Token) : Prop :=
  ∃ more, Accepted (ts ++ more)

/- The parser takes all tokens of an expression. -/
theorem exists_advance?_of_accepted
    {ts : List Token}
    (h : Accepted ts) :
    ∃ state e,
      Parser.advance? (.operand .bottom) ts = some state ∧
        Parser.finish? state = some e := by
  rcases h with ⟨source, tokens, stop, e, hTokens, rfl, hParse⟩
  rw [parse, parseAt, hTokens, Parser.whole_eq_ok_iff] at hParse
  rcases hParse with ⟨state, hRead, hFinish⟩
  exact ⟨state, e, hRead, hFinish⟩

/- The parser takes the tokens that begin an expression. -/
theorem exists_advance?_of_viable
    {ts : List Token}
    (h : Viable ts) :
    ∃ state, Parser.advance? (.operand .bottom) ts = some state := by
  rcases h with ⟨more, hAccepted⟩
  rcases exists_advance?_of_accepted hAccepted with
    ⟨last, e, hRead, -⟩
  rcases Parser.exists_advance?_of_append hRead with
    ⟨state, hTaken, -⟩
  exact ⟨state, hTaken⟩

/- The tokens that are supplied stand on their own. -/
theorem stands_of_mem_fillers :
    ∀ spanned ∈ Parser.fillers,
      Lexer.Stands spanned.token spanned.text.toList := by
  have hTokens :
      (Lexer.tokenize "null a ) ] :".toList 0).tokens.map
          SpannedToken.spelling =
        Parser.fillers.map SpannedToken.spelling := by
    decide +kernel
  intro filler hMem
  have hSpelling :
      filler.spelling ∈ Parser.fillers.map SpannedToken.spelling :=
    List.mem_map_of_mem hMem
  rw [← hTokens] at hSpelling
  rcases List.mem_map.1 hSpelling with ⟨spanned, hFound, hSame⟩
  have hStands := Lexer.stands_of_mem_tokenize _ 0 spanned hFound
  have hToken : spanned.token = filler.token :=
    congrArg Prod.fst hSame
  have hText : spanned.text = filler.text :=
    congrArg Prod.snd hSame
  rwa [hToken, hText] at hStands

/-
  Tokens of texts begin an expression exactly if the parser
  takes them.
-/
theorem viable_iff_advance?
    {tokens : List SpannedToken}
    (hTokens :
      ∀ spanned ∈ tokens,
        Lexer.Stands spanned.token spanned.text.toList) :
    Viable (Parser.kinds tokens) ↔
      ∃ state,
        Parser.advance? (.operand .bottom) (Parser.kinds tokens) =
          some state := by
  refine ⟨exists_advance?_of_viable, ?_⟩
  rintro ⟨state, hRead⟩
  rcases Parser.exists_finish?_completion state with
    ⟨last, e, hLast, hFinish⟩
  have hAll :
      ∀ spanned ∈ tokens ++ Parser.completion state,
        Lexer.Stands spanned.token spanned.text.toList := by
    intro spanned hMem
    rcases List.mem_append.1 hMem with hMem | hMem
    · exact hTokens spanned hMem
    · exact stands_of_mem_fillers spanned
        (Parser.mem_fillers_of_mem_completion state spanned hMem)
  rcases Lexer.exists_text hAll with
    ⟨source, found, stop, hSource, hKinds⟩
  have hSplit :
      Parser.kinds found =
        Parser.kinds tokens ++
          Parser.kinds (Parser.completion state) := by
    rw [hKinds, Parser.kinds, List.map_append]
    rfl
  refine ⟨_, source, found, stop, e, hSource, hSplit, ?_⟩
  rw [parse, parseAt, hSource, Parser.whole_eq_ok_iff, hSplit,
    Parser.advance?_append _ hRead]
  exact ⟨last, hLast, hFinish⟩

------------------------------------------------------------
-- Reasons
------------------------------------------------------------

section

variable {stream : TokenStream}

/- All tokens of the stream stand on their own. -/
variable (hStands :
  ∀ spanned ∈ stream.tokens,
    Lexer.Stands spanned.token spanned.text.toList)

include hStands

/-
  The tokens before an unexpected one begin an expression, and
  together with it they do not.
-/
theorem viable_of_unexpectedToken
    {expected : Expectation}
    {found : Token}
    {position : Nat}
    (h : Parser.Rejected (.operand .bottom) stream
      (.unexpectedToken expected found position)) :
    ∃ before spanned after,
      stream.tokens = before ++ spanned :: after ∧
        spanned.position = position ∧ spanned.token = found ∧
        Viable (Parser.kinds before) ∧
        ¬ Viable (Parser.kinds (before ++ [spanned])) := by
  cases h with
  | @unexpectedToken state before after spanned _ hTokens hRead
      hRefused =>
      refine ⟨before, spanned, after, hTokens, rfl, rfl, ?_, ?_⟩
      · refine (viable_iff_advance? fun other hMem => ?_).2
          ⟨state, hRead⟩
        exact hStands other (by simp [hTokens, hMem])
      · intro hMore
        rcases exists_advance?_of_viable hMore with ⟨next, hNext⟩
        rw [Parser.kinds, List.map_append, List.map_singleton,
          ← Parser.kinds, Parser.advance?_append _ hRead, hRefused]
          at hNext
        cases hNext

/-
  Tokens at whose end something is missing begin an expression
  and are none.
-/
theorem viable_of_unexpectedEnd
    {position : Nat}
    (h : Parser.Rejected (.operand .bottom) stream
      (.unexpectedEnd position)) :
    stream.ending = .complete position ∧
      Viable (Parser.kinds stream.tokens) ∧
      ¬ Accepted (Parser.kinds stream.tokens) := by
  cases h with
  | @unexpectedEnd state _ hRead hEnding hFinish =>
      refine ⟨hEnding,
        (viable_iff_advance? hStands).2 ⟨state, hRead⟩, ?_⟩
      intro hAccepted
      rcases exists_advance?_of_accepted hAccepted with
        ⟨other, e, hOther, hDone⟩
      rw [hRead, Option.some.injEq] at hOther
      rw [← hOther, hFinish] at hDone
      cases hDone

/- The tokens before a fault that is met begin an expression. -/
theorem viable_of_lexical
    {e : LexError}
    (h : Parser.Rejected (.operand .bottom) stream (.lexical e)) :
    stream.ending = .broken e ∧
      Viable (Parser.kinds stream.tokens) := by
  cases h with
  | @lexical state _ hRead hEnding =>
      exact ⟨hEnding,
        (viable_iff_advance? hStands).2 ⟨state, hRead⟩⟩

/- A fault is met just if the tokens before it are viable. -/
theorem whole_eq_lexical_iff
    {e : LexError}
    (hBroken : stream.ending = .broken e) :
    Parser.whole stream = .error (.lexical e) ↔
      Viable (Parser.kinds stream.tokens) := by
  constructor
  · intro h
    exact (viable_of_lexical hStands (Parser.rejected_of_whole h)).2
  · intro h
    rcases exists_advance?_of_viable h with ⟨state, hRead⟩
    rcases stream with ⟨tokens, ending⟩
    change ending = .broken e at hBroken
    rw [hBroken]
    exact Parser.whole_of_broken hRead

end

------------------------------------------------------------
-- Errors
------------------------------------------------------------

/-
  Where an error comes, if there is one:
    * at a token that cannot follow those before it, which
      begin an expression
    * at the end of a text without faults, whose tokens begin an
      expression and are none
    * at the fault of a text, if the tokens before it begin an
      expression, and only then
-/
structure Earliest
    (source : String)
    (stream : TokenStream) : Prop where
  unexpectedToken : ∀ expected found position,
    parse source =
        .error (.unexpectedToken expected found position) →
      ∃ before spanned after,
        stream.tokens = before ++ spanned :: after ∧
          spanned.position = position ∧ spanned.token = found ∧
          Viable (Parser.kinds before) ∧
          ¬ Viable (Parser.kinds (before ++ [spanned]))
  unexpectedEnd : ∀ position,
    parse source = .error (.unexpectedEnd position) →
      stream.ending = .complete position ∧
        Viable (Parser.kinds stream.tokens) ∧
        ¬ Accepted (Parser.kinds stream.tokens)
  lexical : ∀ e,
    parse source = .error (.lexical e) →
      stream.ending = .broken e ∧
        Viable (Parser.kinds stream.tokens)
  unterminated : ∀ position,
    parse source ≠ .error (.unterminated position)
  broken : ∀ e,
    stream.ending = .broken e →
      (∀ value, parse source ≠ .ok value) ∧
        (∀ position,
          parse source ≠ .error (.unexpectedEnd position)) ∧
        (parse source = .error (.lexical e) ↔
          Viable (Parser.kinds stream.tokens))

/- An error comes as early as it can. -/
theorem earliest_of_tokenize
    (source : String) :
    Earliest source (Lexer.tokenize source.toList 0) := by
  have hStands := Lexer.stands_of_mem_tokenize source.toList 0
  have hReason :
      ∀ {e}, parse source = .error e →
        Parser.Rejected (.operand .bottom)
          (Lexer.tokenize source.toList 0) e :=
    fun h => Parser.rejected_of_whole h
  refine ⟨fun _ _ _ h => ?_, fun _ h => ?_, fun _ h => ?_,
    fun _ h => ?_, fun e hBroken => ⟨?_, ?_, ?_⟩⟩
  · exact viable_of_unexpectedToken hStands (hReason h)
  · exact viable_of_unexpectedEnd hStands (hReason h)
  · exact viable_of_lexical hStands (hReason h)
  · cases hReason h
  · intro value h
    rcases tokenize_of_parse h with ⟨tokens, position, hTokens⟩
    rw [hTokens] at hBroken
    cases hBroken
  · intro position h
    have hEnd := viable_of_unexpectedEnd hStands (hReason h)
    rw [hBroken] at hEnd
    cases hEnd.1
  · exact whole_eq_lexical_iff hStands hBroken

/-
  A parenthesis where a colon is missing, an end behind a dot,
  and a fault behind an operator.
-/
theorem earliest_of_tokenize_levels :
    parse "a[b?c) 'x" =
        .error (.unexpectedToken .colon .rightParen 5) ∧
      (∃ before spanned after,
        (Lexer.tokenize "a[b?c) 'x".toList 0).tokens =
            before ++ spanned :: after ∧
          spanned.position = 5 ∧ spanned.token = .rightParen ∧
          Viable (Parser.kinds before) ∧
          ¬ Viable (Parser.kinds (before ++ [spanned]))) ∧
      parse "(a." = .error (.unexpectedEnd 3) ∧
      Viable [.leftParen, .identifier "a", .dot] ∧
      ¬ Accepted [.leftParen, .identifier "a", .dot] ∧
      parse "a + 'x" =
        .error (.lexical ⟨.unterminatedString, 4⟩) ∧
      Viable [.identifier "a", .operator (.arithmetic .add)] := by
  have hLevels :
      Lexer.tokenize "a[b?c) 'x".toList 0 =
        ⟨[⟨.identifier "a", "a", 0⟩, ⟨.leftBracket, "[", 1⟩,
          ⟨.identifier "b", "b", 2⟩, ⟨.question, "?", 3⟩,
          ⟨.identifier "c", "c", 4⟩, ⟨.rightParen, ")", 5⟩],
          .broken ⟨.unterminatedString, 7⟩⟩ := by
    decide +kernel
  have hDot :
      Lexer.tokenize "(a.".toList 0 =
        ⟨[⟨.leftParen, "(", 0⟩, ⟨.identifier "a", "a", 1⟩,
          ⟨.dot, ".", 2⟩], .complete 3⟩ := by
    decide +kernel
  have hFault :
      Lexer.tokenize "a + 'x".toList 0 =
        ⟨[⟨.identifier "a", "a", 0⟩,
          ⟨.operator (.arithmetic .add), "+", 2⟩],
          .broken ⟨.unterminatedString, 4⟩⟩ := by
    decide +kernel
  have hToken :
      parse "a[b?c) 'x" =
        .error (.unexpectedToken .colon .rightParen 5) := by
    rw [parse, parseAt, hLevels]
    rfl
  have hEnd : parse "(a." = .error (.unexpectedEnd 3) := by
    rw [parse, parseAt, hDot]
    rfl
  have hLexical :
      parse "a + 'x" =
        .error (.lexical ⟨.unterminatedString, 4⟩) := by
    rw [parse, parseAt, hFault]
    rfl
  have hAtEnd := (earliest_of_tokenize "(a.").unexpectedEnd 3 hEnd
  have hBefore :=
    ((earliest_of_tokenize "a + 'x").broken ⟨.unterminatedString, 4⟩
      (by rw [hFault])).2.2.1 hLexical
  rw [hDot] at hAtEnd
  rw [hFault] at hBefore
  exact ⟨hToken,
    (earliest_of_tokenize "a[b?c) 'x").unexpectedToken _ _ _ hToken,
    hEnd, hAtEnd.2.1, hAtEnd.2.2, hLexical, hBefore⟩

end Expr

end PageExpr
