import PageExpr.Proofs.Syntax.Completeness
import PageExpr.Proofs.Syntax.Descent

/-
  Recursive descent reads what the parser reads.

  The parser is followed from the state that it is in when a
  routine is started.  When the routine gives an expression,
  the parser has come to hold that expression as its operand,
  with the same operators pending, or it would do the same as
  if it had: the token in hand makes it apply the operators
  that the routine has applied.  When the routine stops with an
  error, so does the parser.

  Main declarations:
    * `Descent.resume`
    * `Descent.Ended`
    * `Descent.Follows`, `Descent.follows_descend`
    * `Descent.agrees_whole`
-/

namespace PageExpr

namespace Descent

open Grammar

------------------------------------------------------------
-- Following the Parser
------------------------------------------------------------

/- The parser goes on from a state with the tokens ahead. -/
def resume
    (machine : Parser.State)
    (s : State) : Except SyntaxError (Expr × List SpannedToken) :=
  Parser.run s.stream.ending machine s.stream.tokens

section Following

variable {α : Type} {s : State}
variable {machine machine' : Parser.State}
variable {result : Except SyntaxError (Expr × List SpannedToken)}

/- A reading stops for the error that the parser stops for. -/
def Fails
    (result : Except SyntaxError (Expr × List SpannedToken))
    (stop : Stop)
    (_ : State) : Prop :=
  ∀ e, stop = .rejected e → result = .error e

/- A token that the parser takes is taken. -/
theorem agrees_take
    {token : Token}
    (h : resume machine s = result)
    (hToken : s.token? = some token)
    (hStep : Parser.step machine token = .next machine') :
    Meets advance s (fun _ s' => resume machine' s' = result)
      (Fails result) := by
  rcases s.stream_of_token? hToken with ⟨spanned, rfl, -, hStream⟩
  have hNext :
      result = Parser.run s.cursor.stream.ending machine'
        s.cursor.stream.tokens := by
    rw [← h, resume, hStream]
    simp only [TokenStream.cons, Parser.run, hStep]
  refine (meets_advance s).imp ?_ ?_
  · rintro - s' ⟨hBehind, -, -⟩
    rw [resume, hBehind, hNext]
  · rintro stop s' ⟨⟨e, rfl, hFault⟩, -, -⟩ e' hStop
    cases hStop
    rw [hNext, hFault]
    rfl

/- What the parser refuses is not expected. -/
theorem agrees_reject
    {P : α → State → Prop}
    {expected : Expectation}
    (h : resume machine s = result)
    (hToken : ∀ token, s.token? = some token →
      Parser.step machine token = .refused expected)
    (hFinish : Parser.finish? machine = none) :
    Meets (reject expected) s P (Fails result) := by
  intro e hStop
  cases hStop
  rw [← h, resume, State.complaint, State.stream]
  cases hCurrent : s.current with
  | token spanned =>
      have hRefused := hToken spanned.token (by
        rw [State.token?, hCurrent])
      simp only [TokenStream.cons, Parser.run, hRefused]
  | finish position =>
      simp only [Parser.run, hFinish]

end Following

------------------------------------------------------------
-- Tokens That Go On
------------------------------------------------------------

/-
  How tightly a token binds that goes on behind an operand.  An
  access binds tightest, a question mark loosest.
-/
def tightness? : Token → Option Nat
  | .dot => some 8
  | .leftBracket => some 8
  | .operator op => some op.strength
  | .question => some 0
  | _ => none

/- The token in hand does not go on with a phrase of the level. -/
def Ended
    (level : Level)
    (s : State) : Prop :=
  ∀ token ∈ s.token?, ∀ tightness ∈ tightness? token,
    tightness < level.rank

/- The tokens that go on: accesses, operators, question marks. -/
theorem tightness?_cases
    {token : Token}
    {tightness : Nat}
    (h : tightness? token = some tightness) :
    ((token = .dot ∨ token = .leftBracket) ∧ tightness = 8) ∨
      (∃ op, token = .operator op ∧ tightness = op.strength) ∨
      (token = .question ∧ tightness = 0) := by
  cases token <;> cases h <;> simp

/- Binary operators bind looser than operators before operands. -/
theorem strength_bounds
    (op : BinaryOp) :
    1 ≤ op.strength ∧ op.strength ≤ 6 := by
  rw [strength_eq_rank]
  exact rank_levelOf op

/- Nothing goes on with a primary phrase. -/
theorem ended_primary
    (s : State) :
    Ended .primary s := by
  intro token _ tightness hTightness
  change tightness < 9
  rcases tightness?_cases hTightness with
    ⟨-, rfl⟩ | ⟨op, -, rfl⟩ | ⟨-, rfl⟩
  · decide
  · have hStrength := strength_bounds op
    omega
  · decide

/- At the end of a whole phrase no token in hand goes on. -/
theorem Ended.tightness?_eq
    {s : State}
    {token : Token}
    (h : Ended .conditional s)
    (hToken : s.token? = some token) :
    tightness? token = none := by
  cases hSome : tightness? token with
  | none => rfl
  | some tightness =>
      exact absurd (h token hToken tightness hSome) (Nat.not_lt_zero _)

/- A token that does not go on closes a level, or ends. -/
theorem step_complete_of_none
    {token : Token}
    (value : Expr)
    (stack : Parser.Stack)
    (h : tightness? token = none) :
    Parser.step (.complete value stack) token =
      Parser.stepClose value stack token := by
  cases token <;> first | rfl | cases h

/-
  A pending operator may be applied at once if the token in
  hand makes the parser apply it.
-/
theorem step_push
    {operator : Parser.Pending}
    {token : Token}
    (value : Expr)
    (stack : Parser.Stack)
    (h : ∀ tightness ∈ tightness? token,
      tightness < 8 ∧ max 1 tightness ≤ operator.strength) :
    Parser.step (.complete value (stack.push operator)) token =
      Parser.step (.complete (operator.apply value) stack) token := by
  have hSettle :
      ∀ bound, bound ≤ operator.strength →
        Parser.settle bound value (operator :: stack.pending) =
          Parser.settle bound (operator.apply value) stack.pending :=
    fun bound hBound => by rw [Parser.settle, if_pos hBound]
  cases hTightness : tightness? token with
  | none =>
      rw [step_complete_of_none _ _ hTightness,
        step_complete_of_none _ _ hTightness]
      rfl
  | some tightness =>
      have hApplied := h tightness hTightness
      rcases tightness?_cases hTightness with
        ⟨-, rfl⟩ | ⟨op, rfl, rfl⟩ | ⟨rfl, rfl⟩
      · omega
      · have hSame := hSettle op.strength (by omega)
        simp only [Parser.step, Parser.stepComplete,
          Parser.Stack.push, hSame]
      · have hSame := hSettle 1 (by omega)
        simp only [Parser.step, Parser.stepComplete,
          Parser.Stack.push, hSame]

/- Then the parser does the same with the operator applied. -/
theorem resume_push
    {s : State}
    (operator : Parser.Pending)
    (value : Expr)
    (stack : Parser.Stack)
    (h : ∀ token ∈ s.token?, ∀ tightness ∈ tightness? token,
      tightness < 8 ∧ max 1 tightness ≤ operator.strength) :
    resume (.complete value (stack.push operator)) s =
      resume (.complete (operator.apply value) stack) s := by
  unfold resume State.stream
  cases hCurrent : s.current with
  | token spanned =>
      have hStep := step_push value stack
        (h spanned.token (by rw [State.token?, hCurrent]; rfl))
      simp only [TokenStream.cons, Parser.run, hStep]
  | finish position =>
      have hFinish :
          Parser.finish? (.complete value (stack.push operator)) =
            Parser.finish?
              (.complete (operator.apply value) stack) := by
        rcases stack with ⟨pending, openings⟩
        cases openings <;> rfl
      simp only [Parser.run, hFinish]

------------------------------------------------------------
-- Closing Levels
------------------------------------------------------------

/- The token that closes what has been opened. -/
def closer : Parser.Opening → Token
  | .group => .rightParen
  | .subscript _ => .rightBracket
  | .thenBranch _ => .colon

/- The parser behind the token that closes. -/
def closed
    (inner : Expr)
    (stack : Parser.Stack) : Parser.Opening → Parser.State
  | .group => .complete inner stack
  | .subscript object => .complete (.access object inner) stack
  | .thenBranch condition =>
      .operand (stack.push (.elseBranch condition inner))

/- Behind a whole phrase, what has been opened is closed. -/
theorem agrees_expect
    {s : State}
    {inner : Expr}
    {stack : Parser.Stack}
    {result : Except SyntaxError (Expr × List SpannedToken)}
    (opening : Parser.Opening)
    (h : resume (.complete inner (stack.enter opening)) s = result)
    (hEnded : Ended .conditional s) :
    Meets (expect (closer opening) opening.expects) s
      (fun _ s' => resume (closed inner stack opening) s' = result)
      (Fails result) := by
  refine meets_peek ?_
  split
  · rename_i hToken
    refine agrees_take h hToken ?_
    cases opening <;> rfl
  · rename_i hOther
    refine agrees_reject h (fun token hToken => ?_) rfl
    rw [step_complete_of_none _ _ (hEnded.tightness?_eq hToken)]
    have hNot : token ≠ closer opening :=
      fun hEq => hOther (hEq ▸ hToken)
    cases opening <;> cases token <;>
      first | rfl | exact absurd rfl hNot

------------------------------------------------------------
-- Routines
------------------------------------------------------------

/-
  The routines of access and below leave operators before an
  operand to the routine that calls them.
-/
def Suits
    (level : Level)
    (s : State) : Prop :=
  8 ≤ level.rank → s.token?.bind prefixOperator? = none

/-
  A routine does what the parser does: from where the parser
  expects an operand, it comes to where it holds one that is
  complete.
-/
def Follows
    (level : Level)
    (routine : Reading Expr) : Prop :=
  ∀ {s : State} {stack : Parser.Stack}
    {result : Except SyntaxError (Expr × List SpannedToken)},
    Parser.Fits level stack.pending → Suits level s →
      resume (.operand stack) s = result →
      Meets routine s
        (fun value s' =>
          resume (.complete value stack) s' = result ∧
            Ended level s')
        (Fails result)

/- A token that is an operand of its own completes one. -/
theorem step_operand?
    {token : Token}
    {operand : Expr}
    (stack : Parser.Stack)
    (h : operand? token = some operand) :
    Parser.step (.operand stack) token =
      .next (.complete operand stack) := by
  cases token <;> cases h <;> rfl

/- An operator before its operand becomes pending. -/
theorem step_prefixOperator?
    {token : Token}
    {op : UnaryOp}
    (stack : Parser.Stack)
    (h : prefixOperator? token = some op) :
    Parser.step (.operand stack) token =
      .next (.operand (stack.push (.unary op))) := by
  unfold prefixOperator? at h
  split at h <;> cases h <;> rfl

/- An operator that goes on at a level is one of that level. -/
theorem operatorAt?_eq_some
    {level : Level}
    {token : Token}
    {op : BinaryOp}
    (h : operatorAt? level token = some op) :
    token = .operator op ∧ levelOf op = level := by
  unfold operatorAt? at h
  split at h
  · split at h <;> cases h
    exact ⟨rfl, ‹_›⟩
  · cases h

/- Other tokens start no operand. -/
theorem step_refused
    {token : Token}
    (stack : Parser.Stack)
    (hParen : token ≠ .leftParen)
    (hOperand : operand? token = none)
    (hPrefix : prefixOperator? token = none) :
    Parser.step (.operand stack) token = .refused .expression := by
  cases token with
  | leftParen => exact absurd rfl hParen
  | operator op =>
      rcases op with op | op | op | op <;> cases op <;>
        first | rfl | cases hPrefix
  | not => cases hPrefix
  | empty => cases hPrefix
  | _ => first | rfl | cases hOperand

/- Where a phrase fits, its operators apply none before it. -/
theorem settle_of_fits
    {level : Level}
    {bound : Nat}
    {pending : List Parser.Pending}
    (value : Expr)
    (hFits : Parser.Fits level pending)
    (hLevel : level.rank ≤ 6)
    (hBound : max 1 level.rank = bound) :
    Parser.settle bound value pending = (value, pending) := by
  have hLower := hFits.lt_bound hLevel hBound
  exact Parser.settle_append value (List.forall_mem_nil _) hLower

section Routines

variable {call : Level → Reading Expr}

/- A constant, a name or an expression in parentheses. -/
theorem follows_primary
    (hCall : ∀ level, Follows level (call level)) :
    Follows .primary (primary call) := by
  intro s stack result _ hSuits h
  refine meets_peek ?_
  split
  · rename_i hToken
    refine (agrees_take h hToken rfl).bind fun _ s₁ h₁ => ?_
    refine (hCall .conditional (Parser.fits_nil _)
      (fun hRank => absurd hRank (by decide)) h₁).bind
      fun inner s₂ h₂ => ?_
    refine (agrees_expect .group h₂.1 h₂.2).bind fun _ s₃ h₃ => ?_
    exact meets_pure ⟨h₃, ended_primary s₃⟩
  · rename_i token hParen hToken
    split
    · rename_i operand hOperand
      refine (agrees_take h hToken
        (step_operand? stack hOperand)).bind fun _ s₁ h₁ => ?_
      exact meets_pure ⟨h₁, ended_primary s₁⟩
    · rename_i hOperand
      refine agrees_reject h (fun other hOther => ?_) rfl
      have hSame : other = token :=
        Option.some.inj (hOther.symm.trans hToken)
      have hPrefix := hSuits (by decide)
      rw [hToken, Option.bind_some] at hPrefix
      rw [hSame]
      exact step_refused stack (fun hEq => hParen hEq) hOperand
        hPrefix
  · rename_i hToken
    refine agrees_reject h (fun other hOther => ?_) rfl
    rw [hToken] at hOther
    cases hOther

/- Operators before an operand. -/
theorem follows_prefixed
    (hCall : ∀ level, Follows level (call level)) :
    Follows .prefixed (prefixed call) := by
  intro s stack result _ _ h
  refine meets_peek ?_
  split
  · rename_i op hOperator
    rcases Option.bind_eq_some_iff.1 hOperator with
      ⟨token, hToken, hOp⟩
    refine (agrees_take h hToken
      (step_prefixOperator? stack hOp)).bind fun _ s₁ h₁ => ?_
    refine (hCall .prefixed (Or.inl (Nat.le_refl 7))
      (fun hRank => absurd hRank (by decide)) h₁).bind
      fun operand s₂ h₂ => ?_
    refine meets_pure ⟨?_, h₂.2⟩
    rw [← h₂.1]
    refine (resume_push (.unary op) operand stack ?_).symm
    intro other hOther tightness hTightness
    have hLess := h₂.2 other hOther tightness hTightness
    simp only [Level.rank, Parser.Pending.strength] at hLess ⊢
    omega
  · rename_i hNone
    refine (hCall .access (Or.inl (by decide)) (fun _ => hNone)
      h).imp (fun value s' hValue => ⟨hValue.1, ?_⟩)
      fun _ _ hStop => hStop
    intro other hOther tightness hTightness
    have hLess := hValue.2 other hOther tightness hTightness
    rcases tightness?_cases hTightness with
      ⟨-, rfl⟩ | ⟨op, -, rfl⟩ | ⟨-, rfl⟩
    · exact absurd hLess (by decide)
    · exact Nat.lt_succ_of_le (strength_bounds op).2
    · decide

/- A condition, and its branches if there are any. -/
theorem follows_conditional
    (hCall : ∀ level, Follows level (call level)) :
    Follows .conditional (conditional call) := by
  intro s stack result hFits _ h
  have hInner :
      ∀ {s : State} {stack : Parser.Stack},
        Parser.Fits .conditional stack.pending →
        resume (.operand stack) s = result → _ :=
    fun hFits h => hCall .conditional hFits
      (fun hRank => absurd hRank (by decide)) h
  refine (hCall .disjunction (hFits.tighten (Nat.zero_le 1))
    (fun hRank => absurd hRank (by decide)) h).bind
    fun condition s₁ h₁ => ?_
  refine meets_peek ?_
  split
  · rename_i hToken
    have hSettle := settle_of_fits condition hFits (by decide) rfl
    refine (agrees_take h₁.1 hToken
      (Parser.step_question hSettle)).bind fun _ s₂ h₂ => ?_
    refine (hInner (Parser.fits_nil _) h₂).bind
      fun thenBranch s₃ h₃ => ?_
    refine (agrees_expect (.thenBranch condition) h₃.1
      h₃.2).bind fun _ s₄ h₄ => ?_
    refine (hInner (Or.inr ?_) h₄).bind fun elseBranch s₅ h₅ => ?_
    · simp [Parser.Stack.push, Parser.Pending.strength, Level.rank]
    · refine meets_pure ⟨?_, h₅.2⟩
      rw [← h₅.1]
      refine (resume_push (.elseBranch condition thenBranch)
        elseBranch stack ?_).symm
      intro other hOther tightness hTightness
      exact absurd (h₅.2 other hOther tightness hTightness)
        (Nat.not_lt_zero _)
  · rename_i hOther
    refine meets_pure ⟨h₁.1, ?_⟩
    intro other hToken tightness hTightness
    have hLess := h₁.2 other hToken tightness hTightness
    simp only [Level.rank] at hLess
    rcases tightness?_cases hTightness with
      ⟨-, rfl⟩ | ⟨op, -, rfl⟩ | ⟨rfl, -⟩
    · omega
    · have hStrength := strength_bounds op
      omega
    · exact absurd hToken hOther

------------------------------------------------------------
-- Rounds
------------------------------------------------------------

/-
  Before a round of a level, the parser holds the left operand,
  and the token in hand goes on at no tighter level.
-/
def Holds
    (level : Level)
    (stack : Parser.Stack)
    (result : Except SyntaxError (Expr × List SpannedToken))
    (left : Expr)
    (s : State) : Prop :=
  resume (.complete left stack) s = result ∧ Ended level.next s

/- What a round leads to: a longer operand, or the end. -/
def Rounded
    (level : Level)
    (stack : Parser.Stack)
    (result : Except SyntaxError (Expr × List SpannedToken))
    (left : Expr) : Option Expr → State → Prop
  | some next, s' => Holds level stack result next s'
  | none, s' =>
      resume (.complete left stack) s' = result ∧ Ended level s'

variable {s : State} {stack : Parser.Stack}
variable {result : Except SyntaxError (Expr × List SpannedToken)}

/- A subscript or a name behind an object. -/
theorem agrees_accessRound
    (hCall : ∀ level, Follows level (call level))
    (object : Expr)
    (h : Holds .access stack result object s) :
    Meets (accessRound call object) s
      (Rounded .access stack result object) (Fails result) := by
  refine meets_peek ?_
  split
  · rename_i hToken
    refine (agrees_take h.1 hToken rfl).bind fun _ s₁ h₁ => ?_
    refine (hCall .conditional (Parser.fits_nil _)
      (fun hRank => absurd hRank (by decide)) h₁).bind
      fun key s₂ h₂ => ?_
    refine (agrees_expect (.subscript object) h₂.1 h₂.2).bind
      fun _ s₃ h₃ => ?_
    exact meets_pure ⟨h₃, ended_primary s₃⟩
  · rename_i hToken
    refine (agrees_take h.1 hToken rfl).bind fun _ s₁ h₁ => ?_
    refine meets_peek ?_
    split
    · rename_i name hName
      refine (agrees_take h₁ hName rfl).bind fun _ s₂ h₂ => ?_
      exact meets_pure ⟨h₂, ended_primary s₂⟩
    · rename_i hOther
      refine agrees_reject h₁ (fun token hToken => ?_) rfl
      cases token with
      | identifier name => exact absurd hToken (hOther name)
      | _ => rfl
  · rename_i hBracket hDot
    refine meets_pure ⟨h.1, ?_⟩
    intro token hToken tightness hTightness
    rcases tightness?_cases hTightness with
      ⟨rfl | rfl, -⟩ | ⟨op, -, rfl⟩ | ⟨-, rfl⟩
    · exact absurd hToken hDot
    · exact absurd hToken hBracket
    · have hStrength := strength_bounds op
      simp only [Level.rank]
      omega
    · decide

/- An operator of the level and its right operand. -/
theorem agrees_binaryRound
    {level : Level}
    (hCall : ∀ level, Follows level (call level))
    (hLevel : 1 ≤ level.rank ∧ level.rank ≤ 6)
    (hFits : Parser.Fits level stack.pending)
    (left : Expr)
    (h : Holds level stack result left s) :
    Meets (binaryRound call level left) s
      (Rounded level stack result left) (Fails result) := by
  have hNext : level.next.rank = level.rank + 1 := by
    apply Level.rank_next
    rintro rfl
    exact absurd hLevel.2 (by decide)
  refine meets_peek ?_
  split
  · rename_i op hOperator
    rcases Option.bind_eq_some_iff.1 hOperator with
      ⟨token, hToken, hOp⟩
    rcases operatorAt?_eq_some hOp with ⟨rfl, rfl⟩
    have hStrength := strength_eq_rank op
    have hBound : max 1 (levelOf op).rank = op.strength := by
      omega
    have hSettle := settle_of_fits left hFits hLevel.2 hBound
    refine (agrees_take h.1 hToken
      (Parser.step_operator hSettle)).bind fun _ s₁ h₁ => ?_
    refine (hCall _ (Parser.fits_binary op left stack.pending)
      (fun hRank => by omega) h₁).bind fun right s₂ h₂ => ?_
    refine meets_pure ⟨?_, h₂.2⟩
    rw [← h₂.1]
    refine (resume_push (.binary op left) right stack ?_).symm
    intro other hOther tightness hTightness
    have hLess := h₂.2 other hOther tightness hTightness
    simp only [Parser.Pending.strength]
    omega
  · rename_i hNone
    refine meets_pure ⟨h.1, ?_⟩
    intro token hToken tightness hTightness
    have hLess := h.2 token hToken tightness hTightness
    rcases tightness?_cases hTightness with
      ⟨-, rfl⟩ | ⟨op, rfl, rfl⟩ | ⟨-, rfl⟩
    · omega
    · -- An operator of the level would have gone on.
      have hOther : levelOf op ≠ level := by
        rintro rfl
        rw [Option.mem_def.1 hToken] at hNone
        simp [operatorAt?] at hNone
      have hRank : op.strength ≠ level.rank := by
        rw [strength_eq_rank]
        exact fun hEq => hOther (Level.eq_of_rank_eq hEq)
      omega
    · omega

/- The levels whose operators stand behind their operands. -/
def HasRounds
    (level : Level) : Prop :=
  level = .access ∨ 1 ≤ level.rank ∧ level.rank ≤ 6

/- A round of any level that has some. -/
theorem agrees_round
    {level : Level}
    (hCall : ∀ level, Follows level (call level))
    (hLevel : HasRounds level)
    (hFits : Parser.Fits level stack.pending)
    (left : Expr)
    (h : Holds level stack result left s) :
    Meets (round call level left) s
      (Rounded level stack result left) (Fails result) := by
  unfold round
  rcases hLevel with rfl | hRank
  · exact agrees_accessRound hCall left h
  · split
    · exact absurd hRank (by decide)
    · exact agrees_binaryRound hCall hRank hFits left h

/- A first operand and all rounds behind it. -/
theorem follows_loop
    {level : Level}
    (bound : Nat)
    (hCall : ∀ level, Follows level (call level))
    (hLevel : HasRounds level) :
    Follows level
      (do
        let first ← call level.next
        rounds (round call level) bound first) := by
  intro s stack result hFits hSuits h
  have hNext : level.next.rank = level.rank + 1 := by
    apply Level.rank_next
    rintro rfl
    exact absurd hLevel (by unfold HasRounds; decide)
  have hSuitsNext : Suits level.next s := by
    intro hRank
    rcases hLevel with rfl | hLevel
    · exact hSuits (by decide)
    · omega
  refine (hCall level.next (hFits.tighten (by omega)) hSuitsNext
    h).bind fun first s₁ h₁ => ?_
  refine meets_rounds (I := fun _ => Holds level stack result)
    ?_ ?_ h₁
  · intro left s _ hLeft
    refine (agrees_round hCall hLevel hFits left hLeft).imp
      (fun found s' hFound => ?_) fun _ _ hStop => hStop
    cases found <;> exact hFound
  · rintro left s - e hStop
    cases hStop

/- The routine of a level, with any other routines at hand. -/
theorem follows_routine
    (bound : Nat)
    (hCall : ∀ level, Follows level (call level))
    (level : Level) :
    Follows level (routine call bound level) := by
  cases level with
  | conditional => exact follows_conditional hCall
  | prefixed => exact follows_prefixed hCall
  | primary => exact follows_primary hCall
  | access => exact follows_loop bound hCall (Or.inl rfl)
  | _ => exact follows_loop bound hCall (Or.inr (by decide))

end Routines

------------------------------------------------------------
-- Whole Texts
------------------------------------------------------------

/- Each routine does what the parser does. -/
theorem follows_descend
    (bound : Nat)
    (outer : List Activation)
    (level : Level) :
    Follows level (descend bound outer level) := by
  induction bound generalizing outer level with
  | zero =>
      intro s stack result _ _ _ e hStop
      cases hStop
  | succ bound ih =>
      intro s stack result hFits hSuits h
      exact follows_routine bound (fun level => ih _ level) level
        hFits hSuits h

/- Behind an expression the parser leaves the tokens ahead. -/
theorem resume_complete
    {s : State}
    (value : Expr)
    (hEnded : Ended .conditional s) :
    resume (.complete value .bottom) s = .ok (value, s.ahead) := by
  rw [resume, State.ahead, State.stream]
  cases hCurrent : s.current with
  | finish position => rfl
  | token spanned =>
      have hToken : s.token? = some spanned.token := by
        rw [State.token?, hCurrent]
      have hStep := step_complete_of_none value .bottom
        (hEnded.tightness?_eq hToken)
      simp only [TokenStream.cons, Parser.run, hStep]
      rfl

/- A whole text has been read if nothing is left. -/
theorem agrees_end
    {s : State}
    {stream : TokenStream}
    (value : Expr)
    (h : Parser.expression stream = .ok (value, s.ahead)) :
    Meets
      (do
        if (← peek) = none then return value
        else reject .endOfExpression)
      s (fun value _ => Parser.whole stream = .ok value)
      (fun stop _ => ∀ e, stop = .rejected e →
        Parser.whole stream = .error e) := by
  refine meets_peek ?_
  rw [Parser.whole, h, State.ahead, State.stream, State.token?]
  cases hCurrent : s.current with
  | finish position => exact meets_pure rfl
  | token spanned =>
      intro e hStop
      cases hStop
      rw [State.complaint, hCurrent]
      rfl

/-
  A text is read as the parser reads it, if the bound is not
  exhausted.
-/
theorem agrees_whole
    (bound offset : Nat)
    (source : List Char) :
    Meets (whole bound) (.start source offset)
      (fun value _ => Expr.parseAt offset source = .ok value)
      (fun stop _ => ∀ e, stop = .rejected e →
        Expr.parseAt offset source = .error e) := by
  rw [Expr.parseAt]
  refine ((meets_advance (.start source offset)).imp
    (fun _ s₁ h₁ => h₁.1) ?_).bind fun _ s₁ hStream => ?_
  · rintro stop s' ⟨⟨e, rfl, hFault⟩, -, -⟩ e' hStop
    cases hStop
    exact congrArg Parser.whole hFault
  · have hStart :
        resume (.operand .bottom) s₁ =
          Parser.expression (Lexer.tokenize source offset) :=
      congrArg Parser.expression hStream
    have hDescend := follows_descend bound [] .conditional
      (Parser.fits_nil _) (fun hRank => absurd hRank (by decide))
      hStart
    refine (hDescend.imp (fun _ _ h => h) ?_).bind
      fun value s₂ h₂ => ?_
    · intro stop _ hFails e hStop
      rw [Parser.whole, hFails e hStop]
    · rw [resume_complete value h₂.2] at h₂
      exact agrees_end value h₂.1.symm

end Descent

end PageExpr
