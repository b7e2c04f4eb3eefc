import PageExpr.Proofs.Syntax.Cursor
import PageExpr.Proofs.Syntax.Grammar

/-
  Reading an expression by recursive descent.

  There is one routine for each level of the grammar.  It holds
  one token in hand, asks the lexer for the next one when that
  token is taken, and calls the routines of other levels.  A
  routine of a level with operators that stand behind their
  operand goes through rounds, one for each such operator.

  Calls may be nested only so deep, and loops may take only so
  many rounds, as a bound says; with a bound that is too small
  the reading is given up.  A reading keeps count of the calls
  of the lexer and takes down which routines were running each
  time that one was started.

  Main declarations:
    * `Descent.State`, `Descent.Activation`, `Descent.Reading`
    * `Descent.advance`, `Descent.expect`
    * `Descent.round`, `Descent.routine`
    * `Descent.descend`
    * `Descent.parse`
    * `Descent.Meets`
-/

namespace PageExpr

namespace Descent

open Grammar

------------------------------------------------------------
-- States
------------------------------------------------------------

/-
  A run of the routine of a level, and how many tokens lay
  ahead when it was started.
-/
structure Activation where
  level : Level
  ahead : Nat
deriving DecidableEq

/-
  Where the lexer is, what it found last, how often it has been
  called, and the activations that were running, the innermost
  first, at each start of a routine.
-/
structure State where
  cursor : Lexer.Cursor
  current : Lexer.Lookahead
  calls : Nat
  running : List (List Activation)

/- Why a reading ends without an expression. -/
inductive Stop where
  | rejected (error : SyntaxError)
  | exhausted

/- A part of a reading, which may stop it. -/
abbrev Reading (α : Type) :=
  EStateM Stop State α

namespace State

/- The start of a text, before the lexer is called. -/
def start
    (source : List Char)
    (offset : Nat) : State :=
  ⟨.start source offset, .finish offset, 0, []⟩

/- The token in hand and those that the lexer has yet to find. -/
def stream
    (s : State) : TokenStream :=
  match s.current with
  | .token spanned => s.cursor.stream.cons spanned
  | .finish position => ⟨[], .complete position⟩

/- The tokens that have not been taken. -/
def ahead
    (s : State) : List SpannedToken :=
  s.stream.tokens

/- The token in hand, unless the end has been reached. -/
def token?
    (s : State) : Option Token :=
  match s.current with
  | .token spanned => some spanned.token
  | .finish _ => none

/- The error if what is in hand was not expected. -/
def complaint
    (expected : Expectation)
    (s : State) : SyntaxError :=
  match s.current with
  | .token spanned =>
      .unexpectedToken expected spanned.token spanned.position
  | .finish position => .unexpectedEnd position

end State

------------------------------------------------------------
-- Single Tokens
------------------------------------------------------------

/- The token in hand. -/
def peek : Reading (Option Token) :=
  fun s => .ok s.token? s

/- Something else was expected. -/
def reject
    {α : Type}
    (expected : Expectation) : Reading α :=
  fun s => .error (.rejected (s.complaint expected)) s

/- Call the lexer for the next token. -/
def advance : Reading Unit :=
  fun s =>
    let called := { s with calls := s.calls + 1 }
    match s.cursor.next with
    | .ok (found, cursor) =>
        .ok () { called with cursor := cursor, current := found }
    | .error e => .error (.rejected (.lexical e)) called

/- Take one certain token. -/
def expect
    (token : Token)
    (expected : Expectation) : Reading Unit := do
  let found ← peek
  if found = some token then advance else reject expected

/- The operand that a token is on its own. -/
def operand? : Token → Option Expr
  | .identifier name => some (Parser.reference name)
  | token => (constant? token).map .literal

/- The operator that a token writes before its operand. -/
def prefixOperator? : Token → Option UnaryOp
  | .operator (.arithmetic .subtract) => some .negate
  | .not => some .not
  | .empty => some .empty
  | _ => none

/- The operator that a token writes at a level. -/
def operatorAt?
    (level : Level) : Token → Option BinaryOp
  | .operator op => if levelOf op = level then some op else none
  | _ => none

------------------------------------------------------------
-- Routines
------------------------------------------------------------

section Routines

-- Running the routine of another level.
variable (call : Level → Reading Expr)

/- A constant, a name, or an expression in parentheses. -/
def primary : Reading Expr := do
  match ← peek with
  | some .leftParen =>
      advance
      let inner ← call .conditional
      expect .rightParen .rightParen
      return inner
  | some token =>
      match operand? token with
      | some operand =>
          advance
          return operand
      | none => reject .expression
  | none => reject .expression

/- Operators before an operand. -/
def prefixed : Reading Expr := do
  match (← peek).bind prefixOperator? with
  | some op =>
      advance
      let operand ← call .prefixed
      return .unary op operand
  | none => call .access

/- A condition, and its branches if there are any. -/
def conditional : Reading Expr := do
  let condition ← call .disjunction
  if (← peek) = some .question then
    advance
    let thenBranch ← call .conditional
    expect .colon .colon
    let elseBranch ← call .conditional
    return .conditional condition thenBranch elseBranch
  else return condition

/- One subscript or one name behind an object, if there is one. -/
def accessRound
    (object : Expr) : Reading (Option Expr) := do
  match ← peek with
  | some .leftBracket =>
      advance
      let key ← call .conditional
      expect .rightBracket .rightBracket
      return some (.access object key)
  | some .dot =>
      advance
      match ← peek with
      | some (.identifier name) =>
          advance
          return some (.access object (.literal (.string name)))
      | _ => reject .propertyName
  | _ => return none

/- One operator of the level and its right operand. -/
def binaryRound
    (level : Level)
    (left : Expr) : Reading (Option Expr) := do
  match (← peek).bind (operatorAt? level) with
  | some op =>
      advance
      let right ← call level.next
      return some (.binary op left right)
  | none => return none

/- One round of the loop of a level. -/
def round : Level → Expr → Reading (Option Expr)
  | .access => accessRound call
  | level => binaryRound call level

/- Rounds until one finds nothing more. -/
def rounds
    (round : Expr → Reading (Option Expr)) :
    Nat → Expr → Reading Expr
  | 0, _ => throw .exhausted
  | bound + 1, left => do
      match ← round left with
      | some left => rounds round bound left
      | none => return left

/- The routine of a level. -/
def routine
    (bound : Nat)
    (level : Level) : Reading Expr :=
  match level with
  | .conditional => conditional call
  | .prefixed => prefixed call
  | .primary => primary call
  | level => do
      let first ← call level.next
      rounds (round call level) bound first

end Routines

------------------------------------------------------------
-- Nested Calls
------------------------------------------------------------

/- Take down that a routine is started within others. -/
def enter
    (stack : List Activation) : Reading Unit :=
  fun s => .ok () { s with running := stack :: s.running }

/- The activation of a level in a state. -/
def State.activation
    (s : State)
    (level : Level) : Activation :=
  ⟨level, s.ahead.length⟩

/-
  Run the routine of a level within those that are running,
  with calls that are nested no deeper than the bound.
-/
def descend : Nat → List Activation → Level → Reading Expr
  | 0, _, _ => throw .exhausted
  | bound + 1, outer, level => do
      let stack := (← get).activation level :: outer
      enter stack
      routine (descend bound stack) bound level

/- Read one expression that takes up the whole text. -/
def whole
    (bound : Nat) : Reading Expr := do
  advance
  let value ← descend bound [] .conditional
  if (← peek) = none then return value
  else reject .endOfExpression

/- Read a text that begins at an offset. -/
def parse
    (bound offset : Nat)
    (source : List Char) : EStateM.Result Stop State Expr :=
  whole bound (.start source offset)

------------------------------------------------------------
-- Outcomes
------------------------------------------------------------

/-
  What holds of the value and the state that a part of a
  reading leads to, and what holds where it stops.
-/
def Meets
    {σ α : Type}
    (x : EStateM Stop σ α)
    (s : σ)
    (P : α → σ → Prop)
    (E : Stop → σ → Prop) : Prop :=
  match x s with
  | .ok value s' => P value s'
  | .error stop s' => E stop s'

/- The value that is found, or why there is none. -/
def outcome
    {σ α : Type} : EStateM.Result Stop σ α → Except Stop α
  | .ok value _ => .ok value
  | .error stop _ => .error stop

/- The state that is left, whatever is found. -/
def final
    {σ α : Type} : EStateM.Result Stop σ α → σ
  | .ok _ s => s
  | .error _ s => s

section Outcomes

variable {σ α β : Type} {s s' : σ}
variable {P P' : α → σ → Prop} {Q : β → σ → Prop}
variable {E F : Stop → σ → Prop}

/- A value is there at once. -/
theorem meets_pure
    {value : α}
    (h : P value s) :
    Meets (pure value) s P E :=
  h

/- One part behind the other. -/
theorem Meets.bind
    {x : EStateM Stop σ α}
    {f : α → EStateM Stop σ β}
    (hFirst : Meets x s P E)
    (hThen : ∀ value s', P value s' → Meets (f value) s' Q E) :
    Meets (x >>= f) s Q E := by
  unfold Meets at hFirst
  change Meets (EStateM.bind x f) s Q E
  unfold Meets EStateM.bind
  cases hRun : x s with
  | ok value s' =>
      rw [hRun] at hFirst
      exact hThen value s' hFirst
  | error stop s' =>
      rw [hRun] at hFirst
      exact hFirst

/- Less may be said of the same outcome. -/
theorem Meets.imp
    {x : EStateM Stop σ α}
    (h : Meets x s P E)
    (hValue : ∀ value s', P value s' → P' value s')
    (hStop : ∀ stop s', E stop s' → F stop s') :
    Meets x s P' F := by
  unfold Meets at h ⊢
  cases hRun : x s with
  | ok value s' =>
      rw [hRun] at h
      exact hValue value s' h
  | error stop s' =>
      rw [hRun] at h
      exact hStop stop s' h

/- Two things may be said of one outcome. -/
theorem Meets.and
    {x : EStateM Stop σ α}
    (h : Meets x s P E)
    (h' : Meets x s P' F) :
    Meets x s (fun value s' => P value s' ∧ P' value s')
      (fun stop s' => E stop s' ∧ F stop s') := by
  unfold Meets at h h' ⊢
  cases hRun : x s with
  | ok value s' =>
      rw [hRun] at h h'
      exact ⟨h, h'⟩
  | error stop s' =>
      rw [hRun] at h h'
      exact ⟨h, h'⟩

/- What is met holds of a value that is found. -/
theorem Meets.of_ok
    {x : EStateM Stop σ α}
    {value : α}
    (h : Meets x s P E)
    (hRun : x s = .ok value s') :
    P value s' := by
  rw [Meets, hRun] at h
  exact h

/- What is met holds where it stops. -/
theorem Meets.of_error
    {x : EStateM Stop σ α}
    {stop : Stop}
    (h : Meets x s P E)
    (hRun : x s = .error stop s') :
    E stop s' := by
  rw [Meets, hRun] at h
  exact h

/- What holds of the state in any case holds in the end. -/
theorem Meets.final
    {x : EStateM Stop σ α}
    {R : σ → Prop}
    (h : Meets x s (fun _ => R) (fun _ => R)) :
    R (final (x s)) := by
  unfold Meets at h
  unfold Descent.final
  cases hRun : x s with
  | ok value s' =>
      rw [hRun] at h
      exact h
  | error stop s' =>
      rw [hRun] at h
      exact h

/- A bound that is not exhausted makes no difference. -/
theorem Meets.outcome_eq
    {x : EStateM Stop σ α}
    {result : Except SyntaxError α}
    (h : Meets x s (fun value _ => result = .ok value)
      (fun stop _ => (∀ e, stop = .rejected e → result = .error e) ∧
        stop ≠ .exhausted)) :
    outcome (x s) = result.mapError .rejected := by
  unfold Meets at h
  unfold outcome
  cases hRun : x s with
  | ok value s' =>
      rw [hRun] at h
      change result = .ok value at h
      rw [h]
      rfl
  | error stop s' =>
      rw [hRun] at h
      cases stop with
      | rejected e =>
          rw [h.1 e rfl]
          rfl
      | exhausted => exact absurd rfl h.2

end Outcomes

section Readings

variable {β : Type} {s : State}
variable {Q : β → State → Prop} {E : Stop → State → Prop}

/- The token in hand is known. -/
theorem meets_peek
    {f : Option Token → Reading β}
    (h : Meets (f s.token?) s Q E) :
    Meets (peek >>= f) s Q E :=
  h

/-
  The lexer gives the first of the tokens that it has yet to
  find, or the fault that comes instead of them.
-/
theorem meets_advance
    (s : State) :
    Meets advance s
      (fun _ s' => s'.stream = s.cursor.stream ∧
        s'.calls = s.calls + 1 ∧ s'.running = s.running)
      (fun stop s' =>
        (∃ e, stop = .rejected (.lexical e) ∧
          s.cursor.stream = ⟨[], .broken e⟩) ∧
        s'.calls = s.calls + 1 ∧ s'.running = s.running) := by
  have hReads := s.cursor.reads_next
  unfold Meets advance
  cases hNext : s.cursor.next with
  | error e =>
      rw [hNext] at hReads
      cases hReads with
      | fault hStream => exact ⟨⟨e, rfl, hStream⟩, rfl, rfl⟩
  | ok found =>
      rw [hNext] at hReads
      cases hReads with
      | finish hStream => exact ⟨hStream.symm, rfl, rfl⟩
      | token hStream => exact ⟨hStream.symm, rfl, rfl⟩

/-
  What each round that finds something keeps, for one round
  less, and what the last one ends with, or the loop when no
  rounds are left.
-/
theorem meets_rounds
    {round : Expr → Reading (Option Expr)}
    {I : Nat → Expr → State → Prop}
    {P : Expr → State → Prop}
    {bound : Nat}
    {left : Expr}
    (hRound : ∀ left s n, I (n + 1) left s →
      Meets (round left) s
        (fun
          | some next, s' => I n next s'
          | none, s' => P left s')
        E)
    (hExhausted : ∀ left s, I 0 left s → E .exhausted s)
    (hStart : I bound left s) :
    Meets (rounds round bound left) s P E := by
  induction bound generalizing left s with
  | zero => exact hExhausted left s hStart
  | succ bound ih =>
      refine (hRound left s bound hStart).bind
        fun found s' hFound => ?_
      cases found with
      | none => exact meets_pure hFound
      | some next => exact ih hFound

end Readings

/- With a token in hand, it is the first one ahead. -/
theorem State.stream_of_token?
    {s : State}
    {token : Token}
    (h : s.token? = some token) :
    ∃ spanned, spanned.token = token ∧
      s.current = .token spanned ∧
      s.stream = s.cursor.stream.cons spanned := by
  unfold token? at h
  split at h
  · rename_i spanned hCurrent
    cases h
    refine ⟨spanned, rfl, hCurrent, ?_⟩
    rw [stream, hCurrent]
  · cases h

end Descent

end PageExpr
