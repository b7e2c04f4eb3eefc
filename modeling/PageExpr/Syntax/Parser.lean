import PageExpr.Syntax.Expr

/-
  Reading the tokens of an expression.

  The parser takes one token after the other.  Between two
  tokens it waits for an operand, or for the name behind a dot,
  or it holds a complete operand that may go on.  Operators
  whose right side is being read are pending; a parenthesis,
  a bracket or a question mark opens a new level of pending
  operators, which its counterpart closes.

  From loosest to tightest the operators are the conditional,
  `||`, `&&`, equality, order, sums, products and the operators
  before an operand; an access binds tightest.  When an
  operator comes, those pending operators are applied that bind
  at least as tightly.

  Main declarations:
    * `SyntaxError`
    * `Parser.Pending`, `Parser.Opening`, `Parser.State`
    * `Parser.settle`
    * `Parser.step`
    * `Parser.run`
    * `Expr.parse`
-/

namespace PageExpr

------------------------------------------------------------
-- Errors
------------------------------------------------------------

/- What could stand where something else was found. -/
inductive Expectation where
  | expression
  | propertyName
  | rightParen
  | rightBracket
  | colon
  | endOfExpression
deriving DecidableEq

namespace Expectation

/- The expectation, as messages show it. -/
def text : Expectation → String
  | .expression => "an expression"
  | .propertyName => "property name after '.'"
  | .rightParen => "')'"
  | .rightBracket => "']'"
  | .colon => "':'"
  | .endOfExpression => "end of expression"

end Expectation

/- Why a text is not an expression or not a template. -/
inductive SyntaxError where
  | lexical (error : LexError)
  | unexpectedToken
      (expected : Expectation)
      (found : Token)
      (position : Nat)
  | unexpectedEnd (position : Nat)
  | unterminated (position : Nat)
deriving DecidableEq

namespace SyntaxError

/- The position of the first character that is wrong. -/
def position : SyntaxError → Nat
  | .lexical error => error.position
  | .unexpectedToken _ _ position => position
  | .unexpectedEnd position => position
  | .unterminated position => position

/- The error, as messages show it. -/
def message : SyntaxError → String
  | .lexical error => error.message
  | .unexpectedToken expected found position =>
      "Expected " ++ expected.text ++ ", found " ++
        found.describe ++ " at position " ++ toString position
  | .unexpectedEnd position =>
      "Unexpected end of expression at position " ++
        toString position
  | .unterminated position =>
      "Unterminated '$\x7b' starting at position " ++
        toString position

end SyntaxError

namespace Parser

------------------------------------------------------------
-- States
------------------------------------------------------------

/- An operator whose last operand is being read. -/
inductive Pending where
  | binary (op : BinaryOp) (left : Expr)
  | unary (op : UnaryOp)
  | elseBranch (condition thenBranch : Expr)

namespace Pending

/- How tightly the operator binds. -/
def strength : Pending → Nat
  | .elseBranch .. => 0
  | .binary op _ => op.strength
  | .unary _ => 7

/- Give the operator its last operand. -/
def apply : Pending → Expr → Expr
  | .binary op left, right => .binary op left right
  | .unary op, operand => .unary op operand
  | .elseBranch condition thenBranch, last =>
      .conditional condition thenBranch last

end Pending

/- What waits for its counterpart. -/
inductive Opening where
  | group
  | subscript (object : Expr)
  | thenBranch (condition : Expr)

namespace Opening

/- What has to come when the operand inside is complete. -/
def expects : Opening → Expectation
  | .group => .rightParen
  | .subscript _ => .rightBracket
  | .thenBranch _ => .colon

end Opening

/-
  The pending operators of the innermost level, and the levels
  around it, the innermost opening first.
-/
structure Stack where
  pending : List Pending
  openings : List (Opening × List Pending)

namespace Stack

/- Nothing has been read. -/
def bottom : Stack :=
  ⟨[], []⟩

/- Add a pending operator. -/
def push
    (operator : Pending)
    (stack : Stack) : Stack :=
  { stack with pending := operator :: stack.pending }

/- Start a new level. -/
def enter
    (opening : Opening)
    (stack : Stack) : Stack :=
  ⟨[], (opening, stack.pending) :: stack.openings⟩

end Stack

/-
  What the parser waits for: an operand, the name behind a dot,
  or whatever follows a complete operand.
-/
inductive State where
  | operand (stack : Stack)
  | property (object : Expr) (stack : Stack)
  | complete (value : Expr) (stack : Stack)

/- The result of looking at one token. -/
inductive Step where
  | next (state : State)
  | finished (value : Expr)
  | refused (expected : Expectation)

------------------------------------------------------------
-- Steps
------------------------------------------------------------

/-
  Apply the pending operators that bind at least as tightly as
  the bound.
-/
def settle
    (bound : Nat) :
    Expr → List Pending → Expr × List Pending
  | value, [] => (value, [])
  | value, operator :: rest =>
      if bound ≤ operator.strength then
        settle bound (operator.apply value) rest
      else (value, operator :: rest)

/- Apply all pending operators of a level. -/
def settleAll
    (value : Expr)
    (pending : List Pending) : Expr :=
  pending.foldl (fun value operator => operator.apply value) value

/- The expression of a name. -/
def reference
    (name : String) : Expr :=
  match ImplicitObject.ofName? name with
  | some object => .implicit object
  | none => .var name

/- A token where an operand is expected. -/
def stepOperand
    (stack : Stack) : Token → Step
  | .float x => .next (.complete (.literal (.float x)) stack)
  | .integer n => .next (.complete (.literal (.integer n)) stack)
  | .string s => .next (.complete (.literal (.string s)) stack)
  | .boolean b => .next (.complete (.literal (.boolean b)) stack)
  | .null => .next (.complete (.literal .null) stack)
  | .identifier name => .next (.complete (reference name) stack)
  | .leftParen => .next (.operand (stack.enter .group))
  | .operator (.arithmetic .subtract) =>
      .next (.operand (stack.push (.unary .negate)))
  | .not => .next (.operand (stack.push (.unary .not)))
  | .empty => .next (.operand (stack.push (.unary .empty)))
  | _ => .refused .expression

/- A token behind a dot. -/
def stepProperty
    (object : Expr)
    (stack : Stack) : Token → Step
  | .identifier name =>
      .next
        (.complete (.access object (.literal (.string name))) stack)
  | _ => .refused .propertyName

/-
  A token that cannot go on with the operand closes the
  innermost level, or else it ends the expression.
-/
def stepClose
    (value : Expr)
    (stack : Stack)
    (token : Token) : Step :=
  let inner := settleAll value stack.pending
  match stack.openings with
  | [] => .finished inner
  | (opening, pending) :: openings =>
      let outer : Stack := ⟨pending, openings⟩
      match opening, token with
      | .group, .rightParen => .next (.complete inner outer)
      | .subscript object, .rightBracket =>
          .next (.complete (.access object inner) outer)
      | .thenBranch condition, .colon =>
          .next (.operand (outer.push (.elseBranch condition inner)))
      | _, _ => .refused opening.expects

/- A token behind a complete operand. -/
def stepComplete
    (value : Expr)
    (stack : Stack) : Token → Step
  | .dot => .next (.property value stack)
  | .leftBracket => .next (.operand (stack.enter (.subscript value)))
  | .question =>
      let (condition, pending) := settle 1 value stack.pending
      let outer : Stack := { stack with pending := pending }
      .next (.operand (outer.enter (.thenBranch condition)))
  | .operator op =>
      let (left, pending) := settle op.strength value stack.pending
      let outer : Stack := { stack with pending := pending }
      .next (.operand (outer.push (.binary op left)))
  | token => stepClose value stack token

/- Look at one token. -/
def step : State → Token → Step
  | .operand stack, token => stepOperand stack token
  | .property object stack, token =>
      stepProperty object stack token
  | .complete value stack, token => stepComplete value stack token

/-
  The expression at the end of the tokens, if a complete one
  has been read and no level is open.
-/
def finish? : State → Option Expr
  | .complete value ⟨pending, []⟩ => some (settleAll value pending)
  | _ => none

------------------------------------------------------------
-- Runs
------------------------------------------------------------

/-
  Read one expression; the tokens behind it are left.  A fault
  in the text comes to light when the token before it has been
  taken.
-/
def run
    (ending : StreamEnd)
    (state : State) :
    List SpannedToken →
      Except SyntaxError (Expr × List SpannedToken)
  | [] =>
      match ending, finish? state with
      | .broken error, _ => .error (.lexical error)
      | .complete _, some value => .ok (value, [])
      | .complete position, none =>
          .error (.unexpectedEnd position)
  | spanned :: rest =>
      match step state spanned.token with
      | .next state => run ending state rest
      | .finished value => .ok (value, spanned :: rest)
      | .refused expected =>
          .error (.unexpectedToken expected spanned.token
            spanned.position)

/- Read one expression from the start of a stream. -/
def expression
    (stream : TokenStream) :
    Except SyntaxError (Expr × List SpannedToken) :=
  run stream.ending (.operand .bottom) stream.tokens

/- Read one expression that takes up the whole stream. -/
def whole
    (stream : TokenStream) : Except SyntaxError Expr :=
  match expression stream with
  | .error e => .error e
  | .ok (value, []) => .ok value
  | .ok (_, spanned :: _) =>
      .error (.unexpectedToken .endOfExpression spanned.token
        spanned.position)

/-
  Read expressions one behind the other, as many as are wanted
  or up to the first error.
-/
def several
    (ending : StreamEnd) :
    Nat → List SpannedToken → List (Except SyntaxError Expr)
  | 0, _ => []
  | count + 1, tokens =>
      match expression ⟨tokens, ending⟩ with
      | .error e => [.error e]
      | .ok (value, rest) => .ok value :: several ending count rest

end Parser

namespace Expr

/- The expression of a text that begins at an offset. -/
def parseAt
    (offset : Nat)
    (source : List Char) : Except SyntaxError Expr :=
  Parser.whole (Lexer.tokenize source offset)

/- The expression of a text. -/
def parse
    (source : String) : Except SyntaxError Expr :=
  parseAt 0 source.toList

end Expr

end PageExpr
