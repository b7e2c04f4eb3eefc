import PageExpr.Syntax.Expr
import PageExpr.Value.Coercion

/-
  What can go wrong while an expression is evaluated, and the
  lines that are logged.

  Main declarations:
    * `Failure`
    * `Failure.kind`
    * `Failure.message`
    * `Diagnostic`
    * `Diagnostic.text`
    * `LogLine`
    * `Diagnostic.logLine`
-/

namespace PageExpr

------------------------------------------------------------
-- Failures
------------------------------------------------------------

/- The three kinds of failures. -/
inductive FailureKind where
  | coercion
  | propertyAccess
  | arithmetic
deriving DecidableEq

namespace FailureKind

/- The kind in words. -/
def text : FailureKind → String
  | .coercion => "coercion failure"
  | .propertyAccess => "property access failure"
  | .arithmetic => "arithmetic failure"

end FailureKind

/-
  Why an operation gave no proper result:
    * `index`: a key is no index of an array
    * `operand`: an operand is no number
    * `unordered`: two operands have no order
    * `noProperty`, `getter`: a bean gave no property
    * `noProperties`: the value has no properties at all
    * `zeroDivisor`: a division or a remainder by zero
-/
inductive Failure where
  | index (error : CoercionError)
  | operand (symbol : String) (error : CoercionError)
  | unordered (left : String) (op : OrderingOp) (right : String)
  | noProperty (typeName name : String)
  | getter (typeName name message : String)
  | noProperties (typeName name : String)
  | zeroDivisor (operation : String)
deriving DecidableEq

namespace Failure

/- Only a zero divisor is a failure of arithmetic. -/
def kind : Failure → FailureKind
  | .index _ => .coercion
  | .operand .. => .coercion
  | .unordered .. => .coercion
  | .noProperty .. => .propertyAccess
  | .getter .. => .propertyAccess
  | .noProperties .. => .propertyAccess
  | .zeroDivisor _ => .arithmetic

/- The failure, as messages show it. -/
def message : Failure → String
  | .index error => error.message
  | .operand symbol error =>
      "operator " ++ symbol ++ ": " ++ error.message
  | .unordered left op right =>
      "cannot order " ++ left ++ " " ++ op.symbol ++ " " ++ right
  | .noProperty typeName name =>
      typeName ++ " has no readable property '" ++ name ++ "'"
  | .getter typeName name message =>
      "reading '" ++ name ++ "' on " ++ typeName ++
        ": getter failed: " ++ message
  | .noProperties typeName name =>
      "cannot read property '" ++ name ++ "' of " ++ typeName
  | .zeroDivisor operation => operation ++ " by zero"

end Failure

------------------------------------------------------------
-- Log Lines
------------------------------------------------------------

/- How important a logged line is. -/
inductive LogLevel where
  | trace
  | debug
  | warn
deriving DecidableEq

/- A line that is logged. -/
structure LogLine where
  level : LogLevel
  text : String
deriving DecidableEq

------------------------------------------------------------
-- Diagnostics
------------------------------------------------------------

/- A failure and the expression that failed. -/
structure Diagnostic where
  failure : Failure
  expression : Expr

namespace Diagnostic

/- The kind of the failure. -/
def kind
    (d : Diagnostic) : FailureKind :=
  d.failure.kind

/- The kind, the expression and the failure in one line. -/
def text
    (d : Diagnostic) : String :=
  d.kind.text ++ " in '" ++ d.expression.text ++ "': " ++
    d.failure.message

/- A coercion failure is less important than the others. -/
def logLine
    (d : Diagnostic) : LogLine :=
  match d.kind with
  | .coercion => ⟨.debug, d.text⟩
  | _ => ⟨.warn, d.text⟩

end Diagnostic

end PageExpr
