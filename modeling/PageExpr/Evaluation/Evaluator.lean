import PageExpr.Evaluation.Arithmetic
import PageExpr.Evaluation.Comparison
import PageExpr.Host.Environment
import PageExpr.Syntax.Template

/-
  Evaluating expressions and templates.

  A failure is logged and reported, and a default value takes
  the place of the result.  In strict mode the first failure is
  logged and ends the evaluation.

  Main declarations:
    * `Mode`
    * `Progress`
    * `Evaluating`
    * `Evaluating.forText`
    * `Expr.eval`
    * `Template.eval`
    * `Evaluation`
    * `Outcome`
    * `Expr.evaluate`
    * `Template.evaluate`
-/

namespace PageExpr

------------------------------------------------------------
-- Evaluations in Progress
------------------------------------------------------------

/- What becomes of failures: a report, or the end. -/
inductive Mode where
  | lenient
  | strict
deriving DecidableEq

/- The mode of an option. -/
def Mode.ofStrict
    (strict : Bool) : Mode :=
  if strict then .strict else .lenient

/-
  The next free number of a bean, the reports so far, and the
  lines that have been logged.

  Each evaluation numbers its beans from the same number on, so
  numbers tell apart the beans of one evaluation only: beans of
  two evaluations may have one number and are still different.
-/
structure Progress where
  nextBean : Nat
  reports : List Diagnostic
  log : List LogLine

namespace Progress

/- Nothing has happened. -/
def start : Progress :=
  ⟨0, [], []⟩

/- Log a failure. -/
def logged
    (d : Diagnostic)
    (progress : Progress) : Progress :=
  { progress with log := progress.log ++ [d.logLine] }

/- Add a report. -/
def report
    (d : Diagnostic)
    (progress : Progress) : Progress :=
  { progress with reports := progress.reports ++ [d] }

end Progress

/- A computation that logs and reports, and may end early. -/
abbrev Evaluating (α : Type) :=
  ExceptT Diagnostic (StateM Progress) α

namespace Evaluating

/- Make beans, beginning with the next free number. -/
def making
    {α : Type}
    (make : Nat → α × Nat) : Evaluating α :=
  modifyGet fun progress =>
    let (result, next) := make progress.nextBean
    (result, { progress with nextBean := next })

/-
  Carry out a step of which only a text is kept.  The beans it
  has made are gone with it, so their numbers are free again:
  no bean that is kept has one of them.
-/
def forText
    (step : Evaluating String) : Evaluating String := do
  let before ← get
  let text ← step
  modify fun after => { after with nextBean := before.nextBean }
  return text

/-
  The result of an operation.  A failure is logged.  Then it is
  reported and gives the default value, or ends the evaluation.
-/
def settle
    (mode : Mode)
    (expr : Expr)
    (default : Value) :
    Except Failure Value → Evaluating Value
  | .ok value => return value
  | .error failure => do
      let d : Diagnostic := ⟨failure, expr⟩
      modify (Progress.logged d)
      match mode with
      | .lenient =>
          modify (Progress.report d)
          return default
      | .strict => throw d

end Evaluating

------------------------------------------------------------
-- Expressions
------------------------------------------------------------

namespace Value

/-
  The value of a key in a value.  What an object or an array
  does not have is null; what a bean does not have is a
  failure.  A bean that is made has the given identity.
-/
def access
    (object key : Value)
    (fresh : Identity) : Except Failure Value :=
  match object with
  | .object fields =>
      .ok ((Fields.get? key.toKey fields).getD .null)
  | .array items =>
      match key.toIndex with
      | .error e => .error (.index e)
      | .ok index =>
          if index.toInt < 0 then .ok .null
          else .ok (items[index.toInt.toNat]?.getD .null)
  | .bean _ body =>
      let name := key.toKey
      match body.property fresh name with
      | .ok value => .ok value
      | .error .notFound =>
          .error (.noProperty body.typeName name)
      | .error (.getterFailed message) =>
          .error (.getter body.typeName name message)
  | v => .error (.noProperties v.typeName key.toKey)

end Value

namespace UnaryOp

/- Apply an operator to its operand. -/
def apply
    (op : UnaryOp)
    (operand : Value) : Except Failure Value :=
  match op with
  | .negate => Arithmetic.negate operand
  | .not => .ok (.boolean !operand.toBoolean)
  | .empty => .ok (.boolean operand.isEmpty)

end UnaryOp

namespace Expr

/-
  Evaluate an expression.  An access to null is null, and the
  key is not looked at; the logical operators and the
  conditional only look at the operands that they need.
-/
def eval
    (mode : Mode)
    (env : Environment) : Expr → Evaluating Value
  | .literal value => return value
  | .implicit object => Evaluating.making (object.resolve env)
  | .var name => do
      let value? ← Evaluating.making (env.resolve? name)
      return value?.getD .null
  | .access object key => do
      let owner ← eval mode env object
      if owner.isNull then return .null
      let name ← eval mode env key
      if name.isNull then return .null
      let fresh ← Evaluating.making fun next =>
        (Identity.made next, next + 1)
      Evaluating.settle mode (.access object key) .null
        (owner.access name fresh)
  | .binary op left right => do
      let a ← eval mode env left
      match op with
      | .logical .and =>
          if a.toBoolean then
            let b ← eval mode env right
            return .boolean b.toBoolean
          else return .boolean false
      | .logical .or =>
          if a.toBoolean then return .boolean true
          else
            let b ← eval mode env right
            return .boolean b.toBoolean
      | .equality .equal =>
          let b ← eval mode env right
          return .boolean (Comparison.loosely a b)
      | .equality .notEqual =>
          let b ← eval mode env right
          return .boolean !Comparison.loosely a b
      | .ordering order =>
          let b ← eval mode env right
          Evaluating.settle mode (.binary op left right)
            (.boolean false) (Comparison.apply order a b)
      | .arithmetic operation =>
          let b ← eval mode env right
          Evaluating.settle mode (.binary op left right) .null
            (Arithmetic.apply operation a b)
  | .unary op operand => do
      let a ← eval mode env operand
      Evaluating.settle mode (.unary op operand) .null
        (op.apply a)
  | .conditional condition thenBranch elseBranch => do
      let chosen ← eval mode env condition
      if chosen.toBoolean then eval mode env thenBranch
      else eval mode env elseBranch

end Expr

------------------------------------------------------------
-- Templates
------------------------------------------------------------

namespace Template

/- The texts of parts, one behind the other. -/
def render
    (mode : Mode)
    (env : Environment) : List Part → Evaluating String
  | [] => return ""
  | .text content :: rest => do
      let texts ← render mode env rest
      return content ++ texts
  | .expression expr :: rest => do
      let text ← Evaluating.forText do
        let value ← expr.eval mode env
        return value.text
      let texts ← render mode env rest
      return text ++ texts

/-
  Evaluate a template.  A single expression keeps its value;
  all other templates give a string.
-/
def eval
    (mode : Mode)
    (env : Environment) : Template → Evaluating Value
  | .literal content => return .string content
  | .expression expr => expr.eval mode env
  | .composite parts => do
      let content ← render mode env parts
      return .string content

end Template

------------------------------------------------------------
-- Results
------------------------------------------------------------

/- A value, and what went wrong on the way to it. -/
structure Evaluation where
  value : Value
  diagnostics : List Diagnostic

namespace Evaluation

/- Did nothing go wrong? -/
def isClean
    (evaluation : Evaluation) : Bool :=
  evaluation.diagnostics.isEmpty

/- The number of failures of one kind. -/
def count
    (kind : FailureKind)
    (evaluation : Evaluation) : Nat :=
  evaluation.diagnostics.countP fun d => d.kind == kind

/- The text on the page. -/
def output
    (evaluation : Evaluation) : String :=
  evaluation.value.text

end Evaluation

/-
  The result of an evaluation, which in strict mode may be the
  first failure, and the lines it logs.
-/
structure Outcome where
  result : Except Diagnostic Evaluation
  log : List LogLine

namespace Evaluating

/- Carry out an evaluation from the start. -/
def outcome
    (evaluating : Evaluating Value) : Outcome :=
  let (result, progress) := evaluating.run Progress.start
  { result := result.map fun value => ⟨value, progress.reports⟩
    log := progress.log }

end Evaluating

/- Evaluate an expression. -/
def Expr.evaluate
    (mode : Mode)
    (env : Environment)
    (expr : Expr) : Outcome :=
  (expr.eval mode env).outcome

/- Evaluate a template. -/
def Template.evaluate
    (mode : Mode)
    (env : Environment)
    (template : Template) : Outcome :=
  (template.eval mode env).outcome

end PageExpr
