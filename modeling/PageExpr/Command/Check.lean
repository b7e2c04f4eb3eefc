import PageExpr.Command.Document
import PageExpr.Engine.Engine
import PageExpr.Json.Reader

/-
  Checking a template against a page context.

  Main declarations:
    * `Check`
    * `CheckError`
    * `CheckResult`
    * `Check.run`
-/

namespace PageExpr

/-
  A template, the text of a document that describes a page
  context, and whether the first failure is an error.  It may
  be enough that the template can be parsed.
-/
structure Check where
  expression : String
  context : Option String := none
  strict : Bool := false
  syntaxOnly : Bool := false

/- Why a check fails. -/
inductive CheckError where
  | malformedJson
  | document (error : DocumentError)
  | engine (error : EngineError)

namespace CheckError

/- The message of a check that fails. -/
def message : CheckError → String
  | .malformedJson => "Invalid JSON: malformed document"
  | .document error => error.message
  | .engine error => error.message

end CheckError

/- The result of a check that does not fail. -/
inductive CheckResult where
  | syntaxValid
  | evaluated (output : Json) (diagnostics : List Diagnostic)

namespace Check

/- The document of a check; without a text it is empty. -/
def document
    (check : Check) : Except CheckError Json :=
  match check.context with
  | none => .ok (.object [])
  | some text =>
      match Json.parse? text with
      | some document => .ok document
      | none => .error .malformedJson

/-
  Settings come from the init parameters of the document, but
  the mode is that of the check, and nothing is cached.
-/
def config
    (check : Check)
    (document : Json) : Config :=
  { (Config.ofInitParameters
      (Document.initParameters document)).1 with
    cacheCapacity := 0
    strict := check.strict }

/-
  Read the document, parse the template, load the context, and
  evaluate.
-/
def run
    (check : Check) : Except CheckError CheckResult := do
  let document ← check.document
  let engine := Engine.ofConfig (check.config document)
  let (parsed, engine, _) := engine.parse check.expression
  let template ←
    parsed.mapError fun e => .engine (.syntactic e)
  if check.syntaxOnly then return .syntaxValid
  let ctx ← (PageContext.ofDocument document).mapError .document
  let answer := engine.evaluateParsed ctx.environment template
  let evaluation ← answer.result.mapError .engine
  return .evaluated evaluation.value.toJson evaluation.diagnostics

end Check

end PageExpr
