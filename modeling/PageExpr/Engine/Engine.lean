import PageExpr.Engine.Cache
import PageExpr.Engine.Config
import PageExpr.Evaluation.Evaluator

/-
  An engine parses templates through a cache and evaluates
  them.

  Main declarations:
    * `EngineError`
    * `Engine`
    * `Engine.parse`
    * `Engine.evaluateParsed`
    * `Engine.evaluate`
-/

namespace PageExpr

/- Why a text could not be evaluated. -/
inductive EngineError where
  | syntactic (error : SyntaxError)
  | evaluation (diagnostic : Diagnostic)

namespace EngineError

/- The error, as messages show it. -/
def message : EngineError → String
  | .syntactic error => "Syntax error: " ++ error.message
  | .evaluation diagnostic =>
      "Evaluation error: " ++ diagnostic.text

end EngineError

/- Settings and a cache. -/
structure Engine where
  config : Config
  cache : Cache

/- The result of an evaluation, and what else has changed. -/
structure Engine.Answer where
  result : Except EngineError Evaluation
  engine : Engine
  log : List LogLine

namespace Engine

/- An engine with an empty cache. -/
def ofConfig
    (config : Config) : Engine :=
  ⟨config, Cache.ofCapacity config.cacheCapacity⟩

/- The mode of the settings. -/
def mode
    (engine : Engine) : Mode :=
  Mode.ofStrict engine.config.strict

/- Evaluate a template without asking the cache. -/
def evaluateParsed
    (engine : Engine)
    (env : Environment)
    (template : Template) : Answer :=
  let outcome := template.evaluate engine.mode env
  { result := outcome.result.mapError .evaluation
    engine := engine
    log := outcome.log }

/- The template of a text, by way of the cache. -/
def parse
    (engine : Engine)
    (text : String) :
    Except SyntaxError Template × Engine × List LogLine :=
  let fetched := engine.cache.fetch text
  (fetched.result, { engine with cache := fetched.cache },
    fetched.log)

/- Evaluate a text. -/
def evaluate
    (engine : Engine)
    (env : Environment)
    (text : String) : Answer :=
  match engine.parse text with
  | (.error e, engine, log) => ⟨.error (.syntactic e), engine, log⟩
  | (.ok template, engine, log) =>
      let answer := engine.evaluateParsed env template
      { answer with log := log ++ answer.log }

/- Empty the cache. -/
def clearCache
    (engine : Engine) : Engine :=
  { engine with cache := engine.cache.clear }

end Engine

end PageExpr
