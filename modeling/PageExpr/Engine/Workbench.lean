import PageExpr.Engine.Engine
import PageExpr.Host.PageContext

/-
  A workbench: a page context, an engine and templates that are
  kept by name.  It is changed and questioned step by step.

  Main declarations:
    * `Workbench`
    * `Action`
    * `Reply`
    * `Workbench.perform`
    * `Workbench.performAll`
-/

namespace PageExpr

/- A page context, an engine, and templates by name. -/
structure Workbench where
  context : PageContext := {}
  engine : Engine := .ofConfig {}
  held : Fields Template := []

------------------------------------------------------------
-- Actions
------------------------------------------------------------

/- A step that changes or questions the page context. -/
inductive ContextAction where
  | set (scope name : String) (value : Value)
  | remove (scope name : String)
  | removeEverywhere (name : String)
  | find (name : String)
  | attribute (scope name : String)
  | listScope (scope : String)
  | resolve (name : String)
  | findInScopes (name : String)
  | startSession (id : String)
  | invalidateSession
  | hasSession
  | addParameter (name value : String)
  | addHeader (name value : String)
  | setInitParameter (name value : String)
  | setQueryString (query : String)
  | addCookie (cookie : Cookie)
  | setRequestInfo (info : RequestInfo)
  | listRequest

/- A step that uses the engine. -/
inductive EngineAction where
  | replace
      (fromInitParameters : Bool)
      (cacheCapacity : Option Nat)
      (strict : Option Bool)
  | evaluate (text : String)
  | parse (text : String) (hold : Option String)
  | evaluateHeld (hold : String)
  | statistics
  | clearCache

/- A step of work. -/
inductive Action where
  | context (action : ContextAction)
  | engine (action : EngineAction)

------------------------------------------------------------
-- Replies
------------------------------------------------------------

/- Why a step failed. -/
inductive ActionError where
  | context (error : ContextError)
  | syntactic (error : SyntaxError)
  | engine (error : EngineError)
  | notHeld (name : String)

/- The answer to a step. -/
inductive Reply where
  | done
  | found (value? : Option Value)
  | flag (value : Bool)
  | attributes (fields? : Option (Fields Value))
  | requestData (context : PageContext)
  | settings (config : Config)
  | template (template : Template)
  | evaluation (evaluation : Evaluation)
  | statistics (cache : Cache)
  | failed (error : ActionError)

namespace ContextAction

/- Go on with the scope of a name, or refuse it. -/
def inScope
    (ctx : PageContext)
    (scope : String)
    (next : Scope → PageContext × Reply) : PageContext × Reply :=
  match Scope.parse scope with
  | .ok scope => next scope
  | .error e => (ctx, .failed (.context e))

/- The page context after a step, and the answer. -/
def perform
    (ctx : PageContext) :
    ContextAction → PageContext × Reply
  | .set scope name value =>
      inScope ctx scope fun scope =>
        match ctx.setAttribute scope name value with
        | .ok changed => (changed, .done)
        | .error e => (ctx, .failed (.context e))
  | .remove scope name =>
      inScope ctx scope fun scope =>
        let (changed, value?) := ctx.removeAttribute scope name
        (changed, .found value?)
  | .removeEverywhere name => (ctx.removeEverywhere name, .done)
  | .find name => (ctx, .found (ctx.findAttribute? name))
  | .attribute scope name =>
      inScope ctx scope fun scope =>
        (ctx, .found (ctx.attribute? scope name))
  | .listScope scope =>
      inScope ctx scope fun scope =>
        (ctx, .attributes (ctx.attributes? scope))
  | .resolve name =>
      (ctx, .found (ctx.environment.resolve? name 0).1)
  | .findInScopes name =>
      (ctx, .found (ctx.environment.findInScopes? name))
  | .startSession id => (ctx.startSession id, .done)
  | .invalidateSession => (ctx.invalidateSession, .done)
  | .hasSession => (ctx, .flag ctx.hasSession)
  | .addParameter name value => (ctx.addParameter name value, .done)
  | .addHeader name value => (ctx.addHeader name value, .done)
  | .setInitParameter name value =>
      (ctx.setInitParameter name value, .done)
  | .setQueryString query => (ctx.setQueryString query, .done)
  | .addCookie cookie => (ctx.addCookie cookie, .done)
  | .setRequestInfo info => (ctx.setRequestInfo info, .done)
  | .listRequest => (ctx, .requestData ctx)

end ContextAction

namespace Workbench

/- The settings of a new engine, and what is logged. -/
def newConfig
    (ctx : PageContext)
    (fromInitParameters : Bool)
    (cacheCapacity : Option Nat)
    (strict : Option Bool) : Config × List LogLine :=
  let (config, log) :=
    if fromInitParameters then
      Config.ofInitParameters ctx.initParameters
    else ({}, [])
  (config.override cacheCapacity strict, log)

/- The workbench and the answer of an engine. -/
def answered
    (bench : Workbench)
    (answer : Engine.Answer) :
    Workbench × Reply × List LogLine :=
  let bench := { bench with engine := answer.engine }
  match answer.result with
  | .ok evaluation => (bench, .evaluation evaluation, answer.log)
  | .error e => (bench, .failed (.engine e), answer.log)

/- A step that uses the engine. -/
def performEngine
    (bench : Workbench) :
    EngineAction → Workbench × Reply × List LogLine
  | .replace fromInitParameters cacheCapacity strict =>
      let (config, log) :=
        newConfig bench.context fromInitParameters
          cacheCapacity strict
      ({ bench with engine := .ofConfig config },
        .settings config, log)
  | .evaluate text =>
      bench.answered
        (bench.engine.evaluate bench.context.environment text)
  | .parse text hold =>
      match bench.engine.parse text with
      | (.error e, engine, log) =>
          ({ bench with engine := engine },
            .failed (.syntactic e), log)
      | (.ok template, engine, log) =>
          let held :=
            match hold with
            | some name => bench.held.insert name template
            | none => bench.held
          ({ bench with engine := engine, held := held },
            .template template, log)
  | .evaluateHeld name =>
      match bench.held.get? name with
      | some template =>
          bench.answered
            (bench.engine.evaluateParsed bench.context.environment
              template)
      | none => (bench, .failed (.notHeld name), [])
  | .statistics => (bench, .statistics bench.engine.cache, [])
  | .clearCache =>
      ({ bench with engine := bench.engine.clearCache }, .done, [])

/- The workbench after a step, the answer and the log. -/
def perform
    (bench : Workbench) :
    Action → Workbench × Reply × List LogLine
  | .context action =>
      let (context, reply) := action.perform bench.context
      ({ bench with context := context }, reply, [])
  | .engine action => bench.performEngine action

/- Answer steps one after the other. -/
def performAll
    (bench : Workbench) :
    List Action → List (Reply × List LogLine)
  | [] => []
  | action :: rest =>
      let (bench, answer) := bench.perform action
      answer :: bench.performAll rest

/- Take steps up to the first that fails. -/
def prepare
    (bench : Workbench) :
    List Action → Except ActionError Workbench
  | [] => .ok bench
  | action :: rest =>
      match bench.perform action with
      | (_, .failed e, _) => .error e
      | (bench, _, _) => bench.prepare rest

end Workbench

end PageExpr
