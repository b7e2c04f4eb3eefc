import Mathlib.Data.List.Forall2
import PageExpr.Engine.Workbench
import PageExpr.Proofs.Engine.Fetching

/-
  A session with a cache beside a session without one.

  A plain workbench has no engine.  It keeps the texts of
  templates where a workbench keeps the templates themselves,
  and parses a text each time that it evaluates it.  Both take
  the same steps: a workbench mirrors a plain one as long as its
  cache is faithful, and then it gives the same answers.

  Main declarations:
    * `Template.evaluateText`
    * `PlainBench`, `PlainBench.perform`
    * `Workbench.Mirrors`
    * `Workbench.Mirrors.perform`
    * `Workbench.Mirrors.performAll`
    * `Workbench.performAll_eq_plain`
-/

namespace PageExpr

------------------------------------------------------------
-- Sessions Without a Cache
------------------------------------------------------------

/- Parse a text, and evaluate the template from the start. -/
def Template.evaluateText
    (mode : Mode)
    (env : Environment)
    (text : String) : Except EngineError Evaluation :=
  match parse text with
  | .error e => .error (.syntactic e)
  | .ok template =>
      (template.evaluate mode env).result.mapError .evaluation

/- The answer to an evaluation. -/
def Reply.ofResult : Except EngineError Evaluation → Reply
  | .ok value => .evaluation value
  | .error e => .failed (.engine e)

/- A page context, a mode, and the texts of templates by name. -/
structure PlainBench where
  context : PageContext := {}
  mode : Mode := .lenient
  held : Fields String := []

namespace PlainBench

/- The answer to the evaluation of a text. -/
def answer
    (bench : PlainBench)
    (text : String) : Reply :=
  .ofResult
    (Template.evaluateText bench.mode bench.context.environment
      text)

/-
  A step that a workbench leaves to its engine.  Only a cache
  could answer a question about its statistics.
-/
def performEngine
    (bench : PlainBench) :
    EngineAction → PlainBench × Option Reply
  | .replace fromInitParameters cacheCapacity strict =>
      let (config, _) :=
        Workbench.newConfig bench.context fromInitParameters
          cacheCapacity strict
      ({ bench with mode := .ofStrict config.strict },
        some (.settings config))
  | .evaluate text => (bench, some (bench.answer text))
  | .parse text hold =>
      match Template.parse text with
      | .error e => (bench, some (.failed (.syntactic e)))
      | .ok template =>
          let held :=
            match hold with
            | some name => bench.held.insert name text
            | none => bench.held
          ({ bench with held := held }, some (.template template))
  | .evaluateHeld name =>
      match bench.held.get? name with
      | some text => (bench, some (bench.answer text))
      | none => (bench, some (.failed (.notHeld name)))
  | .statistics => (bench, none)
  | .clearCache => (bench, some .done)

/- The plain workbench after a step, and the answer. -/
def perform
    (bench : PlainBench) :
    Action → PlainBench × Option Reply
  | .context action =>
      let (context, reply) := action.perform bench.context
      ({ bench with context := context }, some reply)
  | .engine action => bench.performEngine action

/- Answer steps one after the other. -/
def performAll
    (bench : PlainBench) :
    List Action → List (Option Reply)
  | [] => []
  | action :: rest =>
      let (bench, answer) := bench.perform action
      answer :: bench.performAll rest

end PlainBench

------------------------------------------------------------
-- Both Sessions
------------------------------------------------------------

namespace Workbench

/- The workbench after steps. -/
def after
    (bench : Workbench)
    (actions : List Action) : Workbench :=
  actions.foldl (fun bench action => (bench.perform action).1) bench

/-
  The context and the mode are the same, the cache is faithful,
  and the same names hold a template and its text.
-/
structure Mirrors
    (bench : Workbench)
    (plain : PlainBench) : Prop where
  context : bench.context = plain.context
  mode : bench.engine.mode = plain.mode
  cache : bench.engine.cache.Faithful
  held : ∀ name, Option.Rel
    (fun template text => Template.parse text = .ok template)
    (bench.held.get? name) (plain.held.get? name)

/- At the start there is nothing to tell them apart. -/
theorem mirrors_start :
    Mirrors {} {} where
  context := rfl
  mode := rfl
  cache := Cache.faithful_ofCapacity _
  held := fun _ => .none

/- Does the answer agree with the one that is expected, if any? -/
def Answers
    (answer : Reply × List LogLine)
    (expected : Option Reply) : Prop :=
  ∀ reply ∈ expected, answer.1 = reply

/- An answer that is expected. -/
theorem answers_some
    {answer : Reply × List LogLine}
    {reply : Reply}
    (h : answer.1 = reply) :
    Answers answer (some reply) := by
  rintro expected ⟨⟩
  exact h

/- If an answer is expected each time, these are the answers. -/
theorem map_fst_eq_of_answers
    {answers : List (Reply × List LogLine)}
    {replies : List Reply}
    (h : List.Forall₂ Answers answers (replies.map some)) :
    answers.map Prod.fst = replies := by
  induction replies generalizing answers with
  | nil =>
      cases h
      rfl
  | cons reply replies ih =>
      cases h with
      | cons hAnswer hRest =>
          rw [List.map_cons, ih hRest, hAnswer reply rfl]

------------------------------------------------------------
-- Engines
------------------------------------------------------------

/- An engine with a faithful cache parses as without one. -/
theorem parse_engine
    {engine : Engine}
    (h : engine.cache.Faithful)
    (text : String) :
    (engine.parse text).1 = Template.parse text ∧
      (engine.parse text).2.1.mode = engine.mode ∧
      (engine.parse text).2.1.cache.Faithful := by
  have hFetches := engine.cache.fetches_fetch text
  exact ⟨hFetches.result_eq h, rfl, hFetches.faithful h⟩

/- It evaluates as without a cache, and is left as by parsing. -/
theorem evaluate_engine
    {engine : Engine}
    (h : engine.cache.Faithful)
    (env : Environment)
    (text : String) :
    (engine.evaluate env text).result =
        Template.evaluateText engine.mode env text ∧
      (engine.evaluate env text).engine =
        (engine.parse text).2.1 := by
  rcases parse_engine h text with ⟨hResult, hMode, -⟩
  rw [Engine.evaluate, Template.evaluateText, ← hResult, ← hMode]
  rcases engine.parse text with ⟨result, next, log⟩
  cases result with
  | error e => exact ⟨rfl, rfl⟩
  | ok template => exact ⟨rfl, rfl⟩

/- What a workbench makes of the answer of an engine. -/
theorem answered_eq
    (bench : Workbench)
    (answer : Engine.Answer) :
    bench.answered answer =
      ({ bench with engine := answer.engine },
        .ofResult answer.result, answer.log) := by
  rw [answered]
  cases answer.result <;> rfl

------------------------------------------------------------
-- Steps
------------------------------------------------------------

/- After a step both sessions are alike, and so were answers. -/
def StepsAlike
    (next : Workbench × Reply × List LogLine)
    (plain : PlainBench × Option Reply) : Prop :=
  next.1.Mirrors plain.1 ∧ Answers next.2 plain.2

/- A text is evaluated alike. -/
theorem Mirrors.evaluate
    {bench : Workbench}
    {plain : PlainBench}
    (h : bench.Mirrors plain)
    (text : String) :
    StepsAlike (bench.performEngine (.evaluate text))
      (plain.performEngine (.evaluate text)) := by
  rcases parse_engine h.cache text with ⟨-, hMode, hCache⟩
  rcases evaluate_engine h.cache bench.context.environment text with
    ⟨hResult, hEngine⟩
  rw [performEngine, answered_eq, hResult, hEngine, h.mode]
  refine ⟨⟨h.context, hMode.trans h.mode, hCache, h.held⟩,
    answers_some ?_⟩
  rw [h.context]
  rfl

/- A text is parsed alike, and its template and text are held. -/
theorem Mirrors.parse
    {bench : Workbench}
    {plain : PlainBench}
    (h : bench.Mirrors plain)
    (text : String)
    (hold : Option String) :
    StepsAlike (bench.performEngine (.parse text hold))
      (plain.performEngine (.parse text hold)) := by
  rcases parse_engine h.cache text with ⟨hResult, hMode, hCache⟩
  dsimp only [Workbench.performEngine, PlainBench.performEngine]
  rw [← hResult]
  rcases hParse : bench.engine.parse text with ⟨result, next, log⟩
  rw [hParse] at hResult hMode hCache
  cases result with
  | error e =>
      exact ⟨⟨h.context, hMode.trans h.mode, hCache, h.held⟩,
        answers_some rfl⟩
  | ok template =>
      refine ⟨⟨h.context, hMode.trans h.mode, hCache, ?_⟩,
        answers_some rfl⟩
      cases hold with
      | none => exact h.held
      | some name =>
          intro other
          simp only [Fields.get?_insert]
          split
          · exact .some hResult.symm
          · exact h.held other

/- A held template is evaluated as its text. -/
theorem Mirrors.evaluateHeld
    {bench : Workbench}
    {plain : PlainBench}
    (h : bench.Mirrors plain)
    (name : String) :
    StepsAlike (bench.performEngine (.evaluateHeld name))
      (plain.performEngine (.evaluateHeld name)) := by
  have hHeld := h.held name
  rw [performEngine, PlainBench.performEngine]
  cases hTemplate : bench.held.get? name with
  | none =>
      rw [hTemplate] at hHeld
      cases hText : plain.held.get? name with
      | some text =>
          rw [hText] at hHeld
          cases hHeld
      | none =>
          exact ⟨h, answers_some rfl⟩
  | some template =>
      rw [hTemplate] at hHeld
      cases hText : plain.held.get? name with
      | none =>
          rw [hText] at hHeld
          cases hHeld
      | some text =>
          rw [hText] at hHeld
          cases hHeld with
          | some hParse =>
              simp only [answered_eq, PlainBench.answer,
                Template.evaluateText, hParse]
              refine ⟨h, answers_some ?_⟩
              simp only [Engine.evaluateParsed, h.mode, h.context]

/- Each step that uses the engine is taken alike. -/
theorem Mirrors.performEngine
    {bench : Workbench}
    {plain : PlainBench}
    (h : bench.Mirrors plain)
    (action : EngineAction) :
    StepsAlike (bench.performEngine action)
      (plain.performEngine action) := by
  cases action with
  | evaluate text => exact h.evaluate text
  | parse text hold => exact h.parse text hold
  | evaluateHeld name => exact h.evaluateHeld name
  | replace fromInitParameters cacheCapacity strict =>
      rw [Workbench.performEngine, PlainBench.performEngine,
        h.context]
      exact ⟨⟨rfl, rfl, Cache.faithful_ofCapacity _, h.held⟩,
        answers_some rfl⟩
  | statistics => exact ⟨h, fun reply hReply => by cases hReply⟩
  | clearCache =>
      exact ⟨⟨h.context, h.mode, Cache.faithful_clear _, h.held⟩,
        answers_some rfl⟩

/- Each step is taken alike. -/
theorem Mirrors.perform
    {bench : Workbench}
    {plain : PlainBench}
    (h : bench.Mirrors plain)
    (action : Action) :
    StepsAlike (bench.perform action) (plain.perform action) := by
  cases action with
  | engine action => exact h.performEngine action
  | context action =>
      rw [Workbench.perform, PlainBench.perform, h.context]
      exact ⟨⟨rfl, h.mode, h.cache, h.held⟩, answers_some rfl⟩

------------------------------------------------------------
-- Sessions
------------------------------------------------------------

/- Whole sessions are answered alike. -/
theorem Mirrors.performAll
    {bench : Workbench}
    {plain : PlainBench}
    (h : bench.Mirrors plain)
    (actions : List Action) :
    List.Forall₂ Answers (bench.performAll actions)
      (plain.performAll actions) := by
  induction actions generalizing bench plain with
  | nil => exact .nil
  | cons action rest ih =>
      rcases h.perform action with ⟨hNext, hAnswer⟩
      exact .cons hAnswer (ih hNext)

/- After whole sessions the cache is faithful. -/
theorem Mirrors.after
    {bench : Workbench}
    {plain : PlainBench}
    (h : bench.Mirrors plain)
    (actions : List Action) :
    (bench.after actions).engine.cache.Faithful := by
  induction actions generalizing bench plain with
  | nil => exact h.cache
  | cons action rest ih => exact ih (h.perform action).1

/-
  From the start, every session is answered as without a cache:
  a text as what it is parsed as, and a held template as the
  text that it was parsed from, in the mode and the context of
  that moment.  Each entry of the cache is then the template of
  its text, so no text is kept that is no template.

  Both number the beans of each evaluation from zero on.  Equal
  values are thus the same up to which objects the new beans are
  (`Template.alike_of_evaluate_eq`).
-/
theorem performAll_eq_plain
    (actions : List Action) :
    List.Forall₂ Answers (performAll {} actions)
        (PlainBench.performAll {} actions) ∧
      (after {} actions).engine.cache.Faithful ∧
      ∀ text e, Template.parse text = .error e →
        text ∉ (after {} actions).engine.cache.keys := by
  have hFaithful := mirrors_start.after actions
  refine ⟨mirrors_start.performAll actions, hFaithful, ?_⟩
  intro text e hError hMem
  rcases List.mem_map.1 hMem with ⟨entry, hEntry, rfl⟩
  rw [hFaithful entry hEntry] at hError
  cases hError

/- A failure and a store into a full cache change no answer. -/
theorem performAll_eq_plain_session :
    Template.parse "$\x7b" = .error (.unterminated 0) ∧
      (performAll {}
          [.engine (.replace false (some 1) (some true)),
            .engine (.parse "a" (some "held")),
            .engine (.evaluate "$\x7b"),
            .engine (.evaluate "b"),
            .engine (.evaluateHeld "held")]).map Prod.fst =
        [.settings ⟨1, true⟩, .template (.literal "a"),
          .failed (.engine (.syntactic (.unterminated 0))),
          .evaluation ⟨.string "b", []⟩,
          .evaluation ⟨.string "a", []⟩] ∧
      "$\x7b" ∉
        (after {}
          [.engine (.replace false (some 1) (some true)),
            .engine (.parse "a" (some "held")),
            .engine (.evaluate "$\x7b"),
            .engine (.evaluate "b"),
            .engine (.evaluateHeld "held")]).engine.cache.keys := by
  have hParse :
      Template.parse "$\x7b" = .error (.unterminated 0) := rfl
  have hSession := performAll_eq_plain
    [.engine (.replace false (some 1) (some true)),
      .engine (.parse "a" (some "held")),
      .engine (.evaluate "$\x7b"),
      .engine (.evaluate "b"),
      .engine (.evaluateHeld "held")]
  have hPlain :
      PlainBench.performAll {}
          [.engine (.replace false (some 1) (some true)),
            .engine (.parse "a" (some "held")),
            .engine (.evaluate "$\x7b"),
            .engine (.evaluate "b"),
            .engine (.evaluateHeld "held")] =
        [.settings ⟨1, true⟩, .template (.literal "a"),
          .failed (.engine (.syntactic (.unterminated 0))),
          .evaluation ⟨.string "b", []⟩,
          .evaluation ⟨.string "a", []⟩].map some :=
    rfl
  rw [hPlain] at hSession
  exact ⟨hParse, map_fst_eq_of_answers hSession.1,
    hSession.2.2 _ _ hParse⟩

end Workbench

end PageExpr
