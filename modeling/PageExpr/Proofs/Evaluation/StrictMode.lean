import PageExpr.Command.Check

/-
  Strict evaluation beside lenient evaluation.

  The lenient run of a computation always gives a value, and
  logs what it reports.  The strict run takes the same steps up
  to the first failure: if there is none it gives the same
  value, else it logs that failure and ends with it.  This holds
  of each step and is kept when steps follow each other, so it
  holds of all expressions and templates.

  Main declarations:
    * `Progress.later`
    * `Evaluating.Agrees`
    * `Evaluating.Agrees.bind`
    * `Expr.agrees_eval`
    * `Template.agrees_eval`
    * `Evaluation.leniently`, `Evaluation.strictly`
    * `Evaluating.Agrees.outcome`
    * `Check.runIn_strict`
    * `Evaluation.strictly_of_leniently`
-/

namespace PageExpr

------------------------------------------------------------
-- Progress
------------------------------------------------------------

namespace Progress

/- Beans have been made, and failures logged and reported. -/
def later
    (next : Nat)
    (found : List Diagnostic)
    (before : Progress) : Progress :=
  ⟨next, before.reports ++ found,
    before.log ++ found.map Diagnostic.logLine⟩

/- Without failures nothing else has happened. -/
theorem later_nil
    (before : Progress)
    (next : Nat) :
    before.later next [] = { before with nextBean := next } := by
  simp [later]

/- What happens in two steps happens in both together. -/
theorem later_later
    (before : Progress)
    (next last : Nat)
    (found others : List Diagnostic) :
    (before.later next found).later last others =
      before.later last (found ++ others) := by
  simp [later]

end Progress

namespace Evaluating

variable {α β : Type}

------------------------------------------------------------
-- Steps
------------------------------------------------------------

/- A step that gives a value goes on with what follows. -/
theorem run_bind_ok
    {step : Evaluating α}
    {next : α → Evaluating β}
    {before after : Progress}
    {value : α}
    (h : step.run before = (.ok value, after)) :
    (step >>= next).run before = (next value).run after := by
  change ExceptT.bindCont next (step.run before).1
    (step.run before).2 = _
  rw [h]
  rfl

/- A step that fails ends the computation. -/
theorem run_bind_error
    {step : Evaluating α}
    {next : α → Evaluating β}
    {before after : Progress}
    {d : Diagnostic}
    (h : step.run before = (.error d, after)) :
    (step >>= next).run before = (.error d, after) := by
  change ExceptT.bindCont next (step.run before).1
    (step.run before).2 = _
  rw [h]
  rfl

/- What is kept of a text, and that its beans are gone. -/
theorem run_forText_ok
    {step : Evaluating String}
    {before after : Progress}
    {text : String}
    (h : step.run before = (.ok text, after)) :
    (forText step).run before =
      (.ok text, { after with nextBean := before.nextBean }) := by
  have hGet :
      (get : Evaluating Progress).run before =
        (.ok before, before) :=
    rfl
  rw [forText, run_bind_ok hGet, run_bind_ok h]
  rfl

/- A failure on the way to a text stays a failure. -/
theorem run_forText_error
    {step : Evaluating String}
    {before after : Progress}
    {d : Diagnostic}
    (h : step.run before = (.error d, after)) :
    (forText step).run before = (.error d, after) := by
  have hGet :
      (get : Evaluating Progress).run before =
        (.ok before, before) :=
    rfl
  rw [forText, run_bind_ok hGet, run_bind_error h]

------------------------------------------------------------
-- Agreement
------------------------------------------------------------

/-
  The lenient computation gives a value, and logs and reports
  failures, which do not depend on what was reported before.
  The strict one gives the same value if there are none.
  Otherwise it logs the first of them and ends with it.
-/
def Agrees
    (lenient strict : Evaluating α) : Prop :=
  ∀ free, ∃ value next found, ∀ before : Progress,
    before.nextBean = free →
      lenient.run before = (.ok value, before.later next found) ∧
      match found with
      | [] =>
          strict.run before =
            (.ok value, { before with nextBean := next })
      | d :: _ =>
          ∃ stop, strict.run before =
            (.error d, { before.logged d with nextBean := stop })

/- A value agrees with itself. -/
theorem agrees_pure
    (value : α) :
    Agrees (pure value) (pure value) := by
  intro free
  refine ⟨value, free, [], ?_⟩
  rintro before rfl
  refine ⟨?_, rfl⟩
  rw [before.later_nil]
  rfl

/- Making beans reports nothing. -/
theorem agrees_making
    (make : Nat → α × Nat) :
    Agrees (making make) (making make) := by
  intro free
  refine ⟨(make free).1, (make free).2, [], ?_⟩
  rintro before rfl
  refine ⟨?_, rfl⟩
  rw [before.later_nil]
  rfl

/- A failure is the only report, and ends the strict run. -/
theorem agrees_settle
    (expr : Expr)
    (default : Value)
    (result : Except Failure Value) :
    Agrees (settle .lenient expr default result)
      (settle .strict expr default result) := by
  cases result with
  | ok value => exact agrees_pure value
  | error failure =>
      intro free
      refine ⟨default, free, [⟨failure, expr⟩], ?_⟩
      rintro before rfl
      exact ⟨rfl, before.nextBean, rfl⟩

/- Steps that agree may follow each other. -/
theorem Agrees.bind
    {lenient strict : Evaluating α}
    {lenientNext strictNext : α → Evaluating β}
    (hStep : Agrees lenient strict)
    (hNext :
      ∀ value, Agrees (lenientNext value) (strictNext value)) :
    Agrees (lenient >>= lenientNext) (strict >>= strictNext) := by
  intro free
  rcases hStep free with ⟨value, next, found, hFirst⟩
  rcases hNext value next with ⟨result, last, others, hSecond⟩
  refine ⟨result, last, found ++ others, fun before hFree => ?_⟩
  rcases hFirst before hFree with ⟨hLenient, hStrict⟩
  have hLast := (hSecond (before.later next found) rfl).1
  rw [before.later_later] at hLast
  refine ⟨by rw [run_bind_ok hLenient, hLast], ?_⟩
  cases found with
  | nil =>
      rw [run_bind_ok hStrict]
      exact (hSecond { before with nextBean := next } rfl).2
  | cons d found =>
      rcases hStrict with ⟨stop, hStop⟩
      exact ⟨stop, run_bind_error hStop⟩

/- Steps agree if only their texts are kept. -/
theorem Agrees.forText
    {lenient strict : Evaluating String}
    (h : Agrees lenient strict) :
    Agrees (forText lenient) (forText strict) := by
  intro free
  rcases h free with ⟨text, next, found, hStep⟩
  refine ⟨text, free, found, ?_⟩
  rintro before rfl
  rcases hStep before rfl with ⟨hLenient, hStrict⟩
  refine ⟨run_forText_ok hLenient, ?_⟩
  cases found with
  | nil =>
      have hKept := run_forText_ok hStrict
      exact hKept
  | cons d found =>
      rcases hStrict with ⟨stop, hStop⟩
      exact ⟨stop, run_forText_error hStop⟩

end Evaluating

open Evaluating (Agrees agrees_pure agrees_making agrees_settle)

------------------------------------------------------------
-- Expressions and Templates
------------------------------------------------------------

/- Both runs of an expression agree. -/
theorem Expr.agrees_eval
    (env : Environment)
    (expr : Expr) :
    Agrees (expr.eval .lenient env) (expr.eval .strict env) := by
  induction expr with
  | literal value => exact agrees_pure value
  | implicit object => exact agrees_making _
  | var name =>
      exact (agrees_making _).bind fun _ => agrees_pure _
  | access object key ihObject ihKey =>
      refine ihObject.bind fun owner => ?_
      cases owner.isNull with
      | true => exact agrees_pure _
      | false =>
          refine ihKey.bind fun name => ?_
          cases name.isNull with
          | true => exact agrees_pure _
          | false =>
              exact (agrees_making _).bind fun _ =>
                agrees_settle _ _ _
  | binary op left right ihLeft ihRight =>
      refine ihLeft.bind fun a => ?_
      cases op with
      | logical op =>
          have hRight :
              Agrees
                (do
                  let b ← right.eval .lenient env
                  return Value.boolean b.toBoolean)
                (do
                  let b ← right.eval .strict env
                  return Value.boolean b.toBoolean) :=
            ihRight.bind fun _ => agrees_pure _
          cases op with
          | and =>
              cases a.toBoolean with
              | true => exact hRight
              | false => exact agrees_pure _
          | or =>
              cases a.toBoolean with
              | true => exact agrees_pure _
              | false => exact hRight
      | equality op =>
          cases op <;> exact ihRight.bind fun _ => agrees_pure _
      | ordering op =>
          exact ihRight.bind fun _ => agrees_settle _ _ _
      | arithmetic op =>
          exact ihRight.bind fun _ => agrees_settle _ _ _
  | unary op operand ih =>
      exact ih.bind fun _ => agrees_settle _ _ _
  | conditional condition thenBranch elseBranch ihCondition ihThen
      ihElse =>
      refine ihCondition.bind fun chosen => ?_
      cases chosen.toBoolean with
      | true => exact ihThen
      | false => exact ihElse

/- Both runs of the parts of a template agree. -/
theorem Template.agrees_render
    (env : Environment)
    (parts : List Part) :
    Agrees (render .lenient env parts)
      (render .strict env parts) := by
  induction parts with
  | nil => exact agrees_pure _
  | cons part rest ih =>
      cases part with
      | text content => exact ih.bind fun _ => agrees_pure _
      | expression expr =>
          have hText :=
            (expr.agrees_eval env).bind fun value =>
              agrees_pure value.text
          exact hText.forText.bind fun _ =>
            ih.bind fun _ => agrees_pure _

/- Both runs of a template agree. -/
theorem Template.agrees_eval
    (env : Environment)
    (template : Template) :
    Agrees (template.eval .lenient env)
      (template.eval .strict env) := by
  cases template with
  | literal content => exact agrees_pure _
  | expression expr => exact expr.agrees_eval env
  | composite parts =>
      exact (agrees_render env parts).bind fun _ => agrees_pure _

------------------------------------------------------------
-- Outcomes
------------------------------------------------------------

/- What is logged is the text, and how depends on the kind. -/
theorem Diagnostic.logLine_eq
    (d : Diagnostic) :
    d.logLine =
      ⟨if d.kind = .coercion then .debug else .warn, d.text⟩ := by
  unfold logLine
  cases d.kind <;> rfl

/-
  What the strict run gives where the lenient one gives the
  evaluation: the same without diagnostics, or the first one.
-/
def Evaluation.strictly
    (evaluation : Evaluation) : Outcome :=
  match evaluation.diagnostics with
  | [] => ⟨.ok evaluation, []⟩
  | d :: _ => ⟨.error d, [d.logLine]⟩

/- What the lenient run gives, and all that it logs. -/
def Evaluation.leniently
    (evaluation : Evaluation) : Outcome :=
  ⟨.ok evaluation, evaluation.diagnostics.map Diagnostic.logLine⟩

/- Computations that agree have outcomes of one evaluation. -/
theorem Evaluating.Agrees.outcome
    {lenient strict : Evaluating Value}
    (h : Agrees lenient strict) :
    ∃ evaluation : Evaluation,
      lenient.outcome = evaluation.leniently ∧
        strict.outcome = evaluation.strictly := by
  rcases h 0 with ⟨value, next, found, hRuns⟩
  rcases hRuns .start rfl with ⟨hLenient, hStrict⟩
  refine ⟨⟨value, found⟩, ?_, ?_⟩
  · rw [Evaluating.outcome, hLenient]
    rfl
  · cases found with
    | nil =>
        rw [Evaluating.outcome, hStrict]
        rfl
    | cons d found =>
        rcases hStrict with ⟨stop, hStop⟩
        rw [Evaluating.outcome, hStop]
        rfl

------------------------------------------------------------
-- Checks
------------------------------------------------------------

/-
  What the strict option makes of a result: the first
  diagnostic becomes an error.
-/
def CheckResult.strictly : CheckResult →
    Except CheckError CheckResult
  | .evaluated _ (d :: _) => .error (.engine (.evaluation d))
  | result => .ok result

namespace Check

/-
  A check in a mode of its own, and without its engine, which
  does nothing but parse because it has no room in its cache.
-/
def runIn
    (mode : Mode)
    (check : Check) : Except CheckError CheckResult := do
  let document ← check.document
  let template ←
    (Template.parse check.expression).mapError fun e =>
      .engine (.syntactic e)
  if check.syntaxOnly then return .syntaxValid
  let ctx ← (PageContext.ofDocument document).mapError .document
  let outcome := template.evaluate mode ctx.environment
  let evaluation ←
    (outcome.result.mapError .evaluation).mapError .engine
  return .evaluated evaluation.value.toJson evaluation.diagnostics

/- A check runs in the mode of its option. -/
theorem run_eq_runIn
    (check : Check) :
    check.run = check.runIn (.ofStrict check.strict) :=
  rfl

/- The strict mode only turns diagnostics into errors. -/
theorem runIn_strict
    (check : Check) :
    check.runIn .strict =
      check.runIn .lenient >>= CheckResult.strictly := by
  unfold runIn
  rw [bind_assoc]
  refine bind_congr fun document => ?_
  rw [bind_assoc]
  refine bind_congr fun template => ?_
  cases check.syntaxOnly with
  | true => rfl
  | false =>
      simp only [Bool.false_eq_true, if_false, bind_assoc]
      refine bind_congr fun ctx => ?_
      rcases (template.agrees_eval ctx.environment).outcome with
        ⟨⟨value, found⟩, hLenient, hStrict⟩
      rw [← Template.evaluate] at hLenient hStrict
      rw [hLenient, hStrict]
      cases found <;> rfl

end Check

/-
  Lenient evaluation never fails, and logs each diagnostic that
  it reports.  Strict evaluation in the same environment gives
  the same value and logs nothing if there were no diagnostics.
  Else it fails with the first of them, which is all it logs.
  With the strict option a check gives the same result without
  diagnostics, and the first of them as an error.

  Both runs make their beans in the same order, so the values
  are the same up to which objects the new beans are.
-/
theorem Evaluation.strictly_of_leniently :
    (∀ (env : Environment) (expr : Expr),
      ∃ evaluation : Evaluation,
        expr.evaluate .lenient env = evaluation.leniently ∧
          expr.evaluate .strict env = evaluation.strictly) ∧
    (∀ (env : Environment) (template : Template),
      ∃ evaluation : Evaluation,
        template.evaluate .lenient env = evaluation.leniently ∧
          template.evaluate .strict env = evaluation.strictly) ∧
    (∀ d : Diagnostic,
      d.logLine =
        ⟨if d.kind = .coercion then .debug else .warn, d.text⟩) ∧
    (∀ check : Check,
      Check.run { check with strict := true } =
        Check.run { check with strict := false } >>=
          CheckResult.strictly) := by
  refine ⟨?_, ?_, Diagnostic.logLine_eq, ?_⟩
  · intro env expr
    exact (expr.agrees_eval env).outcome
  · intro env template
    exact (template.agrees_eval env).outcome
  · intro check
    rw [Check.run_eq_runIn, Check.run_eq_runIn]
    exact check.runIn_strict

/-
  Of two failures the lenient run logs and reports both and has a
  value, and the strict run logs the first and ends with it.
-/
theorem Evaluation.strictly_of_leniently_twice :
    ∃ first second : Diagnostic,
      let expr : Expr :=
        .binary (.equality .equal)
          (.unary .negate (.literal (.boolean true)))
          (.binary (.arithmetic .divide)
            (.literal (.integer 1)) (.literal (.integer 0)))
      let env := PageContext.environment {}
      first.text =
        "coercion failure in '-true': " ++
          "operator -: cannot coerce boolean to number" ∧
      second.text =
        "arithmetic failure in '(1 / 0)': division by zero" ∧
      expr.evaluate .lenient env =
        ⟨.ok ⟨.boolean true, [first, second]⟩,
          [⟨.debug, first.text⟩, ⟨.warn, second.text⟩]⟩ ∧
      expr.evaluate .strict env =
        ⟨.error first, [⟨.debug, first.text⟩]⟩ := by
  let negation : Expr := .unary .negate (.literal (.boolean true))
  let quotient : Expr :=
    .binary (.arithmetic .divide)
      (.literal (.integer 1)) (.literal (.integer 0))
  let first : Diagnostic :=
    ⟨.operand "-" (.on .number (.boolean true)), negation⟩
  let second : Diagnostic := ⟨.zeroDivisor "division", quotient⟩
  let env := PageContext.environment {}
  have hRun :
      Expr.evaluate .lenient env
          (.binary (.equality .equal) negation quotient) =
        ⟨.ok ⟨.boolean true, [first, second]⟩,
          [⟨.debug, first.text⟩, ⟨.warn, second.text⟩]⟩ :=
    rfl
  rcases Evaluation.strictly_of_leniently.1 env
      (.binary (.equality .equal) negation quotient) with
    ⟨evaluation, hLenient, hStrict⟩
  rw [hRun] at hLenient
  have hEvaluation :
      ⟨.boolean true, [first, second]⟩ = evaluation :=
    Except.ok.inj (congrArg Outcome.result hLenient)
  rw [← hEvaluation] at hStrict
  exact ⟨first, second, by decide +kernel, by decide +kernel, hRun,
    hStrict⟩

end PageExpr
