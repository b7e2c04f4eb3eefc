import PageExpr.Proofs.Evaluation.StrictMode

/-
  The logical operators and the conditional as choices.

  Of their operands the logical operators only see the truth.
  Both they and the conditional choose what to do next by the
  truth of the operand in front, so their laws are those of
  choices: they hold of the steps, and with them of values,
  diagnostics and failures.  What is not chosen does not matter.

  Main declarations:
    * `Evaluating.choose`
    * `Expr.truth`
    * `Expr.eval_and`, `Expr.eval_or`, `Expr.eval_not`
    * `Expr.eval_conditional`
    * `Expr.Alike`, `Expr.GivesAt`
    * `Expr.laws_of_choices`
-/

namespace PageExpr

------------------------------------------------------------
-- Choices
------------------------------------------------------------

namespace Evaluating

variable {α β : Type}

/- Go on in one of two ways, by the truth that a step finds. -/
def choose
    (test : Evaluating Bool)
    (yes no : Evaluating α) : Evaluating α := do
  if ← test then yes else no

/- What follows a choice follows either way. -/
theorem map_choose
    (f : α → β)
    (test : Evaluating Bool)
    (yes no : Evaluating α) :
    f <$> choose test yes no =
      choose test (f <$> yes) (f <$> no) := by
  rw [choose, map_bind]
  refine bind_congr fun found => ?_
  cases found <;> rfl

/- What is true is chosen. -/
theorem choose_true
    (yes no : Evaluating α) :
    choose (pure true) yes no = yes := by
  rw [choose, pure_bind, if_pos rfl]

/- What is false is not. -/
theorem choose_false
    (yes no : Evaluating α) :
    choose (pure false) yes no = no := by
  rw [choose, pure_bind, if_neg Bool.false_ne_true]

/- By the opposite the other way is chosen. -/
theorem choose_not
    (test : Evaluating Bool)
    (yes no : Evaluating α) :
    choose (not <$> test) yes no = choose test no yes := by
  rw [choose, bind_map_left]
  refine bind_congr fun found => ?_
  cases found <;> rfl

/- A choice between tests is one between choices. -/
theorem choose_choose
    (test first second : Evaluating Bool)
    (yes no : Evaluating α) :
    choose (choose test first second) yes no =
      choose test (choose first yes no) (choose second yes no) := by
  rw [choose, choose, bind_assoc]
  refine bind_congr fun found => ?_
  cases found <;> rfl

/- A choice depends on a way only where it is gone. -/
theorem run_choose_congr
    {test : Evaluating Bool}
    {yes no yes' no' : Evaluating α}
    {before : Progress}
    (hYes : ∀ after, test.run before = (.ok true, after) →
      yes.run after = yes'.run after)
    (hNo : ∀ after, test.run before = (.ok false, after) →
      no.run after = no'.run after) :
    (choose test yes no).run before =
      (choose test yes' no').run before := by
  rcases hTest : test.run before with ⟨found | found, after⟩
  · rw [choose, choose, run_bind_error hTest, run_bind_error hTest]
  · rw [choose, choose, run_bind_ok hTest, run_bind_ok hTest]
    cases found with
    | true => exact hYes after hTest
    | false => exact hNo after hTest

end Evaluating

------------------------------------------------------------
-- Truth
------------------------------------------------------------

namespace Expr

open Evaluating (choose)

variable {mode : Mode} {env : Environment}

/- Both expressions are true. -/
def and
    (a b : Expr) : Expr :=
  .binary (.logical .and) a b

/- One of the expressions is true. -/
def or
    (a b : Expr) : Expr :=
  .binary (.logical .or) a b

/- The expression is not true. -/
def not
    (a : Expr) : Expr :=
  .unary .not a

/- Evaluate an expression, and keep its truth only. -/
def truth
    (mode : Mode)
    (env : Environment)
    (e : Expr) : Evaluating Bool :=
  Value.toBoolean <$> e.eval mode env

/- A choice by the truth of an expression. -/
theorem choose_truth
    {α : Type}
    (a : Expr)
    (yes no : Evaluating α) :
    choose (a.truth mode env) yes no =
      (do
        let value ← a.eval mode env
        if value.toBoolean then yes else no) := by
  rw [choose, truth, bind_map_left]

/- A conditional chooses between its branches. -/
theorem eval_conditional
    (a b c : Expr) :
    (conditional a b c).eval mode env =
      choose (a.truth mode env) (b.eval mode env)
        (c.eval mode env) := by
  rw [choose_truth, eval]

/- The right side of a conjunction decides if the left is true. -/
theorem eval_and
    (a b : Expr) :
    (a.and b).eval mode env =
      Value.boolean <$>
        choose (a.truth mode env) (b.truth mode env)
          (pure false) := by
  rw [Evaluating.map_choose, choose_truth, and, eval, truth]
  refine bind_congr fun value => ?_
  cases value.toBoolean with
  | true => simp
  | false => rfl

/- The right side of a disjunction decides if the left is false. -/
theorem eval_or
    (a b : Expr) :
    (a.or b).eval mode env =
      Value.boolean <$>
        choose (a.truth mode env) (pure true)
          (b.truth mode env) := by
  rw [Evaluating.map_choose, choose_truth, or, eval, truth]
  refine bind_congr fun value => ?_
  cases value.toBoolean with
  | true => rfl
  | false => simp

/- A negation gives the opposite. -/
theorem eval_not
    (a : Expr) :
    (a.not).eval mode env =
      Value.boolean <$> Bool.not <$> a.truth mode env := by
  rw [truth, not, eval]
  simp only [map_eq_pure_bind, bind_assoc, pure_bind]
  rfl

/- The truth of a truth value. -/
theorem truth_of_eval
    {a : Expr}
    {step : Evaluating Bool}
    (h : a.eval mode env = Value.boolean <$> step) :
    a.truth mode env = step := by
  rw [truth, h, Functor.map_map]
  exact id_map step

/- The truth of a conditional is that of the chosen branch. -/
theorem truth_conditional
    (a b c : Expr) :
    (conditional a b c).truth mode env =
      choose (a.truth mode env) (b.truth mode env)
        (c.truth mode env) := by
  rw [truth, eval_conditional, Evaluating.map_choose, truth, truth, truth]

/- So is that of a conjunction. -/
theorem truth_and
    (a b : Expr) :
    (a.and b).truth mode env =
      choose (a.truth mode env) (b.truth mode env) (pure false) :=
  truth_of_eval (eval_and a b)

/- So is that of a disjunction. -/
theorem truth_or
    (a b : Expr) :
    (a.or b).truth mode env =
      choose (a.truth mode env) (pure true) (b.truth mode env) :=
  truth_of_eval (eval_or a b)

/- The truth of a negation is the opposite. -/
theorem truth_not
    (a : Expr) :
    (a.not).truth mode env = Bool.not <$> a.truth mode env :=
  truth_of_eval (eval_not a)

/- A value is made a truth value by two negations. -/
theorem eval_not_not
    (a : Expr) :
    (a.not.not).eval mode env =
      Value.boolean <$> a.truth mode env := by
  rw [eval_not, truth_not, Functor.map_map Bool.not Bool.not]
  simp only [Bool.not_not, id_map']

------------------------------------------------------------
-- Laws
------------------------------------------------------------

/- Not both are true if one is not. -/
theorem eval_not_and
    (a b : Expr) :
    ((a.and b).not).eval mode env =
      (a.not.or b.not).eval mode env := by
  rw [eval_not, truth_and, eval_or, truth_not, truth_not,
    Evaluating.choose_not, Evaluating.map_choose, map_pure]
  rfl

/- Not one is true if both are not. -/
theorem eval_not_or
    (a b : Expr) :
    ((a.or b).not).eval mode env =
      (a.not.and b.not).eval mode env := by
  rw [eval_not, truth_or, eval_and, truth_not, truth_not,
    Evaluating.choose_not, Evaluating.map_choose, map_pure]
  rfl

/- Conjunctions may be grouped either way. -/
theorem eval_and_assoc
    (a b c : Expr) :
    ((a.and b).and c).eval mode env =
      (a.and (b.and c)).eval mode env := by
  rw [eval_and, eval_and, truth_and, truth_and,
    Evaluating.choose_choose, Evaluating.choose_false]

/- Disjunctions may be grouped either way. -/
theorem eval_or_assoc
    (a b c : Expr) :
    ((a.or b).or c).eval mode env =
      (a.or (b.or c)).eval mode env := by
  rw [eval_or, eval_or, truth_or, truth_or,
    Evaluating.choose_choose, Evaluating.choose_true]

/- A conjunction is a conditional. -/
theorem eval_and_eq_conditional
    (a b : Expr) :
    (a.and b).eval mode env =
      (conditional a b.not.not (.literal (.boolean false))).eval
        mode env := by
  rw [eval_and, eval_conditional, eval_not_not,
    Evaluating.map_choose, map_pure]
  rfl

/- A disjunction is a conditional. -/
theorem eval_or_eq_conditional
    (a b : Expr) :
    (a.or b).eval mode env =
      (conditional a (.literal (.boolean true)) b.not.not).eval
        mode env := by
  rw [eval_or, eval_conditional, eval_not_not,
    Evaluating.map_choose, map_pure]
  rfl

/- The opposite condition exchanges the branches. -/
theorem eval_conditional_not
    (a b c : Expr) :
    (conditional a.not b c).eval mode env =
      (conditional a c b).eval mode env := by
  rw [eval_conditional, eval_conditional, truth_not,
    Evaluating.choose_not]

/- A conditional is negated in its branches. -/
theorem eval_not_conditional
    (a b c : Expr) :
    ((conditional a b c).not).eval mode env =
      (conditional a b.not c.not).eval mode env := by
  rw [eval_not, truth_conditional, eval_conditional, eval_not,
    eval_not, Evaluating.map_choose, Evaluating.map_choose]

/- A conditional condition decides between conditionals. -/
theorem eval_conditional_conditional
    (a b c d e : Expr) :
    (conditional (.conditional a b c) d e).eval mode env =
      (conditional a (.conditional b d e)
        (.conditional c d e)).eval mode env := by
  rw [eval_conditional, truth_conditional, eval_conditional,
    eval_conditional, eval_conditional, Evaluating.choose_choose]

------------------------------------------------------------
-- What Is Not Selected
------------------------------------------------------------

/- Does the expression, evaluated at this point, give the value? -/
def GivesAt
    (mode : Mode)
    (env : Environment)
    (progress : Progress)
    (e : Expr)
    (value : Value) : Prop :=
  ∃ after, (e.eval mode env).run progress = (.ok value, after)

/-
  Evaluated at this point, the expressions give the same value,
  reports and failure, and make the same number of beans.
-/
def Alike
    (mode : Mode)
    (env : Environment)
    (progress : Progress)
    (e f : Expr) : Prop :=
  (e.eval mode env).run progress = (f.eval mode env).run progress

/- Expressions that are evaluated by the same steps are alike. -/
theorem alike_of_eval_eq
    {e f : Expr}
    (progress : Progress)
    (h : e.eval mode env = f.eval mode env) :
    Alike mode env progress e f := by
  rw [Alike, h]

/- Expressions that are alike from the start have one outcome. -/
theorem Alike.evaluate_eq
    {e f : Expr}
    (h : Alike mode env .start e f) :
    e.evaluate mode env = f.evaluate mode env := by
  rw [evaluate, evaluate, Evaluating.outcome, Evaluating.outcome, h]

/- The truth that is found is that of a value. -/
theorem givesAt_of_truth
    {a : Expr}
    {progress after : Progress}
    {found : Bool}
    (h : (a.truth mode env).run progress = (.ok found, after)) :
    ∃ value, a.GivesAt mode env progress value ∧
      value.toBoolean = found := by
  rw [truth, map_eq_pure_bind] at h
  rcases hValue : (a.eval mode env).run progress with
    ⟨d | value, next⟩
  · rw [Evaluating.run_bind_error hValue] at h
    cases h
  · rw [Evaluating.run_bind_ok hValue] at h
    cases h
    exact ⟨value, ⟨_, hValue⟩, rfl⟩

/- What is chosen if the test is true does not matter otherwise. -/
theorem run_choose_of_false
    {α : Type}
    {a : Expr}
    {progress : Progress}
    (yes yes' no : Evaluating α)
    (h : ∀ value, a.GivesAt mode env progress value →
      value.toBoolean = false) :
    (choose (a.truth mode env) yes no).run progress =
      (choose (a.truth mode env) yes' no).run progress := by
  refine Evaluating.run_choose_congr ?_ fun _ _ => rfl
  intro after hTrue
  rcases givesAt_of_truth hTrue with ⟨value, hValue, hFound⟩
  rw [h value hValue] at hFound
  cases hFound

/- What is chosen if the test is false does not matter otherwise. -/
theorem run_choose_of_true
    {α : Type}
    {a : Expr}
    {progress : Progress}
    (yes no no' : Evaluating α)
    (h : ∀ value, a.GivesAt mode env progress value →
      value.toBoolean = true) :
    (choose (a.truth mode env) yes no).run progress =
      (choose (a.truth mode env) yes no').run progress := by
  refine Evaluating.run_choose_congr (fun _ _ => rfl) ?_
  intro after hFalse
  rcases givesAt_of_truth hFalse with ⟨value, hValue, hFound⟩
  rw [h value hValue] at hFound
  cases hFound

/- The key does not matter if the object is null. -/
theorem alike_access
    {object : Expr}
    {progress : Progress}
    (key other : Expr)
    (h : ∀ value, object.GivesAt mode env progress value →
      value.isNull = true) :
    Alike mode env progress (.access object key)
      (.access object other) := by
  rw [Alike, eval, eval]
  rcases hObject : (object.eval mode env).run progress with
    ⟨d | owner, after⟩
  · rw [Evaluating.run_bind_error hObject,
      Evaluating.run_bind_error hObject]
  · have hNull := h owner ⟨after, hObject⟩
    rw [Evaluating.run_bind_ok hObject,
      Evaluating.run_bind_ok hObject, if_pos hNull, if_pos hNull]

/-
  The laws of the logical operators and the conditional.  In each
  mode and environment, and wherever they are evaluated, both sides
  give the same value, reports and failure.  So do two nodes that
  differ in a part that is not selected: the part behind a
  conjunction that is false or a disjunction that is true, the
  other branch of a conditional, the key of an access to null.

  Values of two evaluations are the same up to which objects the
  new beans are, which both number from the same number on.
-/
theorem laws_of_choices
    (mode : Mode)
    (env : Environment) :
    (∀ (progress : Progress) (a b c d e : Expr),
      Alike mode env progress (a.and b).not (a.not.or b.not) ∧
      Alike mode env progress (a.or b).not (a.not.and b.not) ∧
      Alike mode env progress ((a.and b).and c) (a.and (b.and c)) ∧
      Alike mode env progress ((a.or b).or c) (a.or (b.or c)) ∧
      Alike mode env progress (a.and b)
        (.conditional a b.not.not (.literal (.boolean false))) ∧
      Alike mode env progress (a.or b)
        (.conditional a (.literal (.boolean true)) b.not.not) ∧
      Alike mode env progress (.conditional a.not b c)
        (.conditional a c b) ∧
      Alike mode env progress (Expr.conditional a b c).not
        (.conditional a b.not c.not) ∧
      Alike mode env progress
        (.conditional (.conditional a b c) d e)
        (.conditional a (.conditional b d e)
          (.conditional c d e))) ∧
    (∀ (progress : Progress) (a b other : Expr),
      (∀ value, a.GivesAt mode env progress value →
        value.toBoolean = false) →
      Alike mode env progress (a.and b) (a.and other)) ∧
    (∀ (progress : Progress) (a b other : Expr),
      (∀ value, a.GivesAt mode env progress value →
        value.toBoolean = true) →
      Alike mode env progress (a.or b) (a.or other)) ∧
    (∀ (progress : Progress) (a b c other : Expr),
      (∀ value, a.GivesAt mode env progress value →
        value.toBoolean = true) →
      Alike mode env progress (.conditional a b c)
        (.conditional a b other)) ∧
    (∀ (progress : Progress) (a b c other : Expr),
      (∀ value, a.GivesAt mode env progress value →
        value.toBoolean = false) →
      Alike mode env progress (.conditional a b c)
        (.conditional a other c)) ∧
    (∀ (progress : Progress) (object key other : Expr),
      (∀ value, object.GivesAt mode env progress value →
        value.isNull = true) →
      Alike mode env progress (.access object key)
        (.access object other)) ∧
    (∀ e f : Expr, Alike mode env .start e f →
      e.evaluate mode env = f.evaluate mode env) := by
  refine ⟨?_, ?_, ?_, ?_, ?_, fun _ _ => alike_access,
    fun _ _ => Alike.evaluate_eq⟩
  · intro progress a b c d e
    exact ⟨alike_of_eval_eq _ (eval_not_and a b),
      alike_of_eval_eq _ (eval_not_or a b),
      alike_of_eval_eq _ (eval_and_assoc a b c),
      alike_of_eval_eq _ (eval_or_assoc a b c),
      alike_of_eval_eq _ (eval_and_eq_conditional a b),
      alike_of_eval_eq _ (eval_or_eq_conditional a b),
      alike_of_eval_eq _ (eval_conditional_not a b c),
      alike_of_eval_eq _ (eval_not_conditional a b c),
      alike_of_eval_eq _ (eval_conditional_conditional a b c d e)⟩
  · intro progress a b other h
    rw [Alike, eval_and, eval_and, Evaluating.map_choose,
      Evaluating.map_choose]
    exact run_choose_of_false _ _ _ h
  · intro progress a b other h
    rw [Alike, eval_or, eval_or, Evaluating.map_choose,
      Evaluating.map_choose]
    exact run_choose_of_true _ _ _ h
  · intro progress a b c other h
    rw [Alike, eval_conditional, eval_conditional]
    exact run_choose_of_true _ _ _ h
  · intro progress a b c other h
    rw [Alike, eval_conditional, eval_conditional]
    exact run_choose_of_false _ _ _ h

/- Nothing fails in strict mode where nothing is selected. -/
theorem laws_of_choices_skipped :
    ((Expr.literal .null).and
        (.unary .negate (.literal (.boolean true)))).evaluate
          .strict (PageContext.environment {}) =
      ⟨.ok ⟨.boolean false, []⟩, []⟩ ∧
    ((Expr.literal (.string "x")).or
        (.unary .negate (.literal (.boolean true)))).evaluate
          .strict (PageContext.environment {}) =
      ⟨.ok ⟨.boolean true, []⟩, []⟩ ∧
    (Expr.conditional (.literal (.string "x")) (.literal .null)
        (.unary .negate (.literal (.boolean true)))).evaluate
          .strict (PageContext.environment {}) =
      ⟨.ok ⟨.null, []⟩, []⟩ ∧
    (Expr.conditional (.literal .null)
        (.unary .negate (.literal (.boolean true)))
        (.literal .null)).evaluate
          .strict (PageContext.environment {}) =
      ⟨.ok ⟨.null, []⟩, []⟩ ∧
    (Expr.access (.var "none")
        (.unary .negate (.literal (.boolean true)))).evaluate
          .strict (PageContext.environment {}) =
      ⟨.ok ⟨.null, []⟩, []⟩ := by
  rcases laws_of_choices .strict (PageContext.environment {}) with
    ⟨-, hAnd, hOr, hElse, hThen, hKey, hOutcome⟩
  -- In place of the failing part there might be null.
  refine ⟨?_, ?_, ?_, ?_, ?_⟩
  · refine (hOutcome _ _ (hAnd .start _ _ (.literal .null) ?_)).trans
      rfl
    rintro value ⟨after, ⟨⟩⟩
    rfl
  · refine (hOutcome _ _ (hOr .start _ _ (.literal .null) ?_)).trans
      rfl
    rintro value ⟨after, ⟨⟩⟩
    rfl
  · refine (hOutcome _ _
      (hElse .start _ _ _ (.literal .null) ?_)).trans rfl
    rintro value ⟨after, ⟨⟩⟩
    rfl
  · refine (hOutcome _ _
      (hThen .start _ _ _ (.literal .null) ?_)).trans rfl
    rintro value ⟨after, ⟨⟩⟩
    rfl
  · refine (hOutcome _ _ (hKey .start _ _ (.literal .null) ?_)).trans
      rfl
    rintro value ⟨after, ⟨⟩⟩
    rfl

end Expr

end PageExpr
