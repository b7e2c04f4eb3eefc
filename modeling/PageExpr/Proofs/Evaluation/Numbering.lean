import PageExpr.Proofs.Evaluation.Dependence
import PageExpr.Proofs.Evaluation.OrderCoherence
import PageExpr.Proofs.Value.Renumbering

/-
  Evaluations that number their beans from other numbers on.

  Each evaluation numbers its new beans from zero on, so equal
  results of two evaluations are the same only up to which new
  beans they hold.  This loses nothing: from any other number on
  an evaluation takes the same steps, and gives the same result,
  reports and lines with other numbers for its beans.

  Main declarations:
    * `Value.access_renumber`
    * `Environment.Hosted`
    * `Evaluating.Renumbers`
    * `Expr.renumbers_eval`
    * `Template.renumbers_eval`
    * `Evaluating.outcomeFrom`
    * `Outcome.Alike`
    * `Template.outcomeFrom_eq`
    * `Template.alike_of_evaluate_eq`
-/

namespace PageExpr

------------------------------------------------------------
-- Operations
------------------------------------------------------------

/- The properties of a cookie are texts, numbers and truths. -/
theorem Cookie.renumberResult_property
    (k : Nat)
    (c : Cookie)
    (name : String) :
    Value.renumberResult k (c.property name) = c.property name := by
  unfold Cookie.property
  split
  · rfl
  · rfl
  · exact congrArg Except.ok (Value.hosted_ofOptionalString _ k)
  · exact congrArg Except.ok (Value.hosted_ofOptionalString _ k)
  · rfl
  · rfl
  · rfl

/- The properties of a request are texts. -/
theorem RequestInfo.renumberResult_property
    (k : Nat)
    (info : RequestInfo)
    (name : String) :
    Value.renumberResult k (info.property name) =
      info.property name := by
  unfold RequestInfo.property
  split
  · rfl
  · rfl
  · rfl
  · exact congrArg Except.ok (Value.hosted_ofOptionalString _ k)
  · exact congrArg Except.ok (Value.hosted_ofOptionalString _ k)
  · rfl
  · rfl

/- A property is read of the bean with its other number. -/
theorem Bean.property_renumber
    (k : Nat)
    (body : Bean Value)
    (fresh : Identity)
    (name : String) :
    (Value.renumberBody k body).property (fresh.renumber k) name =
      Value.renumberResult k (body.property fresh name) := by
  cases body with
  | host typeName read => rfl
  | cookie c => exact (c.renumberResult_property k name).symm
  | request info => exact (info.renumberResult_property k name).symm
  | session id =>
      simp only [Value.renumberBody, property]
      split <;> rfl
  | pageContext info sessionId =>
      simp only [Value.renumberBody, property]
      split
      · rfl
      · split
        · cases sessionId <;> rfl
        · rfl

namespace Value

/- An access gives the value with its other numbers. -/
theorem access_renumber
    (k : Nat)
    (object key : Value)
    (fresh : Identity) :
    (object.renumber k).access (key.renumber k) (fresh.renumber k) =
      (object.access key fresh).map (renumber k) := by
  cases object with
  | object fields =>
      simp only [renumber, access, toKey_renumber, renumberFields_eq,
        Fields.get?_mapValues]
      cases Fields.get? key.toKey fields <;> rfl
  | array items =>
      simp only [renumber, access, toIndex_renumber,
        renumberItems_eq, List.getElem?_map]
      cases key.toIndex with
      | error e => rfl
      | ok index =>
          simp only
          split
          · rfl
          · cases items[index.toInt.toNat]? <;> rfl
  | bean identity body =>
      simp only [renumber, access, toKey_renumber,
        typeName_renumberBody, Bean.property_renumber]
      cases body.property fresh key.toKey with
      | ok value => rfl
      | error e => cases e <;> rfl
  | _ =>
      simp only [renumber, access, toKey_renumber]
      rfl

end Value

namespace Comparison

/- Loose equality tells apart the same values. -/
theorem loosely_renumber
    (k : Nat)
    (a b : Value) :
    loosely (a.renumber k) (b.renumber k) = loosely a b := by
  -- What is left to the structure is as equal as it was.
  cases a <;> cases b <;>
    first
    | rfl
    | exact Value.equals_renumber k _ _

/- So do the operators of order. -/
theorem apply_renumber
    (k : Nat)
    (op : OrderingOp)
    (a b : Value) :
    apply op (a.renumber k) (b.renumber k) =
      (apply op a b).map (Value.renumber k) := by
  have hOrder :
      order op (a.renumber k) (b.renumber k) = order op a b := by
    by_cases hStrings : ∃ s t, a = .string s ∧ b = .string t
    · rcases hStrings with ⟨s, t, rfl, rfl⟩
      rfl
    · have hOther :
          ¬ ∃ s t, a.renumber k = .string s ∧
            b.renumber k = .string t := by
        rintro ⟨s, t, hLeft, hRight⟩
        cases a <;> cases hLeft
        cases b <;> cases hRight
        exact hStrings ⟨_, _, rfl, rfl⟩
      simp only [order_of_notStrings op hStrings,
        order_of_notStrings op hOther, Value.isNumber_renumber,
        Value.toNumber_renumber, Value.typeName_renumber]
  unfold apply
  rw [Value.isNull_renumber, Value.isNull_renumber, hOrder]
  split
  · rfl
  · cases order op a b <;> rfl

end Comparison

namespace Arithmetic

/- Arithmetic depends on the numbers that the operands are. -/
theorem apply_renumber
    (k : Nat)
    (op : ArithmeticOp)
    (a b : Value) :
    apply op (a.renumber k) (b.renumber k) =
      (apply op a b).map (Value.renumber k) := by
  unfold apply
  rw [Value.toNumber_renumber, Value.toNumber_renumber]
  cases a.toNumber with
  | error e => rfl
  | ok x =>
      cases b.toNumber with
      | error e => rfl
      | ok y =>
          simp only
          cases zeroDivisor? op y with
          | some failure => rfl
          | none =>
              exact congrArg Except.ok
                (Value.hosted_ofNumber _ k).symm

end Arithmetic

/- So does the minus sign. -/
theorem Arithmetic.negate_renumber
    (k : Nat)
    (v : Value) :
    negate (v.renumber k) = (negate v).map (Value.renumber k) := by
  unfold negate
  rw [Value.toNumber_renumber]
  cases v.toNumber with
  | error e => rfl
  | ok n =>
      exact congrArg Except.ok (Value.hosted_ofNumber _ k).symm

/- Operators on one operand give the same. -/
theorem UnaryOp.apply_renumber
    (k : Nat)
    (op : UnaryOp)
    (operand : Value) :
    op.apply (operand.renumber k) =
      (op.apply operand).map (Value.renumber k) := by
  cases op with
  | negate => exact Arithmetic.negate_renumber k operand
  | not =>
      rw [apply, apply, Value.toBoolean_renumber]
      rfl
  | empty =>
      rw [apply, apply, Value.isEmpty_renumber]
      rfl

namespace BinaryOp

/- The same left operands decide an operation. -/
theorem isDecidedBy_renumber
    (k : Nat)
    (op : BinaryOp)
    (left : Value) :
    op.isDecidedBy (left.renumber k) = op.isDecidedBy left := by
  unfold isDecidedBy
  rw [Value.toBoolean_renumber]

/- Operators on two operands give the same. -/
theorem apply_renumber
    (k : Nat)
    (op : BinaryOp)
    (left right : Value) :
    op.apply (left.renumber k) (right.renumber k) =
      (op.apply left right).map (Value.renumber k) := by
  cases op with
  | equality op =>
      cases op <;>
        rw [apply, apply, Comparison.loosely_renumber] <;> rfl
  | ordering op => exact Comparison.apply_renumber k op left right
  | arithmetic op => exact Arithmetic.apply_renumber k op left right
  | logical op =>
      rw [apply, apply, Value.toBoolean_renumber]
      rfl

/- What stands for a result comes from no evaluation. -/
theorem hosted_default
    (op : BinaryOp) :
    op.default.Hosted := by
  cases op <;> exact fun _ => rfl

end BinaryOp

------------------------------------------------------------
-- The Host
------------------------------------------------------------

/-
  A host whose values come from no evaluation: their beans keep
  their numbers, and the page context gets the number it is made
  with.
-/
structure Environment.Hosted
    (env : Environment) : Prop where
  found : ∀ scope name, ∀ v ∈ env.attribute? scope name, v.Hosted
  scope : ∀ scope, ∀ fields ∈ env.attributes? scope,
    (Value.object fields).Hosted
  pageContext : ∀ k n,
    env.pageContext (.made (n + k)) =
      (env.pageContext (.made n)).renumber k

/- A page context with values of the host is such a host. -/
theorem PageContext.hosted_environment
    {ctx : PageContext}
    (h : ∀ scope, ∀ fields ∈ ctx.attributes? scope,
      (Value.object fields).Hosted) :
    ctx.environment.Hosted := by
  constructor
  case found =>
    intro scope name v hFound
    rcases Option.bind_eq_some_iff.1 hFound with
      ⟨fields, hFields, hField⟩
    exact Value.hosted_object_iff.1 (h scope fields hFields) name v
      (Fields.mem_of_get? hField)
  case scope => exact h
  case pageContext => exact fun _ _ => rfl

namespace ImplicitObject

variable {env : Environment}

/- The attributes of a scope keep their numbers. -/
theorem hosted_ofScope
    (hEnv : env.Hosted)
    (scope : Scope) :
    (ofScope env scope).Hosted := by
  unfold ofScope
  cases hFields : env.attributes? scope with
  | none => exact fun _ => rfl
  | some fields => exact hEnv.scope scope fields hFields

/- First values are texts. -/
theorem hosted_firstValues
    (fields : Fields (List String)) :
    (firstValues fields).Hosted := by
  refine Value.hosted_object_iff.2 fun name v hField => ?_
  rcases List.mem_filterMap.1 hField with
    ⟨⟨key, values⟩, -, hFirst⟩
  rcases Option.map_eq_some_iff.1 hFirst with ⟨text, -, hEntry⟩
  cases hEntry
  exact fun _ => rfl

/- All values are arrays of texts. -/
theorem hosted_allValues
    (fields : Fields (List String)) :
    (allValues fields).Hosted := by
  refine Value.hosted_object_iff.2 fun name v hField => ?_
  rcases List.mem_map.1 hField with ⟨⟨key, values⟩, -, hEntry⟩
  cases hEntry
  refine Value.hosted_array fun item hItem => ?_
  rcases List.mem_map.1 hItem with ⟨text, -, rfl⟩
  exact fun _ => rfl

/- A cookie gets its number from another one on. -/
theorem addCookie_renumber
    (k : Nat)
    (found : Fields Value × Nat)
    (cookie : Cookie) :
    addCookie (found.1.mapValues (Value.renumber k), found.2 + k)
        cookie =
      ((addCookie found cookie).1.mapValues (Value.renumber k),
        (addCookie found cookie).2 + k) := by
  unfold addCookie
  simp only [Fields.get?_mapValues]
  cases found.1.get? cookie.name with
  | some v => rfl
  | none =>
      simp only [Option.map_none, Fields.mapValues_insert,
        Nat.add_right_comm]
      rfl

/- So do all cookies. -/
theorem cookieFields_renumber
    (cookies : List Cookie)
    (next k : Nat) :
    cookieFields cookies (next + k) =
      ((cookieFields cookies next).1.mapValues (Value.renumber k),
        (cookieFields cookies next).2 + k) := by
  have hFold (found : Fields Value × Nat) :
      cookies.foldl addCookie
          (found.1.mapValues (Value.renumber k), found.2 + k) =
        ((cookies.foldl addCookie found).1.mapValues
            (Value.renumber k),
          (cookies.foldl addCookie found).2 + k) := by
    induction cookies generalizing found with
    | nil => rfl
    | cons cookie rest ih =>
        rw [List.foldl_cons, List.foldl_cons, addCookie_renumber, ih]
  exact hFold ([], next)

/- An implicit object is made with other numbers. -/
theorem resolve_renumber
    (hEnv : env.Hosted)
    (object : ImplicitObject)
    (next k : Nat) :
    object.resolve env (next + k) =
      ((object.resolve env next).1.renumber k,
        (object.resolve env next).2 + k) := by
  have hKept (v : Value) (h : v.Hosted) :
      (v, next + k) = (v.renumber k, next + k) := by
    rw [h k]
  cases object with
  | pageContext =>
      rw [resolve, resolve, hEnv.pageContext, Nat.add_right_comm]
  | page => exact hKept _ (hosted_ofScope hEnv .page)
  | request => exact hKept _ (hosted_ofScope hEnv .request)
  | session => exact hKept _ (hosted_ofScope hEnv .session)
  | application => exact hKept _ (hosted_ofScope hEnv .application)
  | param => exact hKept _ (hosted_firstValues _)
  | params => exact hKept _ (hosted_allValues _)
  | header => exact hKept _ (hosted_firstValues _)
  | headers => exact hKept _ (hosted_allValues _)
  | initParam =>
      refine hKept _ (Value.hosted_object_iff.2 fun name v hField => ?_)
      rcases List.mem_map.1 hField with ⟨entry, -, hEntry⟩
      cases hEntry
      exact fun _ => rfl
  | cookie =>
      simp only [resolve, cookieFields_renumber, Value.renumber,
        Value.renumberFields_eq]

end ImplicitObject

/- So is what a name stands for. -/
theorem Environment.resolve?_renumber
    {env : Environment}
    (hEnv : env.Hosted)
    (name : String)
    (next k : Nat) :
    env.resolve? name (next + k) =
      ((env.resolve? name next).1.map (Value.renumber k),
        (env.resolve? name next).2 + k) := by
  unfold resolve?
  cases ImplicitObject.ofName? name with
  | some object =>
      simp only [ImplicitObject.resolve_renumber hEnv]
      rfl
  | none =>
      simp only
      cases hFound : env.findInScopes? name with
      | none => rfl
      | some v =>
          rcases List.exists_of_findSome?_eq_some hFound with
            ⟨scope, -, hAttribute⟩
          rw [Option.map_some, hEnv.found scope name v hAttribute k]

------------------------------------------------------------
-- Computations
------------------------------------------------------------

/- Other numbers are the next free ones. -/
def Progress.renumber
    (k : Nat)
    (progress : Progress) : Progress :=
  { progress with nextBean := progress.nextBean + k }

namespace Evaluating

variable {α β : Type} {k : Nat}

/-
  From other numbers on, the second computation takes the steps
  of the first and gives its result, changed as the numbers are.
-/
def Renumbers
    (k : Nat)
    (change : α → α)
    (step other : Evaluating α) : Prop :=
  ∀ before : Progress,
    other.run (before.renumber k) =
      ((step.run before).1.map change,
        (step.run before).2.renumber k)

/- A value is changed. -/
theorem renumbers_pure
    {change : α → α}
    {value other : α}
    (h : change value = other) :
    Renumbers k change (pure value) (pure other) := by
  intro before
  rw [← h]
  rfl

/- Beans are made with other numbers. -/
theorem renumbers_making
    {change : α → α}
    {make : Nat → α × Nat}
    (h : ∀ next,
      make (next + k) =
        (change (make next).1, (make next).2 + k)) :
    Renumbers k change (making make) (making make) := by
  intro before
  have hMake := h before.nextBean
  have hRun (progress : Progress) :
      (making make).run progress =
        (.ok (make progress.nextBean).1,
          { progress with
            nextBean := (make progress.nextBean).2 }) :=
    rfl
  rw [hRun, hRun, Progress.renumber, Progress.renumber, hMake]
  rfl

/- A failure is logged and reported as it was. -/
theorem renumbers_settle
    {mode : Mode}
    {node : Expr}
    {default : Value}
    {result other : Except Failure Value}
    (hDefault : default.Hosted)
    (h : other = result.map (Value.renumber k)) :
    Renumbers k (Value.renumber k) (settle mode node default result)
      (settle mode node default other) := by
  intro before
  subst h
  cases result with
  | ok value => rfl
  | error failure =>
      cases mode with
      | strict => rfl
      | lenient =>
          have hRun (progress : Progress) :
              (settle .lenient node default (.error failure)).run
                  progress =
                (.ok default,
                  (progress.logged ⟨failure, node⟩).report
                    ⟨failure, node⟩) :=
            rfl
          change (settle .lenient node default (.error failure)).run
            _ = _
          rw [hRun, hRun]
          simp only [Except.map, hDefault k]
          rfl

/- Steps that follow each other are changed one by one. -/
theorem Renumbers.bind
    {change : α → α}
    {changeNext : β → β}
    {step other : Evaluating α}
    {next otherNext : α → Evaluating β}
    (h : Renumbers k change step other)
    (hNext : ∀ value,
      Renumbers k changeNext (next value) (otherNext (change value))) :
    Renumbers k changeNext (step >>= next) (other >>= otherNext) := by
  intro before
  have hStep := h before
  cases hRun : step.run before with
  | mk result after =>
      rw [hRun] at hStep
      cases result with
      | ok value =>
          rw [run_bind_ok hStep, run_bind_ok hRun, hNext value after]
      | error d =>
          rw [run_bind_error hStep, run_bind_error hRun]
          rfl

/- A text has no numbers. -/
theorem Renumbers.forText
    {step other : Evaluating String}
    (h : Renumbers k id step other) :
    Renumbers k id (forText step) (forText other) := by
  intro before
  have hStep := h before
  cases hRun : step.run before with
  | mk result after =>
      rw [hRun] at hStep
      cases result with
      | ok text =>
          rw [run_forText_ok hStep, run_forText_ok hRun]
          rfl
      | error d =>
          rw [run_forText_error hStep, run_forText_error hRun]
          rfl

end Evaluating

------------------------------------------------------------
-- Expressions and Templates
------------------------------------------------------------

open Evaluating (Renumbers renumbers_pure renumbers_making
  renumbers_settle)

namespace Expr

/- The constants of the expression come from no evaluation. -/
def Hosted : Expr → Prop
  | .literal value => value.Hosted
  | .implicit _ => True
  | .var _ => True
  | .access object key => object.Hosted ∧ key.Hosted
  | .binary _ left right => left.Hosted ∧ right.Hosted
  | .unary _ operand => operand.Hosted
  | .conditional condition thenBranch elseBranch =>
      condition.Hosted ∧ thenBranch.Hosted ∧ elseBranch.Hosted

/- Constants that can be written come from no evaluation. -/
theorem Canonical.hosted
    {e : Expr}
    (h : e.Canonical) :
    e.Hosted := by
  induction e with
  | literal value =>
      cases value <;> first | exact fun _ => rfl | cases h
  | implicit object => trivial
  | var name => trivial
  | access object key ihObject ihKey =>
      exact ⟨ihObject h.1, ihKey h.2⟩
  | binary op left right ihLeft ihRight =>
      exact ⟨ihLeft h.1, ihRight h.2⟩
  | unary op operand ih => exact ih h
  | conditional condition thenBranch elseBranch ihCondition ihThen
      ihElse =>
      exact ⟨ihCondition h.1, ihThen h.2.1, ihElse h.2.2⟩

/- From other numbers on, an expression gives the same value. -/
theorem renumbers_eval
    {env : Environment}
    {e : Expr}
    (mode : Mode)
    (k : Nat)
    (hEnv : env.Hosted)
    (h : e.Hosted) :
    Renumbers k (Value.renumber k) (e.eval mode env)
      (e.eval mode env) := by
  induction e with
  | literal value => exact renumbers_pure (h k)
  | implicit object =>
      exact renumbers_making fun next =>
        object.resolve_renumber hEnv next k
  | var name =>
      have hMaking :=
        renumbers_making fun next =>
          Environment.resolve?_renumber hEnv name next k
      refine hMaking.bind fun value? => renumbers_pure ?_
      cases value? <;> rfl
  | access object key ihObject ihKey =>
      refine (ihObject h.1).bind fun owner => ?_
      rw [Value.isNull_renumber]
      split
      · exact renumbers_pure rfl
      · refine (ihKey h.2).bind fun name => ?_
        rw [Value.isNull_renumber]
        split
        · exact renumbers_pure rfl
        · have hFresh :
              Renumbers k (Identity.renumber k)
                (Evaluating.making fun next =>
                  (Identity.made next, next + 1))
                (Evaluating.making fun next =>
                  (Identity.made next, next + 1)) :=
            renumbers_making fun next => by
              rw [Nat.add_right_comm]
              rfl
          refine hFresh.bind fun fresh => ?_
          exact renumbers_settle (fun _ => rfl)
            (owner.access_renumber k name fresh)
  | binary op left right ihLeft ihRight =>
      rw [eval_binary]
      refine (ihLeft h.1).bind fun a => ?_
      rw [BinaryOp.isDecidedBy_renumber, Value.toBoolean_renumber]
      split
      · exact renumbers_pure rfl
      · refine (ihRight h.2).bind fun b => ?_
        exact renumbers_settle op.hosted_default
          (op.apply_renumber k a b)
  | unary op operand ih =>
      refine (ih h).bind fun a => ?_
      exact renumbers_settle (fun _ => rfl)
        (op.apply_renumber k a)
  | conditional condition thenBranch elseBranch ihCondition ihThen
      ihElse =>
      refine (ihCondition h.1).bind fun chosen => ?_
      rw [Value.toBoolean_renumber]
      split
      · exact ihThen h.2.1
      · exact ihElse h.2.2

end Expr

namespace Template

/- The constants of the expressions come from no evaluation. -/
def Hosted
    (template : Template) : Prop :=
  ∀ tree ∈ template.trees, tree.Hosted

/- Those of a template that has been parsed do. -/
theorem hosted_of_parse
    {source : String}
    {template : Template}
    (h : parse source = .ok template) :
    template.Hosted := by
  intro tree hTree
  rcases fromParser_of_parse h tree hTree with ⟨body, hParse⟩
  exact (Expr.canonical_of_parse hParse).hosted

/- From other numbers on, parts give the same text. -/
theorem renumbers_render
    {env : Environment}
    {parts : List Part}
    (mode : Mode)
    (k : Nat)
    (hEnv : env.Hosted)
    (h : ∀ tree ∈ parts.filterMap Part.tree?, tree.Hosted) :
    Renumbers k id (render mode env parts)
      (render mode env parts) := by
  induction parts with
  | nil => exact renumbers_pure rfl
  | cons part rest ih =>
      cases part with
      | text content =>
          exact (ih h).bind fun _ => renumbers_pure rfl
      | expression expr =>
          rcases List.forall_mem_cons.1 h with ⟨hExpr, hRest⟩
          have hEval := expr.renumbers_eval mode k hEnv hExpr
          have hText :
              Renumbers k id
                (expr.eval mode env >>= fun v => pure v.text)
                (expr.eval mode env >>= fun v => pure v.text) :=
            hEval.bind fun v => renumbers_pure (v.text_renumber k).symm
          exact hText.forText.bind fun _ =>
            (ih hRest).bind fun _ => renumbers_pure rfl

/- From other numbers on, a template gives the same value. -/
theorem renumbers_eval
    {env : Environment}
    {template : Template}
    (mode : Mode)
    (k : Nat)
    (hEnv : env.Hosted)
    (h : template.Hosted) :
    Renumbers k (Value.renumber k) (template.eval mode env)
      (template.eval mode env) := by
  cases template with
  | literal content => exact renumbers_pure rfl
  | expression expr =>
      exact expr.renumbers_eval mode k hEnv
        (h expr List.mem_cons_self)
  | composite parts =>
      exact (renumbers_render mode k hEnv h).bind fun _ =>
        renumbers_pure rfl

end Template

------------------------------------------------------------
-- Outcomes
------------------------------------------------------------

/- Carry out an evaluation from some number on. -/
def Evaluating.outcomeFrom
    (first : Nat)
    (evaluating : Evaluating Value) : Outcome :=
  let (result, progress) :=
    evaluating.run (Progress.start.renumber first)
  { result := result.map fun value => ⟨value, progress.reports⟩
    log := progress.log }

/- The result holds new beans with other numbers. -/
def Outcome.renumber
    (k : Nat)
    (outcome : Outcome) : Outcome :=
  { outcome with
    result := outcome.result.map fun evaluation =>
      { evaluation with value := evaluation.value.renumber k } }

/- Outcomes that differ in the numbers of new beans at most. -/
def Outcome.Alike
    (outcome other : Outcome) : Prop :=
  ∃ common k l,
    outcome = common.renumber k ∧ other = Outcome.renumber l common

/- What is changed with the numbers is changed in the outcome. -/
theorem Evaluating.Renumbers.outcomeFrom_eq
    {k : Nat}
    {step : Evaluating Value}
    (h : Renumbers k (Value.renumber k) step step) :
    step.outcomeFrom k = step.outcome.renumber k := by
  unfold outcomeFrom
  rw [h .start]
  unfold outcome
  cases step.run .start with
  | mk result after => cases result <;> rfl

/-
  An expression has the same outcome from any number on, up to
  the numbers of new beans.
-/
theorem Expr.outcomeFrom_eq
    {env : Environment}
    {e : Expr}
    (mode : Mode)
    (first : Nat)
    (hEnv : env.Hosted)
    (h : e.Hosted) :
    (e.eval mode env).outcomeFrom first =
      (e.evaluate mode env).renumber first :=
  (e.renumbers_eval mode first hEnv h).outcomeFrom_eq

/- So has a template. -/
theorem Template.outcomeFrom_eq
    {env : Environment}
    {template : Template}
    (mode : Mode)
    (first : Nat)
    (hEnv : env.Hosted)
    (h : template.Hosted) :
    (template.eval mode env).outcomeFrom first =
      (template.evaluate mode env).renumber first :=
  (template.renumbers_eval mode first hEnv h).outcomeFrom_eq

/-
  Outcomes that are equal when both evaluations number their
  beans from zero on are alike when they number them from any
  numbers on, and so when new beans differ from all others.
-/
theorem Template.alike_of_evaluate_eq
    {env otherEnv : Environment}
    {template other : Template}
    {mode otherMode : Mode}
    (first second : Nat)
    (hEnv : env.Hosted)
    (hOtherEnv : otherEnv.Hosted)
    (hTemplate : template.Hosted)
    (hOther : other.Hosted)
    (h :
      template.evaluate mode env = other.evaluate otherMode otherEnv) :
    ((template.eval mode env).outcomeFrom first).Alike
      ((other.eval otherMode otherEnv).outcomeFrom second) := by
  refine ⟨template.evaluate mode env, first, second,
    template.outcomeFrom_eq mode first hEnv hTemplate, ?_⟩
  rw [h]
  exact other.outcomeFrom_eq otherMode second hOtherEnv hOther

end PageExpr
