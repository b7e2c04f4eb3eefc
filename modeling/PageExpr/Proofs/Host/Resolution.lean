import PageExpr.Evaluation.Evaluator
import PageExpr.Proofs.Host.History
import PageExpr.Proofs.Syntax.CanonicalText

/-
  The ways to resolve a name agree.

  A name can be looked for in a page context itself, in what an
  expression sees of it, as a variable, and as a member of the
  objects that stand for the scopes.  As no scope holds null, all
  of these find the same attribute.  The names of the implicit
  objects lead to the objects, but the scopes still have whatever
  attributes bear such a name.

  Main declarations:
    * `Expr.inScope`, `Expr.Gives`
    * `PageContext.findInScopes?_environment`
    * `PageContext.gives_inScope`
    * `PageContext.NullFree.find?_scopes`
    * `PageContext.ResolvesAlike`
    * `PageContext.resolvesAlike_after`
-/

namespace PageExpr

------------------------------------------------------------
-- Expressions
------------------------------------------------------------

/- The implicit object that shows the attributes of a scope. -/
def Scope.object : Scope → ImplicitObject
  | .page => .page
  | .request => .request
  | .session => .session
  | .application => .application

namespace Expr

/- A name as a member of the object for a scope. -/
def inScope
    (scope : Scope)
    (name : String) : Expr :=
  .access (.implicit scope.object) (.literal (.string name))

/- Does the expression give a value in each mode, with no failure? -/
def Gives
    (env : Environment)
    (expr : Expr)
    (value : Value) : Prop :=
  ∀ mode, expr.evaluate mode env = ⟨.ok ⟨value, []⟩, []⟩

/- A variable gives what its name is resolved to. -/
theorem gives_var
    (env : Environment)
    (name : String) :
    (var name).Gives env ((env.resolve? name 0).1.getD .null) :=
  fun _ => rfl

/- An implicit object gives its value. -/
theorem gives_implicit
    (env : Environment)
    (object : ImplicitObject) :
    (implicit object).Gives env (object.resolve env 0).1 :=
  fun _ => rfl

/- The name of an implicit object is an expression for it. -/
theorem parse_name
    (object : ImplicitObject) :
    parse object.name = .ok (.implicit object) :=
  parse_text (e := .implicit object) trivial

end Expr

namespace PageContext

open PageExpr.Expr (Gives inScope gives_var gives_implicit)

------------------------------------------------------------
-- Look-Up
------------------------------------------------------------

/- A name is looked for in one scope behind the other. -/
theorem findAttribute?_eq_findSome?
    (ctx : PageContext)
    (name : String) :
    ctx.findAttribute? name =
      Scope.searchOrder.findSome? fun scope =>
        ctx.attribute? scope name := by
  have hScopes : ∀ scopes : List Scope,
      (scopes.filterMap ctx.attributes?).findSome?
          (Fields.get? name) =
        scopes.findSome? fun scope => ctx.attribute? scope name := by
    intro scopes
    induction scopes with
    | nil => rfl
    | cons scope rest ih =>
        rw [List.filterMap_cons, List.findSome?_cons, ← ih, attribute?]
        cases ctx.attributes? scope <;> rfl
  exact hScopes Scope.searchOrder

/- To pass over a missing session scope makes no difference. -/
theorem findInScopes?_environment
    (ctx : PageContext)
    (name : String) :
    ctx.environment.findInScopes? name =
      ctx.findAttribute? name := by
  rw [findAttribute?_eq_findSome?, Environment.findInScopes?]
  cases hSession : ctx.hasSession with
  | true => simp [environment, hSession, Scope.searchOrder]
  | false =>
      have hNone := attribute?_of_hasSession name hSession
      simp [environment, hSession, Scope.searchOrder,
        List.findSome?_cons, hNone]

/- The object for a scope has its attributes, or is empty. -/
theorem gives_inScope
    (ctx : PageContext)
    (scope : Scope)
    (name : String) :
    (inScope scope name).Gives ctx.environment
      ((ctx.attribute? scope name).getD .null) := by
  have hFields :
      (Fields.get? name ((ctx.attributes? scope).getD [])).getD
          .null =
        (ctx.attribute? scope name).getD .null := by
    rw [attribute?]
    cases ctx.attributes? scope <;> rfl
  intro mode
  rw [← hFields]
  cases scope <;> rfl

/- No attribute is null where no scope holds null. -/
theorem NullFree.attribute?_ne
    {ctx : PageContext}
    (h : ctx.NullFree)
    (scope : Scope)
    (name : String) :
    ctx.attribute? scope name ≠ some .null := by
  intro hNull
  rcases Option.bind_eq_some_iff.1 hNull with
    ⟨fields, hFields, hEntry⟩
  exact h scope fields hFields _ (Fields.mem_of_get? hEntry) rfl

/- The first value found is the first that is not null. -/
theorem find?_map_getD
    {found? : Scope → Option Value}
    (h : ∀ scope, found? scope ≠ some .null)
    (scopes : List Scope) :
    (scopes.map fun scope => (found? scope).getD .null).find?
        (fun value => !value.isNull) =
      scopes.findSome? found? := by
  induction scopes with
  | nil => rfl
  | cons scope rest ih =>
      rw [List.map_cons, List.find?_cons, List.findSome?_cons, ih]
      cases hFound : found? scope with
      | none => rfl
      | some value =>
          cases value with
          | null => exact absurd hFound (h scope)
          | _ => rfl

------------------------------------------------------------
-- Agreement
------------------------------------------------------------

/-
  All ways to resolve a name in a page context agree.  The scopes
  are seen through their objects.  A name that belongs to no
  implicit object stands for the first attribute in the scopes,
  and else for the object, as a name, as a variable and as a text.
-/
structure ResolvesAlike
    (ctx : PageContext)
    (name : String) : Prop where
  inScopes :
    ctx.environment.findInScopes? name = ctx.findAttribute? name
  members : ∀ scope,
    (inScope scope name).Gives ctx.environment
      ((ctx.attribute? scope name).getD .null)
  first :
    (Scope.searchOrder.map fun scope =>
        (ctx.attribute? scope name).getD .null).find?
          (fun value => !value.isNull) =
      ctx.findAttribute? name
  plain : ImplicitObject.ofName? name = none →
    (∀ next, ctx.environment.resolve? name next =
      (ctx.findAttribute? name, next)) ∧
    (Expr.var name).Gives ctx.environment
      ((ctx.findAttribute? name).getD .null)
  implicit : ∀ object, ImplicitObject.ofName? name = some object →
    (∀ next, ctx.environment.resolve? name next =
      ((object.resolve ctx.environment next).map some id)) ∧
    (Expr.var name).Gives ctx.environment
      (object.resolve ctx.environment 0).1 ∧
    Expr.parse name = .ok (.implicit object) ∧
    (Expr.implicit object).Gives ctx.environment
      (object.resolve ctx.environment 0).1

/- In each context that can be reached, all ways agree. -/
theorem resolvesAlike_after
    (actions : List ContextAction)
    (name : String) :
    ResolvesAlike (after {} actions) name where
  inScopes := findInScopes?_environment _ name
  members := fun scope => gives_inScope _ scope name
  first := by
    have hNullFree := nullFree_after actions
    rw [findAttribute?_eq_findSome?]
    exact find?_map_getD
      (fun scope => hNullFree.attribute?_ne scope name) _
  plain := by
    intro hName
    have hResolve :
        ∀ next, (after {} actions).environment.resolve? name next =
          ((after {} actions).findAttribute? name, next) := by
      intro next
      rw [Environment.resolve?, hName, ← findInScopes?_environment]
    refine ⟨hResolve, ?_⟩
    have hVar := gives_var (after {} actions).environment name
    rwa [hResolve] at hVar
  implicit := by
    intro object hName
    have hResolve :
        ∀ next, (after {} actions).environment.resolve? name next =
          (object.resolve (after {} actions).environment next).map
            some id := by
      intro next
      rw [Environment.resolve?, hName]
      rfl
    have hVar := gives_var (after {} actions).environment name
    rw [hResolve] at hVar
    refine ⟨hResolve, hVar, ?_, gives_implicit _ object⟩
    rw [← ImplicitObject.ofName?_eq_some_iff.1 hName]
    exact Expr.parse_name object

/- An attribute named as an object is seen in its scope only. -/
theorem resolvesAlike_after_page :
    ImplicitObject.ofName? "user" = none ∧
      (Expr.var "user").Gives
        (after {}
          [.startSession "a", .set "session" "page" (.integer 1),
            .set "application" "user" (.integer 2)]).environment
        (.integer 2) ∧
      ImplicitObject.ofName? "page" = some .page ∧
      (Expr.var "page").Gives
        (after {}
          [.startSession "a", .set "session" "page" (.integer 1),
            .set "application" "user" (.integer 2)]).environment
        (.object []) ∧
      (inScope .session "page").Gives
        (after {}
          [.startSession "a", .set "session" "page" (.integer 1),
            .set "application" "user" (.integer 2)]).environment
        (.integer 1) := by
  have hUser := resolvesAlike_after
    [.startSession "a", .set "session" "page" (.integer 1),
      .set "application" "user" (.integer 2)] "user"
  have hPage := resolvesAlike_after
    [.startSession "a", .set "session" "page" (.integer 1),
      .set "application" "user" (.integer 2)] "page"
  exact ⟨rfl, (hUser.plain rfl).2, rfl,
    (hPage.implicit .page rfl).2.1, hPage.members .session⟩

end PageContext

end PageExpr
