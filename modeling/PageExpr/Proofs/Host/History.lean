import Mathlib.Data.List.Induction
import PageExpr.Engine.Workbench
import PageExpr.Proofs.Host.RequestData

/-
  What a page context holds after any actions.

  The attribute of a name in a scope is what the last action that
  wrote it there has left.  In the session scope only the actions
  of the present session count.  No scope ever holds null, and an
  action changes nothing but what it writes.

  Main declarations:
    * `ContextAction.writes`, `ContextAction.left`
    * `PageContext.after`
    * `PageContext.remembered`, `PageContext.lastWritten?`
    * `PageContext.attribute?_perform`
    * `PageContext.attribute?_after`
    * `PageContext.NullFree.perform`
    * `PageContext.after_refines_history`
-/

namespace PageExpr

------------------------------------------------------------
-- Actions
------------------------------------------------------------

namespace ContextAction

/- Does the action start a session? -/
def startsSession : ContextAction → Bool
  | .startSession _ => true
  | _ => false

/- Does the action start or end a session? -/
def turnsSession : ContextAction → Bool
  | .startSession _ => true
  | .invalidateSession => true
  | _ => false

/- Does the action change the data of the request? -/
def changesRequest : ContextAction → Bool
  | .addParameter .. => true
  | .addHeader .. => true
  | .setInitParameter .. => true
  | .setQueryString _ => true
  | .addCookie _ => true
  | .setRequestInfo _ => true
  | _ => false

/- Does the action write to a name in a scope? -/
def writes
    (scope : Scope)
    (name : String) : ContextAction → Bool
  | .set text key _ => Scope.parse text = .ok scope ∧ key = name
  | .remove text key => Scope.parse text = .ok scope ∧ key = name
  | .removeEverywhere key => key = name
  | _ => false

/- What the action makes of the entries of a scope. -/
def edit
    (scope : Scope)
    (fields : Fields Value) : ContextAction → Fields Value
  | .set text key value =>
      if Scope.parse text = .ok scope then
        PageContext.stored key value fields
      else fields
  | .remove text key =>
      if Scope.parse text = .ok scope then fields.erase key
      else fields
  | .removeEverywhere key => fields.erase key
  | _ => fields

/- What a write leaves: a value other than null, or nothing. -/
def left : ContextAction → Option Value
  | .set _ _ value => if value.isNull then none else some value
  | _ => none

end ContextAction

namespace PageContext

------------------------------------------------------------
-- Histories
------------------------------------------------------------

/- The page context after actions, one after the other. -/
def after
    (ctx : PageContext)
    (actions : List ContextAction) : PageContext :=
  actions.foldl (fun ctx action => (action.perform ctx).1) ctx

/- Does the last action that starts or ends a session start one? -/
def inSession
    (actions : List ContextAction) : Bool :=
  (actions.reverse.find? ContextAction.turnsSession).any
    ContextAction.startsSession

/-
  The actions that count for a scope, the latest first.  In the
  session scope these are the actions of the present session.
-/
def remembered
    (actions : List ContextAction) : Scope → List ContextAction
  | .session =>
      if inSession actions then
        actions.reverse.takeWhile fun action =>
          !action.turnsSession
      else []
  | _ => actions.reverse

/- What the last write to a name in a scope has left. -/
def lastWritten?
    (actions : List ContextAction)
    (scope : Scope)
    (name : String) : Option Value :=
  ((remembered actions scope).find?
    (ContextAction.writes scope name)).bind ContextAction.left

------------------------------------------------------------
-- Scopes
------------------------------------------------------------

/- Change the scope of a name, if the name is one of a scope. -/
def modifyNamed
    (change : Fields Value → Fields Value)
    (ctx : PageContext)
    (text : String) : PageContext :=
  match Scope.parse text with
  | .ok scope => ctx.modifyScope change scope
  | .error _ => ctx

/- A change of a scope is a change of no other scope. -/
theorem attributes?_modifyScope
    (change : Fields Value → Fields Value)
    (ctx : PageContext)
    (scope other : Scope) :
    (ctx.modifyScope change scope).attributes? other =
      if other = scope then (ctx.attributes? other).map change
      else ctx.attributes? other := by
  cases scope <;> cases other <;>
    simp [modifyScope, attributes?, Function.comp_def]

/- Two changes of a scope are one. -/
theorem modifyScope_modifyScope
    (first second : Fields Value → Fields Value)
    (ctx : PageContext)
    (scope : Scope) :
    (ctx.modifyScope first scope).modifyScope second scope =
      ctx.modifyScope (fun fields => second (first fields)) scope := by
  cases scope <;> simp [modifyScope, Function.comp_def]

/- Without a change a scope stays as it is. -/
theorem modifyScope_id
    (ctx : PageContext)
    (scope : Scope) :
    ctx.modifyScope (fun fields => fields) scope = ctx := by
  cases ctx
  cases scope <;> simp [modifyScope]

/- So is the change of the scope of a name. -/
theorem attributes?_modifyNamed
    (change : Fields Value → Fields Value)
    (ctx : PageContext)
    (text : String)
    (scope : Scope) :
    (ctx.modifyNamed change text).attributes? scope =
      (ctx.attributes? scope).map fun fields =>
        if Scope.parse text = .ok scope then change fields
        else fields := by
  unfold modifyNamed
  cases hParse : Scope.parse text with
  | error e => simp
  | ok target =>
      simp only [attributes?_modifyScope, Except.ok.injEq,
        eq_comm (a := target)]
      split <;> simp

/- There is a session if the session scope has attributes. -/
theorem hasSession_eq_isSome
    (ctx : PageContext) :
    ctx.hasSession = (ctx.attributes? .session).isSome :=
  Option.isSome_map.symm

/- Only the session scope can be missing. -/
theorem attributes?_eq_none_iff
    {ctx : PageContext}
    {scope : Scope} :
    ctx.attributes? scope = none ↔
      scope = .session ∧ ctx.hasSession = false := by
  cases scope <;> simp [attributes?, hasSession]

/- A stored value is found, unless it is null. -/
theorem get?_stored
    (name other : String)
    (value : Value)
    (fields : Fields Value) :
    Fields.get? other (stored name value fields) =
      if other = name then
        if value.isNull then none else some value
      else Fields.get? other fields := by
  unfold stored
  split
  · exact Fields.get?_erase name other fields
  · exact Fields.get?_insert name other value fields

------------------------------------------------------------
-- Operations
------------------------------------------------------------

/- Storing fails only for want of a session. -/
theorem setAttribute_eq_error_iff
    {ctx : PageContext}
    {scope : Scope}
    {name : String}
    {value : Value}
    {e : ContextError} :
    ctx.setAttribute scope name value = .error e ↔
      (scope = .session ∧ ctx.hasSession = false) ∧
        e = .noSession name := by
  rw [← attributes?_eq_none_iff, setAttribute]
  cases ctx.attributes? scope with
  | none => simp [eq_comm]
  | some fields => simp

/- Where storing succeeds, the scope is changed. -/
theorem setAttribute_of_some
    {ctx : PageContext}
    {scope : Scope}
    {fields : Fields Value}
    (name : String)
    (value : Value)
    (h : ctx.attributes? scope = some fields) :
    ctx.setAttribute scope name value =
      .ok (ctx.modifyScope (stored name value) scope) := by
  rw [setAttribute, h]

/- Nothing changes in a scope that is missing. -/
theorem modifyScope_of_none
    {ctx : PageContext}
    {scope : Scope}
    (change : Fields Value → Fields Value)
    (h : ctx.attributes? scope = none) :
    ctx.modifyScope change scope = ctx := by
  cases ctx
  cases scope <;> simp_all [attributes?, modifyScope]

/- Removing hands out the attribute that there was. -/
theorem removeAttribute_eq
    (ctx : PageContext)
    (scope : Scope)
    (name : String) :
    ctx.removeAttribute scope name =
      (ctx.modifyScope (Fields.erase name) scope,
        ctx.attribute? scope name) := by
  rw [removeAttribute, attribute?]
  cases hFields : ctx.attributes? scope with
  | none => rw [modifyScope_of_none _ hFields, Option.bind_none]
  | some fields => rfl

/- A name is removed from each of the scopes. -/
theorem attributes?_removeEverywhere
    (ctx : PageContext)
    (name : String)
    (scope : Scope) :
    (ctx.removeEverywhere name).attributes? scope =
      (ctx.attributes? scope).map (Fields.erase name) := by
  simp only [removeEverywhere, Scope.searchOrder, List.foldl_cons,
    List.foldl_nil, removeAttribute_eq, attributes?_modifyScope]
  cases scope <;> simp

/- The parameters of a query are no attributes. -/
theorem attributes?_setQueryString
    (ctx : PageContext)
    (query : String) :
    (ctx.setQueryString query).attributes? = ctx.attributes? := by
  rw [setQueryString_eq]
  funext scope
  cases scope <;> rfl

------------------------------------------------------------
-- Steps
------------------------------------------------------------

/- Storing changes the scope that is named, if there is one. -/
theorem perform_set
    (ctx : PageContext)
    (text name : String)
    (value : Value) :
    ((ContextAction.set text name value).perform ctx).1 =
      ctx.modifyNamed (stored name value) text := by
  rw [ContextAction.perform, ContextAction.inScope, modifyNamed]
  cases Scope.parse text with
  | error e => rfl
  | ok scope =>
      cases hFields : ctx.attributes? scope with
      | none =>
          simp only [setAttribute, hFields,
            modifyScope_of_none _ hFields]
      | some fields =>
          simp only [setAttribute_of_some name value hFields]

/- Removing changes the scope that is named, if there is one. -/
theorem perform_remove
    (ctx : PageContext)
    (text name : String) :
    ((ContextAction.remove text name).perform ctx).1 =
      ctx.modifyNamed (Fields.erase name) text := by
  rw [ContextAction.perform, ContextAction.inScope, modifyNamed]
  cases Scope.parse text with
  | error e => rfl
  | ok scope => simp only [removeAttribute_eq]

/- A question about a scope changes nothing. -/
theorem fst_inScope
    (ctx : PageContext)
    (text : String)
    (reply : Scope → Reply) :
    (ContextAction.inScope ctx text fun scope =>
      (ctx, reply scope)).1 = ctx := by
  rw [ContextAction.inScope]
  cases Scope.parse text <;> rfl

/- An action edits each scope, but a session may be turned. -/
theorem attributes?_perform
    {action : ContextAction}
    {scope : Scope}
    (ctx : PageContext)
    (hKept : scope = .session → action.turnsSession = false) :
    (action.perform ctx).1.attributes? scope =
      (ctx.attributes? scope).map
        (fun fields => action.edit scope fields) := by
  cases action with
  | set text key value =>
      rw [perform_set]
      exact attributes?_modifyNamed _ ctx text scope
  | remove text key =>
      rw [perform_remove]
      exact attributes?_modifyNamed _ ctx text scope
  | removeEverywhere key =>
      exact attributes?_removeEverywhere ctx key scope
  | startSession id =>
      cases scope with
      | session => cases hKept rfl
      | _ => rfl
  | invalidateSession =>
      cases scope with
      | session => cases hKept rfl
      | _ => rfl
  | setQueryString query =>
      rw [ContextAction.perform,
        attributes?_setQueryString]
      exact Option.map_id'.symm
  | «attribute» text key =>
      rw [ContextAction.perform, fst_inScope]
      exact Option.map_id'.symm
  | listScope text =>
      rw [ContextAction.perform, fst_inScope]
      exact Option.map_id'.symm
  | _ => exact Option.map_id'.symm

/- A session is there as before, unless it is started or ended. -/
theorem hasSession_perform
    (ctx : PageContext)
    (action : ContextAction) :
    (action.perform ctx).1.hasSession =
      if action.turnsSession then action.startsSession
      else ctx.hasSession := by
  cases hTurns : action.turnsSession with
  | true =>
      cases action with
      | startSession id => rfl
      | invalidateSession => rfl
      | _ => cases hTurns
  | false =>
      rw [hasSession_eq_isSome,
        attributes?_perform ctx fun _ => hTurns,
        Option.isSome_map, ← hasSession_eq_isSome]
      rfl

/- A scope is read behind an action as it has been edited. -/
theorem get?_edit
    (action : ContextAction)
    (scope : Scope)
    (name : String)
    (fields : Fields Value) :
    Fields.get? name (action.edit scope fields) =
      if action.writes scope name then action.left
      else Fields.get? name fields := by
  cases action with
  | set text key value =>
      by_cases hParse : Scope.parse text = .ok scope <;>
        simp [ContextAction.edit, ContextAction.writes,
          ContextAction.left, hParse, get?_stored,
          eq_comm (a := name)]
  | remove text key =>
      by_cases hParse : Scope.parse text = .ok scope <;>
        simp [ContextAction.edit, ContextAction.writes,
          ContextAction.left, hParse, Fields.get?_erase,
          eq_comm (a := name)]
  | removeEverywhere key =>
      simp [ContextAction.edit, ContextAction.writes,
        ContextAction.left, Fields.get?_erase, eq_comm (a := name)]
  | _ => rfl

/- An attribute behind an action that turns no session. -/
theorem attribute?_perform
    {ctx : PageContext}
    {action : ContextAction}
    {scope : Scope}
    (name : String)
    (hKept : scope = .session → action.turnsSession = false)
    (hScope : ctx.attributes? scope ≠ none) :
    (action.perform ctx).1.attribute? scope name =
      if action.writes scope name then action.left
      else ctx.attribute? scope name := by
  rcases Option.ne_none_iff_exists'.1 hScope with ⟨fields, hFields⟩
  rw [attribute?, attribute?, attributes?_perform ctx hKept, hFields]
  exact get?_edit action scope name fields

/- Without a session there are no attributes in its scope. -/
theorem attribute?_of_hasSession
    {ctx : PageContext}
    (name : String)
    (h : ctx.hasSession = false) :
    ctx.attribute? .session name = none := by
  rw [attribute?, attributes?_eq_none_iff.2 ⟨rfl, h⟩, Option.bind_none]

/- A session has no attributes when it has been turned. -/
theorem attributes?_perform_session
    {action : ContextAction}
    (ctx : PageContext)
    (hTurns : action.turnsSession = true) :
    (action.perform ctx).1.attributes? .session =
      if action.startsSession then some [] else none := by
  cases action with
  | startSession id => rfl
  | invalidateSession => rfl
  | _ => cases hTurns

/- So none is found if there is no session or it is turned. -/
theorem attribute?_perform_session
    {ctx : PageContext}
    {action : ContextAction}
    (name : String)
    (h : action.turnsSession = true ∨ ctx.hasSession = false) :
    (action.perform ctx).1.attribute? .session name = none := by
  cases hTurns : action.turnsSession with
  | true =>
      rw [attribute?, attributes?_perform_session ctx hTurns]
      cases action.startsSession <;> rfl
  | false =>
      apply attribute?_of_hasSession
      simpa [hasSession_perform, hTurns] using h

/- The attributes of a scope are edited, or the session is turned. -/
theorem attributes?_perform_eq
    (ctx : PageContext)
    (action : ContextAction)
    (scope : Scope) :
    (action.perform ctx).1.attributes? scope =
      if scope = .session ∧ action.turnsSession = true then
        if action.startsSession then some [] else none
      else
        (ctx.attributes? scope).map fun fields =>
          action.edit scope fields := by
  split
  · rename_i hTurned
    rcases hTurned with ⟨rfl, hTurns⟩
    exact attributes?_perform_session ctx hTurns
  · rename_i hKept
    rw [not_and, Bool.not_eq_true] at hKept
    exact attributes?_perform ctx hKept

/- An attribute behind an action, in whatever scope. -/
theorem attribute?_perform_eq
    (ctx : PageContext)
    (action : ContextAction)
    (scope : Scope)
    (name : String) :
    (action.perform ctx).1.attribute? scope name =
      if scope = .session ∧
          (action.turnsSession = true ∨ ctx.hasSession = false)
      then none
      else if action.writes scope name then action.left
      else ctx.attribute? scope name := by
  split
  · rename_i hLost
    rcases hLost with ⟨rfl, hLost⟩
    exact attribute?_perform_session name hLost
  · rename_i hKept
    rw [not_and, not_or, Bool.not_eq_true, Bool.not_eq_false]
      at hKept
    have hScope : ctx.attributes? scope ≠ none := by
      rw [Ne, attributes?_eq_none_iff]
      rintro ⟨hSession, hNone⟩
      simp [(hKept hSession).2] at hNone
    exact attribute?_perform name (fun h => (hKept h).1) hScope

------------------------------------------------------------
-- Runs
------------------------------------------------------------

/- One more action is performed last. -/
theorem after_concat
    (ctx : PageContext)
    (actions : List ContextAction)
    (action : ContextAction) :
    ctx.after (actions ++ [action]) =
      (action.perform (ctx.after actions)).1 := by
  simp [after]

/- One more action may turn the session. -/
theorem inSession_concat
    (actions : List ContextAction)
    (action : ContextAction) :
    inSession (actions ++ [action]) =
      if action.turnsSession then action.startsSession
      else inSession actions := by
  cases hTurns : action.turnsSession <;>
    simp [inSession, hTurns]

/- One more action is remembered first, or ends all memory. -/
theorem remembered_concat
    (actions : List ContextAction)
    (action : ContextAction)
    (scope : Scope) :
    remembered (actions ++ [action]) scope =
      if scope = .session ∧
          (action.turnsSession = true ∨ inSession actions = false)
      then []
      else action :: remembered actions scope := by
  cases scope with
  | session =>
      cases hTurns : action.turnsSession <;>
        cases hSession : inSession actions <;>
        simp [remembered, inSession_concat, hTurns, hSession]
  | _ => simp [remembered]

/- There is a session if one has been started last. -/
theorem hasSession_after
    (actions : List ContextAction) :
    (after {} actions).hasSession = inSession actions := by
  induction actions using List.reverseRecOn with
  | nil => rfl
  | append_singleton actions action ih =>
      rw [after_concat, hasSession_perform, inSession_concat, ih]

/- An attribute is what has been written last. -/
theorem attribute?_after
    (actions : List ContextAction)
    (scope : Scope)
    (name : String) :
    (after {} actions).attribute? scope name =
      lastWritten? actions scope name := by
  induction actions using List.reverseRecOn with
  | nil => cases scope <;> rfl
  | append_singleton actions action ih =>
      rw [after_concat, attribute?_perform_eq, lastWritten?,
        remembered_concat, hasSession_after]
      split
      · rfl
      · rw [ih, lastWritten?, List.find?_cons]
        cases action.writes scope name <;> rfl

/- Has every scope only values other than null? -/
def NullFree
    (ctx : PageContext) : Prop :=
  ∀ scope fields, ctx.attributes? scope = some fields →
    ∀ entry ∈ fields, entry.2 ≠ .null

/- An action puts no null into a scope. -/
theorem edit_ne_null
    (action : ContextAction)
    (scope : Scope)
    {fields : Fields Value}
    (h : ∀ entry ∈ fields, entry.2 ≠ .null) :
    ∀ entry ∈ action.edit scope fields, entry.2 ≠ .null := by
  have hErase :
      ∀ name, ∀ entry ∈ Fields.erase name fields,
        entry.2 ≠ .null := by
    intro name entry hEntry
    exact h entry ((List.mem_filter.1 hEntry).1)
  cases action with
  | set text key value =>
      simp only [ContextAction.edit, stored]
      split
      · split
        · exact hErase key
        · rename_i hNull
          intro entry hEntry
          rcases Fields.mem_insert hEntry with rfl | hEntry
          · rintro rfl
            exact hNull rfl
          · exact h entry hEntry
      · exact h
  | remove text key =>
      simp only [ContextAction.edit]
      split
      · exact hErase key
      · exact h
  | removeEverywhere key => exact hErase key
  | _ => exact h

/- A step keeps the scopes free of null. -/
theorem NullFree.perform
    {ctx : PageContext}
    (h : ctx.NullFree)
    (action : ContextAction) :
    (action.perform ctx).1.NullFree := by
  intro scope fields hFields
  by_cases hKept : scope = .session → action.turnsSession = false
  · rw [attributes?_perform ctx hKept, Option.map_eq_some_iff]
      at hFields
    rcases hFields with ⟨before, hBefore, rfl⟩
    exact edit_ne_null action scope (h scope before hBefore)
  · rw [Classical.not_imp, Bool.not_eq_false] at hKept
    rcases hKept with ⟨rfl, hTurns⟩
    rw [attributes?_perform_session ctx hTurns] at hFields
    cases hStarts : action.startsSession <;>
      simp [hStarts] at hFields
    subst hFields
    exact List.forall_mem_nil _

/- After all actions the scopes are free of null. -/
theorem nullFree_after
    (actions : List ContextAction) :
    (after {} actions).NullFree := by
  induction actions using List.reverseRecOn with
  | nil =>
      intro scope fields hFields
      cases scope <;> cases hFields <;> exact List.forall_mem_nil _
  | append_singleton actions action ih =>
      rw [after_concat]
      exact ih.perform action

------------------------------------------------------------
-- What Stays
------------------------------------------------------------

/- The context without its scopes: the data of the request. -/
def withoutScopes
    (ctx : PageContext) : PageContext :=
  { ctx with
    page := [], request := [], session := none, application := [] }

/- The data of the request are no attributes. -/
theorem withoutScopes_modifyScope
    (change : Fields Value → Fields Value)
    (ctx : PageContext)
    (scope : Scope) :
    (ctx.modifyScope change scope).withoutScopes =
      ctx.withoutScopes := by
  cases scope <;> rfl

/- Nor are they if the scope is named. -/
theorem withoutScopes_modifyNamed
    (change : Fields Value → Fields Value)
    (ctx : PageContext)
    (text : String) :
    (ctx.modifyNamed change text).withoutScopes =
      ctx.withoutScopes := by
  unfold modifyNamed
  cases Scope.parse text with
  | error e => rfl
  | ok scope => exact withoutScopes_modifyScope change ctx scope

/- Only actions that are meant to change the request change it. -/
theorem withoutScopes_perform
    {action : ContextAction}
    (ctx : PageContext)
    (h : action.changesRequest = false) :
    (action.perform ctx).1.withoutScopes = ctx.withoutScopes := by
  cases action with
  | set text key value =>
      rw [perform_set]
      exact withoutScopes_modifyNamed _ ctx text
  | remove text key =>
      rw [perform_remove]
      exact withoutScopes_modifyNamed _ ctx text
  | removeEverywhere key =>
      simp only [ContextAction.perform, removeEverywhere,
        Scope.searchOrder, List.foldl_cons, List.foldl_nil,
        removeAttribute_eq, withoutScopes_modifyScope]
  | «attribute» text key => rw [ContextAction.perform, fst_inScope]
  | listScope text => rw [ContextAction.perform, fst_inScope]
  | _ => first | rfl | cases h

/- Actions that change the request change no scope. -/
theorem attributes?_perform_of_changesRequest
    {action : ContextAction}
    (ctx : PageContext)
    (h : action.changesRequest = true) :
    (action.perform ctx).1.attributes? = ctx.attributes? := by
  cases action with
  | setQueryString query => exact attributes?_setQueryString ctx query
  | _ => first | rfl | cases h

/- An action that fails changes nothing. -/
theorem fst_perform_of_failed
    {ctx : PageContext}
    {action : ContextAction}
    {e : ActionError}
    (h : (action.perform ctx).2 = .failed e) :
    (action.perform ctx).1 = ctx := by
  cases action with
  | set text key value =>
      rw [ContextAction.perform, ContextAction.inScope] at h ⊢
      cases hParse : Scope.parse text with
      | error e => rfl
      | ok scope =>
          simp only [hParse] at h ⊢
          cases hStore : ctx.setAttribute scope key value with
          | error e => rfl
          | ok changed =>
              rw [hStore] at h
              cases h
  | remove text key =>
      rw [ContextAction.perform, ContextAction.inScope] at h ⊢
      cases hParse : Scope.parse text with
      | error e => rfl
      | ok scope =>
          rw [hParse] at h
          cases h
  | «attribute» text key => rw [ContextAction.perform, fst_inScope]
  | listScope text => rw [ContextAction.perform, fst_inScope]
  | _ => first | rfl | cases h

/-
  After any actions an attribute is what has been written last,
  in the session scope during the present session; there is a
  session if one has been started last; and no scope holds null.
  Storing fails just for want of a session, and a failed action
  changes nothing.  Removing hands out the attribute.  Each
  action changes at most what it writes, or the session that it
  turns, or the data of the request.
-/
theorem after_refines_history :
    (∀ (actions : List ContextAction) (scope : Scope)
        (name : String),
      (after {} actions).attribute? scope name =
        lastWritten? actions scope name) ∧
    (∀ actions : List ContextAction,
      (after {} actions).hasSession = inSession actions ∧
        (after {} actions).NullFree) ∧
    (∀ (ctx : PageContext) (scope : Scope) (name : String)
        (value : Value) (e : ContextError),
      ctx.setAttribute scope name value = .error e ↔
        (scope = .session ∧ ctx.hasSession = false) ∧
          e = .noSession name) ∧
    (∀ (ctx : PageContext) (action : ContextAction)
        (e : ActionError),
      (action.perform ctx).2 = .failed e →
        (action.perform ctx).1 = ctx) ∧
    (∀ (ctx : PageContext) (scope : Scope) (name : String),
      (ctx.removeAttribute scope name).2 =
        ctx.attribute? scope name) ∧
    (∀ (ctx : PageContext) (action : ContextAction)
        (scope : Scope) (name : String),
      action.writes scope name = false →
      (scope = .session → action.turnsSession = false) →
        (action.perform ctx).1.attribute? scope name =
          ctx.attribute? scope name) ∧
    (∀ (ctx : PageContext) (action : ContextAction),
      (action.changesRequest = true →
        (action.perform ctx).1.attributes? = ctx.attributes?) ∧
      (action.changesRequest = false →
        (action.perform ctx).1.withoutScopes =
          ctx.withoutScopes)) := by
  refine ⟨attribute?_after, ?_, fun _ _ _ _ _ =>
    setAttribute_eq_error_iff, fun _ _ _ => fst_perform_of_failed,
    ?_, ?_, ?_⟩
  · exact fun actions =>
      ⟨hasSession_after actions, nullFree_after actions⟩
  · intro ctx scope name
    rw [removeAttribute_eq]
  · intro ctx action scope name hWrites hKept
    by_cases hScope : ctx.attributes? scope = none
    · rw [attribute?, attribute?, attributes?_perform ctx hKept,
        hScope]
      rfl
    · rw [attribute?_perform name hKept hScope, hWrites]
      rfl
  · exact fun ctx action =>
      ⟨attributes?_perform_of_changesRequest ctx,
        withoutScopes_perform ctx⟩

/- A cart is gone with its session, and stays on the page. -/
theorem after_refines_history_cart :
    (ContextAction.perform {}
        (.set "session" "cart" (.integer 1))).2 =
      .failed (.context (.noSession "cart")) ∧
    (ContextAction.perform {}
        (.set "session" "cart" (.integer 1))).1 = {} ∧
    (after {}
      [.set "session" "cart" (.integer 1), .startSession "a",
        .set "Session" "cart" (.integer 2),
        .set "page" "cart" (.integer 3), .startSession "b",
        .set "request" "cart" .null]).attribute?
          .session "cart" = none ∧
    (after {}
      [.set "session" "cart" (.integer 1), .startSession "a",
        .set "Session" "cart" (.integer 2),
        .set "page" "cart" (.integer 3), .startSession "b",
        .set "request" "cart" .null]).attribute?
          .page "cart" = some (.integer 3) ∧
    (ContextAction.startSession "c").writes .page "cart" = false ∧
    (after {}
      [.set "page" "cart" (.integer 3),
        .startSession "c"]).attribute? .page "cart" =
      (after {} [.set "page" "cart" (.integer 3)]).attribute?
        .page "cart" ∧
    (ContextAction.addParameter "cart" "4").changesRequest = true ∧
    (ContextAction.perform {} (.addParameter "cart" "4")).1.attributes? =
      PageContext.attributes? {} ∧
    (ContextAction.startSession "c").changesRequest = false ∧
    (ContextAction.perform {} (.startSession "c")).1.withoutScopes =
      withoutScopes {} := by
  rcases after_refines_history with
    ⟨hHistory, -, -, hFailed, -, hFrame, hRequest⟩
  have hFails :
      (ContextAction.perform {}
          (.set "session" "cart" (.integer 1))).2 =
        .failed (.context (.noSession "cart")) := by
    rfl
  refine ⟨hFails, hFailed _ _ _ hFails, ?_, ?_, rfl, ?_, rfl,
    (hRequest {} (.addParameter "cart" "4")).1 rfl, rfl,
    (hRequest {} (.startSession "c")).2 rfl⟩
  · rw [hHistory]
    rfl
  · rw [hHistory]
    rfl
  · exact hFrame _ (.startSession "c") .page "cart" rfl (by decide)

end PageContext

end PageExpr
