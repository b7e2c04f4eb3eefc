import PageExpr.Proofs.Evaluation.Dependence
import PageExpr.Proofs.Host.Submission

/-
  Which data of a page context have influence on a template.

  A reference reads one source of data.  An action makes of the
  data of a source something that depends on these data alone,
  and leaves them as they are unless it touches the source.  So
  the outcome of a template is the same if actions that touch
  none of its sources are left out.

  Main declarations:
    * `Source`, `Source.Data`, `Source.read`
    * `Reference.source`
    * `Source.edit`, `Source.read_perform`
    * `ContextAction.touches`
    * `Source.edit_eq_self`
    * `Source.read_after_filter`
    * `Template.heeds`
    * `Template.depends_on_references`
-/

namespace PageExpr

------------------------------------------------------------
-- Sources
------------------------------------------------------------

/-
  Data of a page context: the attributes of one name, those of
  one scope, the data of the request, or the details of the
  request line with the identity of the session.
-/
inductive Source where
  | named (name : String)
  | inScope (scope : Scope)
  | parameters
  | headers
  | cookies
  | initParameters
  | details

/- The source that a reference reads. -/
def Reference.source : Reference → Source
  | .plain name => .named name
  | .implicit .pageContext => .details
  | .implicit .page => .inScope .page
  | .implicit .request => .inScope .request
  | .implicit .session => .inScope .session
  | .implicit .application => .inScope .application
  | .implicit .param => .parameters
  | .implicit .params => .parameters
  | .implicit .header => .headers
  | .implicit .headers => .headers
  | .implicit .initParam => .initParameters
  | .implicit .cookie => .cookies

/- Only a variable reads the attributes of its name. -/
theorem Reference.source_eq_named_iff
    {reference : Reference}
    {name : String} :
    reference.source = .named name ↔ reference = .plain name := by
  constructor
  · intro h
    cases reference with
    | plain other =>
        cases h
        rfl
    | implicit object => cases object <;> cases h
  · rintro rfl
    rfl

/- Only the object for a scope reads all of its attributes. -/
theorem Reference.source_eq_inScope_iff
    {reference : Reference}
    {scope : Scope} :
    reference.source = .inScope scope ↔
      reference = .implicit scope.object := by
  constructor
  · intro h
    cases reference with
    | plain name => cases h
    | implicit object => cases object <;> cases h <;> rfl
  · rintro rfl
    cases scope <;> rfl

namespace Source

/- What there is in a source. -/
abbrev Data : Source → Type
  | .named _ => Bool × (Scope → Option Value)
  | .inScope _ => Option (Fields Value)
  | .parameters => Fields (List String)
  | .headers => Fields (List String)
  | .cookies => List Cookie
  | .initParameters => Fields String
  | .details => RequestInfo × Option String

/- The data of a source in a page context. -/
def read
    (ctx : PageContext) : (source : Source) → source.Data
  | .named name =>
      (ctx.hasSession, fun scope => ctx.attribute? scope name)
  | .inScope scope => ctx.attributes? scope
  | .parameters => ctx.parameters
  | .headers => ctx.headers
  | .cookies => ctx.cookies
  | .initParameters => ctx.initParameters
  | .details => (ctx.info, ctx.session.map Session.id)

end Source

/- A reference means what there is in its source. -/
theorem Reference.meansSame_of_read_eq
    {reference : Reference}
    {ctx other : PageContext}
    (h : reference.source.read ctx = reference.source.read other) :
    reference.MeansSame ctx.environment other.environment := by
  have hScope : ∀ scope : Scope,
      ctx.attributes? scope = other.attributes? scope →
        ImplicitObject.ofScope ctx.environment scope =
          ImplicitObject.ofScope other.environment scope := by
    intro scope hAttributes
    exact congrArg (fun fields? : Option (Fields Value) =>
      Value.object (fields?.getD [])) hAttributes
  cases reference with
  | plain name =>
      rcases Prod.ext_iff.1 h with ⟨hSession, hAttribute⟩
      exact ⟨hSession, congrFun hAttribute⟩
  | implicit object =>
      intro next
      cases object with
      | pageContext =>
          exact congrArg (fun details : RequestInfo × Option String =>
            Value.bean (.made next)
              (.pageContext details.1 details.2)) h
      | page => exact hScope .page h
      | request => exact hScope .request h
      | session => exact hScope .session h
      | application => exact hScope .application h
      | param => exact congrArg ImplicitObject.firstValues h
      | params => exact congrArg ImplicitObject.allValues h
      | header => exact congrArg ImplicitObject.firstValues h
      | headers => exact congrArg ImplicitObject.allValues h
      | initParam =>
          have hFields : ctx.initParameters = other.initParameters := h
          simp only [ImplicitObject.resolve, PageContext.environment,
            hFields]
      | cookie =>
          exact congrArg (fun cookies =>
            Value.object
              (ImplicitObject.cookieFields cookies next).1) h

------------------------------------------------------------
-- Actions
------------------------------------------------------------

namespace ContextAction

/- Does the action write to a scope? -/
def writesTo
    (scope : Scope) : ContextAction → Bool
  | .set text _ _ => Scope.parse text = .ok scope
  | .remove text _ => Scope.parse text = .ok scope
  | .removeEverywhere _ => true
  | _ => false

/- Does the action change the details of the request line? -/
def changesDetails : ContextAction → Bool
  | .setQueryString _ => true
  | .setRequestInfo _ => true
  | _ => false

/- What the action makes of the details and of the session. -/
def editDetails
    (details : RequestInfo × Option String) :
    ContextAction → RequestInfo × Option String
  | .startSession id => (details.1, some id)
  | .invalidateSession => (details.1, none)
  | .setQueryString query =>
      ({ details.1 with queryString := some query }, details.2)
  | .setRequestInfo info => (info, details.2)
  | _ => details

/- Can the action change the data of a source? -/
def touches
    (action : ContextAction) : Source → Bool
  | .named name =>
      action.turnsSession ||
        Scope.searchOrder.any fun scope => action.writes scope name
  | .inScope scope =>
      scope = .session && action.turnsSession ||
        action.writesTo scope
  | .parameters => !action.parameters.isEmpty
  | .headers => !action.headers.isEmpty
  | .cookies => !action.cookies.isEmpty
  | .initParameters => !action.initParameters.isEmpty
  | .details => action.turnsSession || action.changesDetails

/- A scope to which nothing is written stays as it is. -/
theorem edit_of_writesTo
    {action : ContextAction}
    {scope : Scope}
    (fields : Fields Value)
    (h : action.writesTo scope = false) :
    action.edit scope fields = fields := by
  cases action with
  | set text key value => exact if_neg (of_decide_eq_false h)
  | remove text key => exact if_neg (of_decide_eq_false h)
  | removeEverywhere key => cases h
  | _ => rfl

/- Details that are not touched stay as they are. -/
theorem editDetails_of_touches
    {action : ContextAction}
    (details : RequestInfo × Option String)
    (h : action.touches .details = false) :
    action.editDetails details = details := by
  cases action <;> first | rfl | cases h

end ContextAction

namespace PageContext

/- A change of a scope is no change of the details. -/
theorem details_modifyScope
    (change : Fields Value → Fields Value)
    (ctx : PageContext)
    (scope : Scope) :
    Source.details.read (ctx.modifyScope change scope) =
      Source.details.read ctx := by
  cases scope with
  | session =>
      exact congrArg (Prod.mk ctx.info)
        (Option.map_map Session.id _ ctx.session)
  | _ => rfl

/- Nor is it if the scope is named. -/
theorem details_modifyNamed
    (change : Fields Value → Fields Value)
    (ctx : PageContext)
    (text : String) :
    Source.details.read (ctx.modifyNamed change text) =
      Source.details.read ctx := by
  unfold modifyNamed
  cases Scope.parse text with
  | error e => rfl
  | ok scope => exact details_modifyScope change ctx scope

/- The details and the session's identity are edited. -/
theorem details_perform
    (ctx : PageContext)
    (action : ContextAction) :
    Source.details.read (action.perform ctx).1 =
      action.editDetails (Source.details.read ctx) := by
  cases action with
  | set text key value =>
      rw [perform_set]
      exact details_modifyNamed _ ctx text
  | remove text key =>
      rw [perform_remove]
      exact details_modifyNamed _ ctx text
  | removeEverywhere key =>
      simp only [ContextAction.perform, removeEverywhere,
        Scope.searchOrder, List.foldl_cons, List.foldl_nil,
        removeAttribute_eq, details_modifyScope]
      rfl
  | setQueryString query =>
      rw [ContextAction.perform, setQueryString_eq]
      rfl
  | «attribute» text key =>
      rw [ContextAction.perform, fst_inScope]
      rfl
  | listScope text =>
      rw [ContextAction.perform, fst_inScope]
      rfl
  | _ => rfl

end PageContext

------------------------------------------------------------
-- Steps
------------------------------------------------------------

namespace Source

open PageContext (appendAll)

/- What an action makes of the data of a source. -/
def edit
    (action : ContextAction) :
    (source : Source) → source.Data → source.Data
  | .named name, (hasSession, found?) =>
      (if action.turnsSession then action.startsSession
        else hasSession,
        fun scope =>
          if scope = .session ∧
              (action.turnsSession = true ∨ hasSession = false)
          then none
          else if action.writes scope name then action.left
          else found? scope)
  | .inScope scope, fields? =>
      if scope = .session ∧ action.turnsSession = true then
        if action.startsSession then some [] else none
      else fields?.map fun fields => action.edit scope fields
  | .parameters, fields => appendAll action.parameters fields
  | .headers, fields => appendAll action.headers fields
  | .cookies, given => given ++ action.cookies
  | .initParameters, fields =>
      action.initParameters.foldl (fun fields (name, value) =>
        fields.insert name value) fields
  | .details, given => action.editDetails given

/- A step edits the data of each source, and sees nothing else. -/
theorem read_perform
    (source : Source)
    (ctx : PageContext)
    (action : ContextAction) :
    source.read (action.perform ctx).1 =
      source.edit action (source.read ctx) := by
  have hSubmits := PageContext.submits_perform ctx action
  cases source with
  | named name =>
      apply Prod.ext (PageContext.hasSession_perform ctx action)
      funext scope
      exact PageContext.attribute?_perform_eq ctx action scope name
  | inScope scope =>
      exact PageContext.attributes?_perform_eq ctx action scope
  | parameters => exact hSubmits.parameters
  | headers => exact hSubmits.headers
  | cookies => exact hSubmits.cookies
  | initParameters => exact hSubmits.initParameters
  | details => exact PageContext.details_perform ctx action

/- A source that is not touched stays as it is. -/
theorem edit_eq_self
    {action : ContextAction}
    {source : Source}
    (ctx : PageContext)
    (h : action.touches source = false) :
    source.edit action (source.read ctx) = source.read ctx := by
  cases source with
  | named name =>
      rcases Bool.or_eq_false_iff.1 h with ⟨hTurns, hWrites⟩
      simp only [edit, read, hTurns]
      refine Prod.ext rfl (funext fun scope => ?_)
      have hScope : ¬ action.writes scope name = true :=
        List.any_eq_false.1 hWrites scope (Scope.mem_searchOrder scope)
      dsimp only
      rw [if_neg hScope]
      -- Nothing is lost where there is no session, as nothing is there.
      split
      · rename_i hLost
        rcases hLost with ⟨rfl, hLost | hNone⟩
        · cases hLost
        · exact (PageContext.attribute?_of_hasSession name hNone).symm
      · rfl
  | inScope scope =>
      rcases Bool.or_eq_false_iff.1 h with ⟨hTurns, hWrites⟩
      have hKept :
          ¬ (scope = .session ∧ action.turnsSession = true) := by
        simpa using hTurns
      rw [edit, if_neg hKept]
      simp only [ContextAction.edit_of_writesTo _ hWrites]
      exact Option.map_id'
  | parameters =>
      have hNone : action.parameters = [] := by
        simpa [ContextAction.touches] using h
      rw [edit, hNone]
      rfl
  | headers =>
      have hNone : action.headers = [] := by
        simpa [ContextAction.touches] using h
      rw [edit, hNone]
      rfl
  | cookies =>
      have hNone : action.cookies = [] := by
        simpa [ContextAction.touches] using h
      rw [edit, hNone]
      exact List.append_nil _
  | initParameters =>
      have hNone : action.initParameters = [] := by
        simpa [ContextAction.touches] using h
      rw [edit, hNone]
      rfl
  | details => exact ContextAction.editDetails_of_touches _ h

------------------------------------------------------------
-- Runs
------------------------------------------------------------

/- Actions that do not touch a source may be left out. -/
theorem read_after_filter
    {source : Source}
    {heeds : ContextAction → Bool}
    (h : ∀ action : ContextAction,
      action.touches source = true → heeds action = true)
    (ctx : PageContext)
    (actions : List ContextAction) :
    source.read (ctx.after actions) =
      source.read (ctx.after (actions.filter heeds)) := by
  induction actions using List.reverseRecOn with
  | nil => rfl
  | append_singleton actions action ih =>
      rw [List.filter_append, PageContext.after_concat, read_perform]
      cases hHeeds : heeds action with
      | true =>
          rw [List.filter_cons_of_pos hHeeds, List.filter_nil,
            PageContext.after_concat, read_perform, ih]
      | false =>
          have hTouches : action.touches source = false := by
            rw [← Bool.not_eq_true]
            intro hTouches
            rw [h action hTouches] at hHeeds
            cases hHeeds
          rw [List.filter_cons_of_neg (Bool.not_eq_true _ ▸ hHeeds),
            List.filter_nil, List.append_nil,
            edit_eq_self _ hTouches, ih]

end Source

------------------------------------------------------------
-- Templates
------------------------------------------------------------

/- The name of a scope leads back to it. -/
theorem Scope.parse_name
    (scope : Scope) :
    parse scope.name = .ok scope := by
  cases scope <;> rfl

namespace Template

/- Can the action change what the template reads? -/
def heeds
    (template : Template)
    (action : ContextAction) : Bool :=
  template.references.any fun reference =>
    action.touches reference.source

/- A template has one outcome where there is the same in its sources. -/
theorem evaluate_eq_of_read_eq
    {template : Template}
    {ctx other : PageContext}
    (mode : Mode)
    (h : template.FromParser)
    (hSame : ∀ reference ∈ template.references,
      reference.source.read ctx = reference.source.read other) :
    template.evaluate mode ctx.environment =
      template.evaluate mode other.environment := by
  apply evaluate_congr mode h
  intro reference hReference
  exact Reference.meansSame_of_read_eq (hSame reference hReference)

/- An action that is not heeded has no influence. -/
theorem evaluate_perform
    {template : Template}
    {action : ContextAction}
    (mode : Mode)
    (h : template.FromParser)
    (hHeeds : template.heeds action = false)
    (ctx : PageContext) :
    template.evaluate mode (action.perform ctx).1.environment =
      template.evaluate mode ctx.environment := by
  apply evaluate_eq_of_read_eq mode h
  intro reference hReference
  have hTouches : action.touches reference.source = false :=
    Bool.eq_false_iff.2 (List.any_eq_false.1 hHeeds _ hReference)
  rw [Source.read_perform, Source.edit_eq_self ctx hTouches]

/- Nor have those that are not heeded among others. -/
theorem evaluate_after_filter
    {template : Template}
    (mode : Mode)
    (h : template.FromParser)
    (ctx : PageContext)
    (actions : List ContextAction) :
    template.evaluate mode (ctx.after actions).environment =
      template.evaluate mode
        (ctx.after (actions.filter template.heeds)).environment := by
  apply evaluate_eq_of_read_eq mode h
  intro reference hReference
  apply Source.read_after_filter
  intro action hTouches
  exact List.any_eq_true.2 ⟨reference, hReference, hTouches⟩

/- An attribute named as an implicit object is not heeded. -/
theorem heeds_set_name
    {template : Template}
    {scope : Scope}
    (h : template.FromParser)
    (hScope : .implicit scope.object ∉ template.references)
    (object : ImplicitObject)
    (value : Value) :
    template.heeds (.set scope.name object.name value) = false := by
  apply List.any_eq_false.2
  intro reference hReference hTouches
  cases hSource : reference.source with
  | named name =>
      rw [hSource] at hTouches
      obtain rfl := Reference.source_eq_named_iff.1 hSource
      rcases List.any_eq_true.1 hTouches with ⟨other, -, hWrites⟩
      exact h.ne_of_mem_references hReference object
        (of_decide_eq_true hWrites).2
  | inScope other =>
      rw [hSource] at hTouches
      obtain rfl := Reference.source_eq_inScope_iff.1 hSource
      have hOther : Scope.parse scope.name = .ok other := by
        simpa [ContextAction.touches, ContextAction.turnsSession,
          ContextAction.writesTo] using hTouches
      rw [scope.parse_name] at hOther
      cases hOther
      exact hScope hReference
  | _ =>
      rw [hSource] at hTouches
      cases hTouches

/-
  A template whose trees come from the parser depends on what it
  refers to, in both modes.  Its outcome, that is the value, the
  diagnostics and the failure, is the same in two environments if
  all references mean the same, and no variable among these has
  the name of an implicit object.  It is the same in two page
  contexts if there is the same in the sources of the references,
  whatever else there is.  Actions that touch none of these
  sources have no influence.  An attribute named as an implicit
  object has none either, unless the template refers to the
  object for its scope.

  New beans are numbered in the order in which they are made.
  The values are thus the same up to which objects these are
  (`alike_of_evaluate_eq`).
-/
theorem depends_on_references
    {template : Template}
    (h : template.FromParser) :
    (∀ (env other : Environment) (mode : Mode),
      (∀ reference ∈ template.references,
        reference.MeansSame env other) →
      template.evaluate mode env = template.evaluate mode other) ∧
    (∀ object : ImplicitObject,
      .plain object.name ∉ template.references) ∧
    (∀ (ctx other : PageContext) (mode : Mode),
      (∀ reference ∈ template.references,
        reference.source.read ctx = reference.source.read other) →
      template.evaluate mode ctx.environment =
        template.evaluate mode other.environment) ∧
    (∀ (ctx : PageContext) (actions : List ContextAction)
        (mode : Mode),
      template.evaluate mode (ctx.after actions).environment =
        template.evaluate mode
          (ctx.after (actions.filter template.heeds)).environment) ∧
    (∀ (ctx changed : PageContext) (scope : Scope)
        (object : ImplicitObject) (value : Value) (mode : Mode),
      ctx.setAttribute scope object.name value = .ok changed →
      .implicit scope.object ∉ template.references →
      template.evaluate mode changed.environment =
        template.evaluate mode ctx.environment) := by
  refine ⟨fun _ _ mode => evaluate_congr mode h,
    fun object hName => h.ne_of_mem_references hName object rfl,
    fun _ _ mode => evaluate_eq_of_read_eq mode h,
    fun ctx actions mode => evaluate_after_filter mode h ctx actions,
    ?_⟩
  intro ctx changed scope object value mode hStored hScope
  have hChanged :
      ((ContextAction.set scope.name object.name value).perform
        ctx).1 = changed := by
    rw [ContextAction.perform, ContextAction.inScope,
      scope.parse_name]
    simp only [hStored]
  rw [← hChanged]
  exact evaluate_perform mode h (heeds_set_name h hScope object value)
    ctx

/-
  A page that shows a user and the first value of a parameter
  depends on no other value, no header, and no attribute that is
  named as the object.
-/
theorem depends_on_references_user :
    ∃ template,
      parse "$\x7buser\x7d $\x7bparam.id\x7d" = .ok template ∧
      template.evaluate .strict
          (PageContext.environment
            { parameters := [("id", ["7"])] }) =
        template.evaluate .strict
          (PageContext.environment
            { parameters := [("id", ["7", "8"])] }) ∧
      template.evaluate .lenient
          (PageContext.environment
            { page := [("user", .string "Ann")] }) =
        template.evaluate .lenient
          (PageContext.environment
            { page := [("id", .integer 1), ("user", .string "Ann")]
              headers := [("user", ["Bob"])] }) ∧
      template.evaluate .strict
          (PageContext.after {}
            [.set "page" "user" (.string "Ann"),
              .set "page" "id" (.integer 1), .addParameter "id" "7",
              .setInitParameter "user" "Bob"]).environment =
        template.evaluate .strict
          (PageContext.after {}
            [.set "page" "user" (.string "Ann"),
              .addParameter "id" "7"]).environment ∧
      PageContext.setAttribute {} .page "param" (.integer 1) =
        .ok { page := [("param", .integer 1)] } ∧
      template.evaluate .lenient
          (PageContext.environment
            { page := [("param", .integer 1)] }) =
        template.evaluate .lenient (PageContext.environment {}) := by
  have hParse :
      parse "$\x7buser\x7d $\x7bparam.id\x7d" =
        .ok (.composite [.expression (.var "user"), .text " ",
          .expression (.access (.implicit .param)
            (.literal (.string "id")))]) := by
    rfl
  have hStored :
      PageContext.setAttribute {} .page "param" (.integer 1) =
        .ok { page := [("param", .integer 1)] } := by
    rfl
  rcases depends_on_references (fromParser_of_parse hParse) with
    ⟨hMeanings, -, hSources, hActions, hNamed⟩
  refine ⟨_, hParse, hMeanings _ _ _ ?_, hSources _ _ _ ?_,
    hActions {} _ _, hStored,
    hNamed {} _ .page .param (.integer 1) _ hStored (by decide)⟩
  · refine List.forall_mem_cons.2
      ⟨⟨rfl, ?_⟩, List.forall_mem_singleton.2 fun _ => rfl⟩
    intro scope
    cases scope <;> rfl
  · refine List.forall_mem_cons.2
      ⟨Prod.ext rfl ?_, List.forall_mem_singleton.2 rfl⟩
    funext scope
    cases scope <;> rfl

end Template

end PageExpr
