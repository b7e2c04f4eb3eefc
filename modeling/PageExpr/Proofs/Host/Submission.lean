import PageExpr.Proofs.Evaluation.StrictMode
import PageExpr.Proofs.Host.QueryString
import PageExpr.Proofs.Host.Resolution

/-
  What expressions read of the data of a request.

  Of parameters and headers the one object shows all values of a
  name, in the order in which they were submitted, and the other
  object the first of them.  Of the cookies of one name the first
  is shown, and of the init parameters the last.  Whatever is done
  in between to the attributes has no part in this.

  Main declarations:
    * `ContextAction.parameters`, `ContextAction.headers`
    * `ContextAction.cookies`, `ContextAction.initParameters`
    * `PageContext.Submits`, `PageContext.submits_perform`
    * `PageContext.Submitted`, `PageContext.submitted_after`
    * `Expr.member`
    * `Environment.ShowsValues`
    * `Environment.ShowsCookies`
    * `PageContext.submitted_data_is_shown`
-/

namespace PageExpr

------------------------------------------------------------
-- Actions
------------------------------------------------------------

namespace ContextAction

/- The parameters that an action submits, in their order. -/
def parameters : ContextAction → List (String × String)
  | .addParameter name value => [(name, value)]
  | .setQueryString query => Form.parse query
  | _ => []

/- The headers that an action submits. -/
def headers : ContextAction → List (String × String)
  | .addHeader name value => [(name, value)]
  | _ => []

/- The cookies that an action submits. -/
def cookies : ContextAction → List Cookie
  | .addCookie cookie => [cookie]
  | _ => []

/- The init parameters that an action sets. -/
def initParameters : ContextAction → List (String × String)
  | .setInitParameter name value => [(name, value)]
  | _ => []

end ContextAction

namespace PageContext

/-
  The request data of a page context are those of the actions:
  the values of each name behind each other, all cookies, and
  init parameters that were put in one after the other.
-/
structure Submitted
    (actions : List ContextAction)
    (ctx : PageContext) : Prop where
  parameters :
    ctx.parameters =
      appendAll (actions.flatMap ContextAction.parameters) []
  headers :
    ctx.headers =
      appendAll (actions.flatMap ContextAction.headers) []
  cookies :
    ctx.cookies = actions.flatMap ContextAction.cookies
  initParameters :
    ctx.initParameters =
      Fields.ofList (actions.flatMap ContextAction.initParameters)

/-
  What an action submits comes behind the data of the request
  that there are.
-/
structure Submits
    (action : ContextAction)
    (ctx other : PageContext) : Prop where
  parameters :
    other.parameters = appendAll action.parameters ctx.parameters
  headers : other.headers = appendAll action.headers ctx.headers
  cookies : other.cookies = ctx.cookies ++ action.cookies
  initParameters :
    other.initParameters =
      action.initParameters.foldl (fun fields (name, value) =>
        fields.insert name value) ctx.initParameters

/- Only some actions submit anything. -/
theorem submits_nothing
    {action : ContextAction}
    (h : action.changesRequest = false) :
    action.parameters = [] ∧ action.headers = [] ∧
      action.cookies = [] ∧ action.initParameters = [] := by
  cases action <;>
    first
    | exact ⟨rfl, rfl, rfl, rfl⟩
    | cases h

/- A step adds what its action submits. -/
theorem submits_perform
    (ctx : PageContext)
    (action : ContextAction) :
    Submits action ctx (action.perform ctx).1 := by
  cases hRequest : action.changesRequest with
  | false =>
      have hSame := withoutScopes_perform ctx hRequest
      rcases submits_nothing hRequest with
        ⟨hParameters, hHeaders, hCookies, hInit⟩
      constructor
      · have hKept := congrArg PageContext.parameters hSame
        rw [hParameters]
        exact hKept
      · have hKept := congrArg PageContext.headers hSame
        rw [hHeaders]
        exact hKept
      · have hKept := congrArg PageContext.cookies hSame
        rw [hCookies, List.append_nil]
        exact hKept
      · have hKept := congrArg PageContext.initParameters hSame
        rw [hInit]
        exact hKept
  | true =>
      have hCookies : ctx.cookies = ctx.cookies ++ [] :=
        (List.append_nil _).symm
      cases action with
      | addParameter name value => exact ⟨rfl, rfl, hCookies, rfl⟩
      | addHeader name value => exact ⟨rfl, rfl, hCookies, rfl⟩
      | setInitParameter name value =>
          exact ⟨rfl, rfl, hCookies, rfl⟩
      | setQueryString query =>
          rw [ContextAction.perform, setQueryString_eq]
          exact ⟨rfl, rfl, hCookies, rfl⟩
      | addCookie cookie => exact ⟨rfl, rfl, rfl, rfl⟩
      | setRequestInfo info => exact ⟨rfl, rfl, hCookies, rfl⟩
      | _ => cases hRequest

/- What one more action submits comes behind the others. -/
theorem Submitted.concat
    {actions : List ContextAction}
    {action : ContextAction}
    {ctx other : PageContext}
    (h : Submitted actions ctx)
    (hStep : Submits action ctx other) :
    Submitted (actions ++ [action]) other := by
  constructor <;> rw [List.flatMap_append, List.flatMap_singleton]
  · rw [hStep.parameters, h.parameters, appendAll_append]
  · rw [hStep.headers, h.headers, appendAll_append]
  · rw [hStep.cookies, h.cookies]
  · rw [hStep.initParameters, h.initParameters, Fields.ofList,
      Fields.ofList, List.foldl_append]

/- After all actions there is what they have submitted. -/
theorem submitted_after
    (actions : List ContextAction) :
    Submitted actions (after {} actions) := by
  induction actions using List.reverseRecOn with
  | nil => exact ⟨rfl, rfl, rfl, rfl⟩
  | append_singleton actions action ih =>
      rw [after_concat]
      exact ih.concat (submits_perform _ action)

end PageContext

------------------------------------------------------------
-- Names and Values
------------------------------------------------------------

namespace PageContext

/- Values that are added leave no name without one. -/
theorem ne_nil_of_mem_appendAll
    {pairs : List (String × String)}
    {fields : Fields (List String)}
    (h : ∀ entry ∈ fields, entry.2 ≠ []) :
    ∀ entry ∈ appendAll pairs fields, entry.2 ≠ [] := by
  induction pairs generalizing fields with
  | nil => exact h
  | cons pair rest ih =>
      change ∀ entry ∈
        appendAll rest (appendValue pair.1 pair.2 fields),
          entry.2 ≠ []
      apply ih
      intro entry hEntry
      rcases Fields.mem_insert hEntry with rfl | hEntry
      · exact List.append_ne_nil_of_right_ne_nil _
          (List.cons_ne_nil _ _)
      · exact h entry hEntry

/- What was put in last under a name is found. -/
theorem get?_ofList_eq_getLast?
    (name : String)
    (pairs : List (String × String)) :
    Fields.get? name (Fields.ofList pairs) =
      (valuesOf name pairs).getLast? := by
  induction pairs using List.reverseRecOn with
  | nil => rfl
  | append_singleton pairs pair ih =>
      have hLast :
          Fields.ofList (pairs ++ [pair]) =
            (Fields.ofList pairs).insert pair.1 pair.2 := by
        rw [Fields.ofList, Fields.ofList, List.foldl_append]
        rfl
      rw [hLast, Fields.get?_insert, ih, valuesOf_append]
      by_cases hName : name = pair.1
      · simp [valuesOf, hName]
      · simp [valuesOf, hName, Ne.symm hName]

end PageContext

namespace ImplicitObject

/- All values of each name. -/
theorem allValues_eq
    (fields : Fields (List String)) :
    allValues fields =
      .object (fields.mapValues fun values =>
        .array (values.map .string)) :=
  rfl

/- The first values, if no name is without one. -/
theorem firstValues_eq
    {fields : Fields (List String)}
    (h : ∀ entry ∈ fields, entry.2 ≠ []) :
    firstValues fields =
      .object (fields.mapValues fun values =>
        .ofOptionalString values.head?) := by
  rw [firstValues, Fields.mapValues]
  congr 1
  induction fields with
  | nil => rfl
  | cons entry rest ih =>
      obtain ⟨name, values⟩ := entry
      obtain ⟨hFirst, hRest⟩ := List.forall_mem_cons.1 h
      rw [List.filterMap_cons, List.map_cons, ih hRest]
      cases values with
      | nil => exact absurd rfl hFirst
      | cons value values => rfl

/- A cookie gets a bean if its name has none so far. -/
theorem get?_addCookie
    (name : String)
    (found : Fields Value × Nat)
    (cookie : Cookie) :
    (addCookie found cookie).1.get? name =
      (found.1.get? name).or
        (if cookie.name = name then
          some (.bean (.made found.2) (.cookie cookie))
        else none) := by
  rw [addCookie]
  cases hOld : found.1.get? cookie.name with
  | some value =>
      by_cases hName : cookie.name = name
      · rw [← hName, hOld, Option.some_or]
      · rw [if_neg hName, Option.or_none]
  | none =>
      rw [Fields.get?_insert]
      by_cases hName : cookie.name = name
      · rw [if_pos hName.symm, if_pos hName, ← hName, hOld,
          Option.none_or]
      · rw [if_neg (Ne.symm hName), if_neg hName, Option.or_none]

/- Of the cookies of one name the first has a bean. -/
theorem get?_foldl_addCookie
    (name : String)
    (cookies : List Cookie)
    (found : Fields Value × Nat) :
    ∃ number,
      (cookies.foldl addCookie found).1.get? name =
        (found.1.get? name).or
          ((cookies.find? fun c => c.name = name).map fun c =>
            .bean (.made number) (.cookie c)) := by
  induction cookies generalizing found with
  | nil => exact ⟨0, (Option.or_none).symm⟩
  | cons cookie rest ih =>
      rcases ih (addCookie found cookie) with ⟨number, hRest⟩
      rw [get?_addCookie] at hRest
      by_cases hName : cookie.name = name
      · refine ⟨found.2, hRest.trans ?_⟩
        simp [hName]
      · refine ⟨number, hRest.trans ?_⟩
        simp [hName]

end ImplicitObject

------------------------------------------------------------
-- Members
------------------------------------------------------------

namespace Expr

/- A name as a member of an implicit object. -/
def member
    (object : ImplicitObject)
    (name : String) : Expr :=
  .access (.implicit object) (.literal (.string name))

/- The member can be written, and is read back. -/
theorem parse_member
    (object : ImplicitObject)
    (name : String) :
    parse (member object name).text = .ok (member object name) :=
  parse_text (e := member object name) ⟨trivial, trivial⟩

/- A name is looked up in what its object gives. -/
theorem run_access_name
    {mode : Mode}
    {env : Environment}
    {object : Expr}
    {owner : Value}
    {before after : Progress}
    (name : String)
    (hObject :
      (object.eval mode env).run before = (.ok owner, after))
    (hOwner : owner.isNull = false) :
    ((access object (.literal (.string name))).eval mode env).run
        before =
      (Evaluating.settle mode
          (access object (.literal (.string name))) .null
          (owner.access (.string name) (.made after.nextBean))).run
        { after with nextBean := after.nextBean + 1 } := by
  rw [eval, Evaluating.run_bind_ok hObject,
    if_neg (Bool.eq_false_iff.1 hOwner)]
  rfl

/- A member is the field of its name, or null. -/
theorem run_member
    {env : Environment}
    {object : ImplicitObject}
    {fields : Fields Value}
    (mode : Mode)
    (name : String)
    (h : (object.resolve env 0).1 = .object fields) :
    ∃ next,
      ((member object name).eval mode env).run .start =
        (.ok ((fields.get? name).getD .null), ⟨next, [], []⟩) := by
  have hObject :
      ((implicit object).eval mode env).run .start =
        (.ok (.object fields),
          ⟨(object.resolve env 0).2, [], []⟩) := by
    rw [← h]
    rfl
  exact ⟨_, run_access_name name hObject rfl⟩

/- So it gives the field, without a failure. -/
theorem gives_member
    {env : Environment}
    {object : ImplicitObject}
    {fields : Fields Value}
    (name : String)
    (h : (object.resolve env 0).1 = .object fields) :
    (member object name).Gives env
      ((fields.get? name).getD .null) := by
  intro mode
  rcases run_member mode name h with ⟨next, hMember⟩
  rw [evaluate, Evaluating.outcome, hMember]
  rfl

/- A property of a member that is a cookie is read from it. -/
theorem gives_property
    {env : Environment}
    {object : ImplicitObject}
    {fields : Fields Value}
    {name property : String}
    {identity : Identity}
    {cookie : Cookie}
    {value : Value}
    (h : (object.resolve env 0).1 = .object fields)
    (hMember :
      fields.get? name = some (.bean identity (.cookie cookie)))
    (hProperty : cookie.property property = .ok value) :
    (access (member object name)
      (.literal (.string property))).Gives env value := by
  intro mode
  rcases run_member mode name h with ⟨next, hRun⟩
  rw [hMember, Option.getD_some] at hRun
  have hAccess :
      (Value.bean identity (.cookie cookie)).access
          (.string property) (.made next) = .ok value := by
    rw [Value.access]
    simp only [Bean.property, Value.toKey, Value.text, hProperty]
  rw [evaluate, Evaluating.outcome, run_access_name property hRun rfl,
    hAccess]
  rfl

end Expr

------------------------------------------------------------
-- Properties of Cookies
------------------------------------------------------------

namespace Cookie

/- What a cookie has, under the names of its properties. -/
def fields
    (cookie : Cookie) : Fields Value :=
  [("name", .string cookie.name),
    ("value", .string cookie.value),
    ("path", .ofOptionalString cookie.path),
    ("domain", .ofOptionalString cookie.domain),
    ("maxAge", .integer cookie.maxAge),
    ("secure", .boolean cookie.secure)]

/- A property is one of these fields, or there is none. -/
theorem property_eq
    (cookie : Cookie)
    (name : String) :
    cookie.property name =
      match cookie.fields.get? name with
      | some value => .ok value
      | none => .error .notFound := by
  unfold property
  split <;> simp_all [fields, Fields.get?]

/- The properties of a cookie have different names. -/
theorem distinct_fields
    (cookie : Cookie) :
    Fields.Distinct cookie.fields := by
  change
    ["name", "value", "path", "domain", "maxAge", "secure"].Nodup
  decide

/- Each field can be read as a property. -/
theorem property_of_mem_fields
    {cookie : Cookie}
    {field : String × Value}
    (h : field ∈ cookie.fields) :
    cookie.property field.1 = .ok field.2 := by
  rw [property_eq,
    (Fields.get?_eq_some_iff cookie.distinct_fields).2 h]

end Cookie

------------------------------------------------------------
-- What Expressions Read
------------------------------------------------------------

/- Texts as an array, or null if there are none. -/
def Value.ofTexts : List String → Value
  | [] => .null
  | values => .array (values.map .string)

namespace Environment

open PageExpr.Expr (member)
open PageExpr.PageContext (appendAll valuesOf)

/-
  An object shows the first values of pairs by their names, and
  another all of them, in their order.  Both have the names of the
  pairs, and no name is without a value.
-/
structure ShowsValues
    (env : Environment)
    (pairs : List (String × String))
    (first all : ImplicitObject) : Prop where
  values : ∀ name,
    (member all name).Gives env (.ofTexts (valuesOf name pairs))
  value : ∀ name,
    (member first name).Gives env
      (.ofOptionalString (valuesOf name pairs).head?)
  names : ∃ firsts alls : Fields Value,
    (Expr.implicit first).Gives env (.object firsts) ∧
    (Expr.implicit all).Gives env (.object alls) ∧
    firsts.map Prod.fst = alls.map Prod.fst ∧
    (∀ name, name ∈ alls.map Prod.fst ↔
      name ∈ pairs.map Prod.fst) ∧
    ∀ entry ∈ alls, ∃ value values,
      entry.2 = .array ((value :: values).map .string)

/-
  The first cookie of each name is shown as a bean, which has the
  fields of the cookie.
-/
structure ShowsCookies
    (env : Environment)
    (cookies : List Cookie) : Prop where
  absent : ∀ name,
    (cookies.find? fun c => c.name = name) = none →
      (member .cookie name).Gives env .null
  first : ∀ name cookie,
    (cookies.find? fun c => c.name = name) = some cookie →
      (∃ number,
        (member .cookie name).Gives env
          (.bean (.made number) (.cookie cookie))) ∧
      ∀ field ∈ cookie.fields,
        (Expr.access (member .cookie name)
          (.literal (.string field.1))).Gives env field.2

/- A name has an entry if a value has been added under it. -/
theorem mem_names_appendAll
    (name : String)
    (pairs : List (String × String)) :
    name ∈ (appendAll pairs []).map Prod.fst ↔
      name ∈ pairs.map Prod.fst := by
  rw [← not_iff_not, ← Fields.get?_eq_none_iff,
    PageContext.get?_appendAll]
  have hValues :
      valuesOf name pairs = [] ↔ name ∉ pairs.map Prod.fst := by
    rw [valuesOf, List.map_eq_nil_iff, List.filter_eq_nil_iff]
    simp only [List.mem_map, not_exists, not_and,
      decide_eq_true_eq]
  rw [← hValues]
  cases valuesOf name pairs <;> simp [PageContext.extended, Fields.get?]

/- Values that have been added are shown by their names. -/
theorem showsValues_of_resolve
    {env : Environment}
    {pairs : List (String × String)}
    {first all : ImplicitObject}
    (hFirst :
      (first.resolve env 0).1 =
        ImplicitObject.firstValues (appendAll pairs []))
    (hAll :
      (all.resolve env 0).1 =
        ImplicitObject.allValues (appendAll pairs [])) :
    ShowsValues env pairs first all := by
  have hEntries : ∀ entry ∈ appendAll pairs [], entry.2 ≠ [] :=
    PageContext.ne_nil_of_mem_appendAll (List.forall_mem_nil _)
  have hFound (name : String) :
      Fields.get? name (appendAll pairs []) =
        PageContext.extended none (valuesOf name pairs) :=
    PageContext.get?_appendAll name pairs []
  rw [ImplicitObject.firstValues_eq hEntries] at hFirst
  rw [ImplicitObject.allValues_eq] at hAll
  constructor
  case values =>
    intro name
    have hMember := Expr.gives_member name hAll
    rw [Fields.get?_mapValues, hFound] at hMember
    cases hValues : valuesOf name pairs <;>
      rw [hValues] at hMember <;> exact hMember
  case value =>
    intro name
    have hMember := Expr.gives_member name hFirst
    rw [Fields.get?_mapValues, hFound] at hMember
    cases hValues : valuesOf name pairs <;>
      rw [hValues] at hMember <;> exact hMember
  case names =>
    have hFirsts := Expr.gives_implicit env first
    have hAlls := Expr.gives_implicit env all
    rw [hFirst] at hFirsts
    rw [hAll] at hAlls
    refine ⟨_, _, hFirsts, hAlls, ?_, ?_, ?_⟩
    · rw [Fields.names_mapValues, Fields.names_mapValues]
    · intro name
      rw [Fields.names_mapValues, mem_names_appendAll]
    · intro entry hEntry
      rcases List.mem_map.1 hEntry with
        ⟨⟨name, values⟩, hSource, rfl⟩
      rcases List.exists_cons_of_ne_nil (hEntries _ hSource) with
        ⟨value, rest, rfl⟩
      exact ⟨value, rest, rfl⟩

/- Cookies are shown, the first of each name. -/
theorem showsCookies
    {env : Environment}
    {cookies : List Cookie}
    (h : env.cookies = cookies) :
    ShowsCookies env cookies := by
  have hObject :
      (ImplicitObject.cookie.resolve env 0).1 =
        .object (cookies.foldl ImplicitObject.addCookie ([], 0)).1 := by
    rw [← h]
    rfl
  have hFound (name : String) :=
    ImplicitObject.get?_foldl_addCookie name cookies ([], 0)
  constructor
  case absent =>
    intro name hNone
    have hMember := Expr.gives_member name hObject
    rcases hFound name with ⟨number, hField⟩
    rw [hField, hNone] at hMember
    exact hMember
  case first =>
    intro name cookie hSome
    rcases hFound name with ⟨number, hField⟩
    rw [hSome] at hField
    constructor
    · have hMember := Expr.gives_member name hObject
      rw [hField] at hMember
      exact ⟨number, hMember⟩
    · intro field hMem
      exact Expr.gives_property hObject hField
        (Cookie.property_of_mem_fields hMem)

end Environment

namespace PageContext

open PageExpr.Expr (member)

/-
  After any actions on a new page context, expressions see the
  data of the request that the actions have submitted: under each
  name all parameters and headers, or the first of them, the first
  cookie with its fields, and the last init parameter.  A query
  string submits the pairs that the rules for it give, so each
  list of pairs is submitted by what is written for it.  Two query
  strings with an ampersand between them leave the parameters
  that the one and then the other leave.
-/
theorem submitted_data_is_shown :
    (∀ actions : List ContextAction,
      (after {} actions).environment.ShowsValues
        (actions.flatMap ContextAction.parameters)
        .param .params ∧
      (after {} actions).environment.ShowsValues
        (actions.flatMap ContextAction.headers)
        .header .headers ∧
      (after {} actions).environment.ShowsCookies
        (actions.flatMap ContextAction.cookies) ∧
      ∀ name,
        (member .initParam name).Gives
          (after {} actions).environment
          (.ofOptionalString
            (valuesOf name
              (actions.flatMap
                ContextAction.initParameters)).getLast?)) ∧
    (∀ (query : String) (pairs : List (String × String)),
      ContextAction.parameters (.setQueryString query) = pairs ↔
        Form.Reads query pairs) ∧
    (∀ pairs : List (String × String),
      ContextAction.parameters
        (.setQueryString (Form.written pairs)) = pairs) ∧
    (∀ (ctx : PageContext) (query other : String),
      (ctx.setQueryString (query ++ "&" ++ other)).parameters =
        ((ctx.setQueryString query).setQueryString
          other).parameters) ∧
    (∀ (cookie : Cookie) (fresh : Identity) (name : String),
      (Bean.cookie cookie).property fresh name =
        match cookie.fields.get? name with
        | some value => .ok value
        | none => .error .notFound) ∧
    (∀ (object : ImplicitObject) (name : String),
      Expr.parse (member object name).text =
        .ok (member object name)) := by
  refine ⟨?_, fun _ _ => Form.parse_eq_iff, Form.parse_written,
    ?_, fun cookie _ => cookie.property_eq, Expr.parse_member⟩
  · intro actions
    have hData := submitted_after actions
    refine ⟨?_, ?_, Environment.showsCookies hData.cookies, ?_⟩
    · apply Environment.showsValues_of_resolve
      · rw [← hData.parameters]
        rfl
      · rw [← hData.parameters]
        rfl
    · apply Environment.showsValues_of_resolve
      · rw [← hData.headers]
        rfl
      · rw [← hData.headers]
        rfl
    · intro name
      have hObject :
          (ImplicitObject.initParam.resolve
              (after {} actions).environment 0).1 =
            .object
              ((after {} actions).initParameters.mapValues
                .string) := rfl
      have hMember := Expr.gives_member name hObject
      rw [Fields.get?_mapValues, hData.initParameters,
        get?_ofList_eq_getLast?] at hMember
      cases hLast : (valuesOf name
          (actions.flatMap ContextAction.initParameters)).getLast? <;>
        rw [hLast] at hMember <;> exact hMember
  · intro ctx query other
    simp only [setQueryString_eq, Form.parse_append, appendAll_append]

/- Values that share their names, and escapes that are none. -/
def mixedSubmission : List ContextAction :=
  [.addParameter "a" "1",
    .setQueryString "a=%C3%A9+x&&b&c=%zz&a=2%3D",
    .addHeader "h" "u", .addHeader "h" "v",
    .addCookie { name := "k", value := "first" },
    .addCookie { name := "k", value := "second" },
    .setInitParameter "i" "old",
    .setInitParameter "i" "new"]

/-
  Its parameters in their order, an escape that stays, the first
  cookie, the last init parameter, and nothing else.
-/
theorem submitted_data_is_shown_mixed :
    let env := (after {} mixedSubmission).environment
    (member .params "a").Gives env
      (.array [.string "1", .string "é x", .string "2="]) ∧
    (member .param "a").Gives env (.string "1") ∧
    (member .params "b").Gives env (.array [.string ""]) ∧
    (member .param "c").Gives env (.string "%zz") ∧
    (member .params "d").Gives env .null ∧
    (member .headers "h").Gives env
      (.array [.string "u", .string "v"]) ∧
    (Expr.access (member .cookie "k")
      (.literal (.string "value"))).Gives env (.string "first") ∧
    (member .initParam "i").Gives env (.string "new") := by
  rcases submitted_data_is_shown.1 mixedSubmission with
    ⟨hParameters, hHeaders, hCookies, hInit⟩
  have hPairs :
      mixedSubmission.flatMap ContextAction.parameters =
        [("a", "1"), ("a", "é x"), ("b", ""), ("c", "%zz"),
          ("a", "2=")] := by
    decide +kernel
  have hCookie :
      ((mixedSubmission.flatMap ContextAction.cookies).find?
        fun c => c.name = "k") =
          some { name := "k", value := "first" } := by
    decide +kernel
  rw [hPairs] at hParameters
  refine ⟨hParameters.values "a", hParameters.value "a",
    hParameters.values "b", hParameters.value "c",
    hParameters.values "d", hHeaders.values "h", ?_, hInit "i"⟩
  exact (hCookies.first "k" _ hCookie).2 ("value", .string "first")
    (.tail _ (.head _))

end PageContext

end PageExpr
