import PageExpr.Host.Environment
import PageExpr.Host.Form

/-
  A page context that is kept in memory: the attributes of the
  four scopes, and the data of the request.

  Storing null removes an attribute, so no scope ever holds
  null.  The session scope takes attributes only while there
  is a session.

  Main declarations:
    * `PageContext`
    * `PageContext.setAttribute`
    * `PageContext.removeAttribute`
    * `PageContext.findAttribute?`
    * `PageContext.startSession`
    * `PageContext.setQueryString`
    * `PageContext.environment`
-/

namespace PageExpr

/- A session and its attributes. -/
structure Session where
  id : String
  attributes : Fields Value

/- The host's data for one page. -/
structure PageContext where
  page : Fields Value := []
  request : Fields Value := []
  session : Option Session := none
  application : Fields Value := []
  info : RequestInfo := {}
  parameters : Fields (List String) := []
  headers : Fields (List String) := []
  cookies : List Cookie := []
  initParameters : Fields String := []

namespace PageContext

------------------------------------------------------------
-- Scopes
------------------------------------------------------------

/- The attributes of a scope; none without a session. -/
def attributes?
    (ctx : PageContext) : Scope → Option (Fields Value)
  | .page => some ctx.page
  | .request => some ctx.request
  | .session => ctx.session.map Session.attributes
  | .application => some ctx.application

/- Change the attributes of a scope, if it has any. -/
def modifyScope
    (change : Fields Value → Fields Value)
    (ctx : PageContext) : Scope → PageContext
  | .page => { ctx with page := change ctx.page }
  | .request => { ctx with request := change ctx.request }
  | .session =>
      { ctx with
        session := ctx.session.map fun session =>
          { session with
            attributes := change session.attributes } }
  | .application =>
      { ctx with application := change ctx.application }

/- The attribute of a name in a scope. -/
def attribute?
    (ctx : PageContext)
    (scope : Scope)
    (name : String) : Option Value :=
  (ctx.attributes? scope).bind (Fields.get? name)

/- The entries of a scope after a value has been stored. -/
def stored
    (name : String)
    (value : Value)
    (fields : Fields Value) : Fields Value :=
  if value.isNull then fields.erase name
  else fields.insert name value

/- Store an attribute, or remove it by storing null. -/
def setAttribute
    (ctx : PageContext)
    (scope : Scope)
    (name : String)
    (value : Value) : Except ContextError PageContext :=
  match ctx.attributes? scope with
  | none => .error (.noSession name)
  | some _ => .ok (ctx.modifyScope (stored name value) scope)

/- Remove an attribute, and hand out the value that it had. -/
def removeAttribute
    (ctx : PageContext)
    (scope : Scope)
    (name : String) : PageContext × Option Value :=
  match ctx.attributes? scope with
  | none => (ctx, none)
  | some fields =>
      (ctx.modifyScope (Fields.erase name) scope,
        fields.get? name)

/- Remove the attributes of a name from every scope. -/
def removeEverywhere
    (ctx : PageContext)
    (name : String) : PageContext :=
  Scope.searchOrder.foldl (fun ctx scope =>
    (ctx.removeAttribute scope name).1) ctx

/- The attribute of a name in the first scope that has one. -/
def findAttribute?
    (ctx : PageContext)
    (name : String) : Option Value :=
  (Scope.searchOrder.filterMap ctx.attributes?).findSome?
    (Fields.get? name)

------------------------------------------------------------
-- Sessions
------------------------------------------------------------

/- Start a session without attributes. -/
def startSession
    (ctx : PageContext)
    (id : String) : PageContext :=
  { ctx with session := some ⟨id, []⟩ }

/- End the session. -/
def invalidateSession
    (ctx : PageContext) : PageContext :=
  { ctx with session := none }

/- Is there a session? -/
def hasSession
    (ctx : PageContext) : Bool :=
  ctx.session.isSome

------------------------------------------------------------
-- Request Data
------------------------------------------------------------

/- Add a value behind the others of its name. -/
def appendValue
    (name value : String)
    (fields : Fields (List String)) : Fields (List String) :=
  fields.insert name ((fields.get? name).getD [] ++ [value])

/- Add a value of a parameter. -/
def addParameter
    (ctx : PageContext)
    (name value : String) : PageContext :=
  { ctx with
    parameters := appendValue name value ctx.parameters }

/-
  Add the parameters of a query string, which becomes the query
  string of the request.
-/
def setQueryString
    (ctx : PageContext)
    (query : String) : PageContext :=
  let ctx := (Form.parse query).foldl (fun ctx (name, value) =>
    ctx.addParameter name value) ctx
  { ctx with
    info := { ctx.info with queryString := some query } }

/- Add a value of a header. -/
def addHeader
    (ctx : PageContext)
    (name value : String) : PageContext :=
  { ctx with headers := appendValue name value ctx.headers }

/- Add a cookie behind the others. -/
def addCookie
    (ctx : PageContext)
    (cookie : Cookie) : PageContext :=
  { ctx with cookies := ctx.cookies ++ [cookie] }

/- Set an init parameter, which has one value. -/
def setInitParameter
    (ctx : PageContext)
    (name value : String) : PageContext :=
  { ctx with
    initParameters := ctx.initParameters.insert name value }

/- Replace the details of the request line. -/
def setRequestInfo
    (ctx : PageContext)
    (info : RequestInfo) : PageContext :=
  { ctx with info := info }

------------------------------------------------------------
-- Evaluation
------------------------------------------------------------

/- What expressions can read. -/
def environment
    (ctx : PageContext) : Environment where
  attribute? := ctx.attribute?
  attributes? := ctx.attributes?
  hasSession := ctx.hasSession
  parameters := ctx.parameters
  headers := ctx.headers
  cookies := ctx.cookies
  initParameters := ctx.initParameters
  pageContext := fun identity =>
    .bean identity
      (.pageContext ctx.info (ctx.session.map Session.id))

end PageContext

end PageExpr
