import PageExpr.Host.Request
import PageExpr.Number.Number
import PageExpr.Value.Fields

/-
  The values of expressions.

  A bean is an object of the host that is seen through its
  named properties only.  Beans are told apart by identity:
  those of the host are numbered by it, the request is one
  bean, and all others are made anew when they are asked for.

  Main declarations:
    * `Identity`
    * `PropertyError`
    * `Bean`
    * `Value`
    * `Bean.property`
    * `Value.typeName`
    * `Value.isEmpty`
-/

namespace PageExpr

------------------------------------------------------------
-- Beans
------------------------------------------------------------

/-
  What makes two beans the same bean.  An evaluation sees one
  request, so the bean of the request needs no number, and the
  beans that are made are numbered within the evaluation.
  Neither says anything about the beans of other evaluations.
-/
inductive Identity where
  | host (number : Nat)
  | request
  | made (number : Nat)
deriving DecidableEq

/- Why a property could not be read. -/
inductive PropertyError where
  | notFound
  | getterFailed (message : String)
deriving DecidableEq

/-
  What a bean is.  An object of the host answers for each
  property; the other beans show the request, its cookies and
  its session, and the page context.
-/
inductive Bean (α : Type) where
  | host
      (typeName : String)
      (read : String → Except PropertyError α)
  | cookie (c : Cookie)
  | request (info : RequestInfo)
  | session (id : String)
  | pageContext
      (info : RequestInfo)
      (sessionId : Option String)

/- The name of the type of a bean. -/
def Bean.typeName
    {α : Type} : Bean α → String
  | .host typeName _ => typeName
  | .cookie _ => "Cookie"
  | .request _ => "HttpServletRequest"
  | .session _ => "HttpSession"
  | .pageContext .. => "PageContext"

------------------------------------------------------------
-- Values
------------------------------------------------------------

/-
  A value of an expression or of an attribute.  The fields of
  an object are in the order of their names.
-/
inductive Value where
  | null
  | boolean (b : Bool)
  | integer (n : Int64)
  | float (x : Binary64)
  | string (s : String)
  | array (items : List Value)
  | object (fields : List (String × Value))
  | bean (identity : Identity) (body : Bean Value)

namespace Value

instance :
    Inhabited Value :=
  ⟨.null⟩

/- The name of the type, as messages show it. -/
def typeName : Value → String
  | .null => "null"
  | .boolean _ => "boolean"
  | .integer _ => "integer"
  | .float _ => "float"
  | .string _ => "string"
  | .array _ => "array"
  | .object _ => "object"
  | .bean _ body => body.typeName

/- Is it the absent value? -/
def isNull : Value → Bool
  | .null => true
  | _ => false

/- Is it a whole or a floating-point number? -/
def isNumber : Value → Bool
  | .integer _ => true
  | .float _ => true
  | _ => false

/- Null, the empty string and empty collections are empty. -/
def isEmpty : Value → Bool
  | .null => true
  | .string s => s.isEmpty
  | .array items => items.isEmpty
  | .object fields => fields.isEmpty
  | _ => false

/- The number as a floating-point number. -/
def asFloat? : Value → Option Binary64
  | .integer n => some (Binary64.ofInt n.toInt)
  | .float x => some x
  | _ => none

/- The text of a string. -/
def asString? : Value → Option String
  | .string s => some s
  | _ => none

/- The value of a number. -/
def ofNumber : Number → Value
  | .integer n => .integer n
  | .float x => .float x

/- A string, or null if there is none. -/
def ofOptionalString : Option String → Value
  | none => .null
  | some s => .string s

end Value

------------------------------------------------------------
-- Properties
------------------------------------------------------------

/- The properties of a cookie. -/
def Cookie.property
    (cookie : Cookie)
    (name : String) : Except PropertyError Value :=
  match name with
  | "name" => .ok (.string cookie.name)
  | "value" => .ok (.string cookie.value)
  | "path" => .ok (.ofOptionalString cookie.path)
  | "domain" => .ok (.ofOptionalString cookie.domain)
  | "maxAge" => .ok (.integer cookie.maxAge)
  | "secure" => .ok (.boolean cookie.secure)
  | _ => .error .notFound

/- The properties of a request. -/
def RequestInfo.property
    (info : RequestInfo)
    (name : String) : Except PropertyError Value :=
  match name with
  | "method" => .ok (.string info.method)
  | "requestURI" => .ok (.string info.requestUri)
  | "contextPath" => .ok (.string info.contextPath)
  | "queryString" => .ok (.ofOptionalString info.queryString)
  | "remoteUser" => .ok (.ofOptionalString info.remoteUser)
  | "protocol" => .ok (.string info.protocol)
  | _ => .error .notFound

/-
  Read a property.  The session of a page context is a bean
  made for the reader, who brings its identity.
-/
def Bean.property
    (body : Bean Value)
    (fresh : Identity)
    (name : String) : Except PropertyError Value :=
  match body with
  | .host _ read => read name
  | .cookie c => c.property name
  | .request info => info.property name
  | .session id =>
      if name = "id" then .ok (.string id)
      else .error .notFound
  | .pageContext info sessionId =>
      if name = "request" then
        .ok (.bean .request (.request info))
      else if name = "session" then
        match sessionId with
        | none => .ok .null
        | some id => .ok (.bean fresh (.session id))
      else .error .notFound

end PageExpr
