import PageExpr.Host.Scope
import PageExpr.Syntax.ImplicitObject
import PageExpr.Value.Basic

/-
  What an expression can read from its host, and how names are
  resolved.

  Resolving a name may make beans.  They are numbered, and the
  next free number is passed on.

  Main declarations:
    * `Environment`
    * `Environment.findInScopes?`
    * `ImplicitObject.resolve`
    * `Environment.resolve?`
-/

namespace PageExpr

/-
  The host as an expression sees it.  The attributes of a scope
  are those of one moment; the session scope has none at all
  without a session.  The page context is a bean that is made
  when it is asked for, with the given identity.
-/
structure Environment where
  attribute? : Scope → String → Option Value
  attributes? : Scope → Option (Fields Value)
  hasSession : Bool
  parameters : Fields (List String)
  headers : Fields (List String)
  cookies : List Cookie
  initParameters : Fields String
  pageContext : Identity → Value

namespace Environment

/-
  The attribute of a name in the first scope that has one.  The
  session scope is searched only if there is a session.
-/
def findInScopes?
    (env : Environment)
    (name : String) : Option Value :=
  (Scope.searchOrder.filter fun scope =>
    scope ≠ .session || env.hasSession).findSome?
      fun scope => env.attribute? scope name

end Environment

namespace ImplicitObject

/- The attributes of a scope as an object. -/
def ofScope
    (env : Environment)
    (scope : Scope) : Value :=
  .object ((env.attributes? scope).getD [])

/- The first value of each name that has one. -/
def firstValues
    (fields : Fields (List String)) : Value :=
  .object (fields.filterMap fun (name, values) =>
    values.head?.map fun first => (name, .string first))

/- All values of each name. -/
def allValues
    (fields : Fields (List String)) : Value :=
  .object (fields.map fun (name, values) =>
    (name, .array (values.map .string)))

/- Add the bean of a cookie, if its name is new. -/
def addCookie
    (found : Fields Value × Nat)
    (cookie : Cookie) : Fields Value × Nat :=
  match found.1.get? cookie.name with
  | some _ => found
  | none =>
      (found.1.insert cookie.name
        (.bean (.made found.2) (.cookie cookie)), found.2 + 1)

/- The cookies by name; of two with one name the first. -/
def cookieFields
    (cookies : List Cookie)
    (next : Nat) : Fields Value × Nat :=
  cookies.foldl addCookie ([], next)

/- The value of an implicit object, and the next free number. -/
def resolve
    (object : ImplicitObject)
    (env : Environment)
    (next : Nat) : Value × Nat :=
  match object with
  | .pageContext => (env.pageContext (.made next), next + 1)
  | .page => (ofScope env .page, next)
  | .request => (ofScope env .request, next)
  | .session => (ofScope env .session, next)
  | .application => (ofScope env .application, next)
  | .param => (firstValues env.parameters, next)
  | .params => (allValues env.parameters, next)
  | .header => (firstValues env.headers, next)
  | .headers => (allValues env.headers, next)
  | .initParam =>
      (.object (env.initParameters.map fun (name, value) =>
        (name, .string value)), next)
  | .cookie =>
      let (fields, next) := cookieFields env.cookies next
      (.object fields, next)

end ImplicitObject

namespace Environment

/- The value of a name; implicit objects come first. -/
def resolve?
    (env : Environment)
    (name : String)
    (next : Nat) : Option Value × Nat :=
  match ImplicitObject.ofName? name with
  | some object =>
      let (value, next) := object.resolve env next
      (some value, next)
  | none => (env.findInScopes? name, next)

end Environment

end PageExpr
