/-
  The implicit objects: names with a fixed meaning in every
  expression.

  Main declarations:
    * `ImplicitObject`
    * `ImplicitObject.name`
    * `ImplicitObject.ofName?`
    * `ImplicitObject.ofName?_eq_some_iff`
-/

namespace PageExpr

/-
  The page context, the attributes of each scope, the request
  parameters and headers with their first or with all values,
  the init parameters and the cookies.
-/
inductive ImplicitObject where
  | pageContext
  | page
  | request
  | session
  | application
  | param
  | params
  | header
  | headers
  | initParam
  | cookie
deriving DecidableEq

namespace ImplicitObject

/- All implicit objects. -/
def all : List ImplicitObject :=
  [.pageContext, .page, .request, .session, .application,
    .param, .params, .header, .headers, .initParam, .cookie]

/- The name by which expressions refer to the object. -/
def name : ImplicitObject → String
  | .pageContext => "pageContext"
  | .page => "page"
  | .request => "request"
  | .session => "session"
  | .application => "application"
  | .param => "param"
  | .params => "params"
  | .header => "header"
  | .headers => "headers"
  | .initParam => "initParam"
  | .cookie => "cookie"

/- The implicit object of a name. -/
def ofName?
    (name : String) : Option ImplicitObject :=
  all.find? fun object => object.name == name

/- The name of an implicit object leads back to it. -/
theorem ofName?_name
    (object : ImplicitObject) :
    ofName? object.name = some object := by
  cases object <;> decide

/- A name leads to the object that bears it. -/
theorem ofName?_eq_some_iff
    {name : String}
    {object : ImplicitObject} :
    ofName? name = some object ↔ object.name = name := by
  constructor
  · intro h
    have hname := List.find?_some h
    simpa using hname
  · rintro rfl
    exact ofName?_name object

end ImplicitObject

end PageExpr
