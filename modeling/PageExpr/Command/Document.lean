import PageExpr.Host.PageContext
import PageExpr.Json.Conversion

/-
  Page contexts described by JSON documents.

  A document is an object.  Its members `page`, `request`,
  `session` and `application` hold the attributes of a scope,
  and a session exists if `session` is there.  `query` is a
  query string; `params` and `headers` hold one value or a list
  of values for each name, `cookies` and `initParams` one value.

  Main declarations:
    * `DocumentError`
    * `Document.section?`
    * `Document.scalarText`
    * `Document.initParameters`
    * `PageContext.ofDocument`
-/

namespace PageExpr

/- Why a document does not describe a page context. -/
inductive DocumentError where
  | notAnObject
  | sectionNotAnObject (name : String)
  | refused (error : ContextError)
deriving DecidableEq

namespace DocumentError

/- What is wrong with the document, as messages show it. -/
def message : DocumentError → String
  | .notAnObject =>
      "Invalid context: context must be a JSON object"
  | .sectionNotAnObject name =>
      "Invalid context: '" ++ name ++ "' must be an object"
  | .refused error => "Invalid context: " ++ error.message

end DocumentError

namespace Document

/-
  The members of a section.  A section that is missing or null
  has none.
-/
def section?
    (root : Fields Json)
    (name : String) : Except DocumentError (Option (Fields Json)) :=
  match root.get? name with
  | none => .ok none
  | some .null => .ok none
  | some (.object members) => .ok (some members)
  | some _ => .error (.sectionNotAnObject name)

/- A string as it is, and anything else as its compact text. -/
def scalarText : Json → String
  | .string s => s
  | v => v.compact

/- One value, or the values of a list. -/
def multiValues : Json → List String
  | .array items => items.map scalarText
  | v => [scalarText v]

/- The init parameters of a document. -/
def initParameters
    (document : Json) : Fields String :=
  match (document.member? "initParams").bind Json.members? with
  | some members => members.mapValues scalarText
  | none => []

/- Start a session if the document has one. -/
def loadSession
    (root : Fields Json)
    (ctx : PageContext) : Except DocumentError PageContext :=
  (section? root "session").map fun section? =>
    match section? with
    | some _ => ctx.startSession "cli-session"
    | none => ctx

/- Store the members of a section as attributes. -/
def loadAttributes
    (scope : Scope) :
    Fields Json → PageContext → Except DocumentError PageContext
  | [], ctx => .ok ctx
  | (name, value) :: rest, ctx =>
      match ctx.setAttribute scope name (Value.ofJson value) with
      | .ok ctx => loadAttributes scope rest ctx
      | .error e => .error (.refused e)

/- Store the attributes of scopes one after the other. -/
def loadScopes
    (root : Fields Json) :
    List Scope → PageContext → Except DocumentError PageContext
  | [], ctx => .ok ctx
  | scope :: rest, ctx =>
      match section? root scope.name with
      | .error e => .error e
      | .ok members? =>
          match loadAttributes scope (members?.getD []) ctx with
          | .error e => .error e
          | .ok ctx => loadScopes root rest ctx

/- Add the parameters of the query string. -/
def loadQuery
    (root : Fields Json)
    (ctx : PageContext) : PageContext :=
  match (root.get? "query").bind Json.string? with
  | some query => ctx.setQueryString query
  | none => ctx

/- Go through the members of a section with the context. -/
def loadSection
    (root : Fields Json)
    (name : String)
    (load : PageContext → String → Json → PageContext)
    (ctx : PageContext) : Except DocumentError PageContext :=
  (section? root name).map fun members? =>
    (members?.getD []).foldl (fun ctx (name, value) =>
      load ctx name value) ctx

/- Add every value of a parameter. -/
def loadParameter
    (ctx : PageContext)
    (name : String)
    (value : Json) : PageContext :=
  (multiValues value).foldl (fun ctx value =>
    ctx.addParameter name value) ctx

/- Add every value of a header. -/
def loadHeader
    (ctx : PageContext)
    (name : String)
    (value : Json) : PageContext :=
  (multiValues value).foldl (fun ctx value =>
    ctx.addHeader name value) ctx

/- Add a cookie. -/
def loadCookie
    (ctx : PageContext)
    (name : String)
    (value : Json) : PageContext :=
  ctx.addCookie { name := name, value := scalarText value }

/- Set an init parameter. -/
def loadInitParameter
    (ctx : PageContext)
    (name : String)
    (value : Json) : PageContext :=
  ctx.setInitParameter name (scalarText value)

end Document

open Document in
/- The page context that a document describes. -/
def PageContext.ofDocument : Json → Except DocumentError PageContext
  | .object root => do
      let ctx ← loadSession root {}
      let ctx ← loadScopes root Scope.searchOrder ctx
      let ctx := loadQuery root ctx
      let ctx ← loadSection root "params" loadParameter ctx
      let ctx ← loadSection root "headers" loadHeader ctx
      let ctx ← loadSection root "cookies" loadCookie ctx
      loadSection root "initParams" loadInitParameter ctx
  | _ => .error .notAnObject

end PageExpr
