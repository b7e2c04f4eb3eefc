import PageExpr.Text.Case

/-
  The scopes of attributes.

  Main declarations:
    * `Scope`
    * `Scope.searchOrder`
    * `ContextError`
    * `Scope.parse`
-/

namespace PageExpr

/- Where an attribute lives. -/
inductive Scope where
  | page
  | request
  | session
  | application
deriving DecidableEq

/- Why the host's data could not be changed. -/
inductive ContextError where
  | noSession (name : String)
  | unknownScope (text : String)
deriving DecidableEq

namespace ContextError

/- The error, as messages show it. -/
def message : ContextError → String
  | .noSession name =>
      "cannot store '" ++ name ++
        "' in session scope: no session exists"
  | .unknownScope text => "unknown scope '" ++ text ++ "'"

end ContextError

namespace Scope

/- The order in which a name is looked for. -/
def searchOrder : List Scope :=
  [.page, .request, .session, .application]

/- The name of a scope, in lower case. -/
def name : Scope → String
  | .page => "page"
  | .request => "request"
  | .session => "session"
  | .application => "application"

/- The scope of a name, whose case does not matter. -/
def parse
    (text : String) : Except ContextError Scope :=
  match searchOrder.find? fun scope =>
    Text.sameIgnoringCase text scope.name with
  | some scope => .ok scope
  | none => .error (.unknownScope text)

/- Every scope is searched. -/
theorem mem_searchOrder
    (scope : Scope) :
    scope ∈ searchOrder := by
  cases scope <;> decide

end Scope

end PageExpr
