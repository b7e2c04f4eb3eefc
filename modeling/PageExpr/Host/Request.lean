/-
  What a request brings with it: its request line and its
  cookies.

  Main declarations:
    * `Cookie`
    * `RequestInfo`
-/

namespace PageExpr

/-
  A cookie of a request.  A negative age, in seconds, means
  that it ends with the browser session.
-/
structure Cookie where
  name : String
  value : String
  path : Option String := none
  domain : Option String := none
  maxAge : Int64 := -1
  secure : Bool := false
deriving DecidableEq

/- The details of a request line. -/
structure RequestInfo where
  method : String := "GET"
  requestUri : String := "/"
  contextPath : String := ""
  queryString : Option String := none
  remoteUser : Option String := none
  protocol : String := "HTTP/1.1"
deriving DecidableEq

end PageExpr
