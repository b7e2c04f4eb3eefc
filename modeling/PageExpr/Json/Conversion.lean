import PageExpr.Json.Basic
import PageExpr.Value.Basic

/-
  Values of expressions as JSON documents, and back.

  An integer without a sign that is too large for a word
  becomes a floating-point number.  In a document, a number
  that is not finite is null, and a bean is the name of its
  type.

  Main declarations:
    * `Value.ofJson`
    * `Value.toJson`
-/

namespace PageExpr

namespace Value

/- The value of a number. -/
def ofJsonNumber : JsonNumber → Value
  | .whole n _ =>
      match Integer.ofInt? n with
      | some w => .integer w
      | none => .float (Binary64.ofInt n)
  | .float x _ => .float x

mutual

/- The value of a document. -/
def ofJson : Json → Value
  | .null => .null
  | .boolean b => .boolean b
  | .number n => ofJsonNumber n
  | .string s => .string s
  | .array items => .array (ofJsonItems items)
  | .object members => .object (ofJsonMembers members)

/- The values of items. -/
def ofJsonItems : List Json → List Value
  | [] => []
  | item :: rest => ofJson item :: ofJsonItems rest

/- The fields of members. -/
def ofJsonMembers :
    List (String × Json) → List (String × Value)
  | [] => []
  | (name, value) :: rest =>
      (name, ofJson value) :: ofJsonMembers rest

end

/- A word is among the integers of documents. -/
theorem fits_jsonNumber
    (n : Int64) :
    JsonNumber.Fits n.toInt :=
  ⟨n.le_toInt, Int.lt_trans n.toInt_lt (by decide)⟩

mutual

/- The document of a value. -/
def toJson : Value → Json
  | .null => .null
  | .boolean b => .boolean b
  | .integer n => .number (.whole n.toInt (fits_jsonNumber n))
  | .float x => Json.ofFloat x
  | .string s => .string s
  | .array items => .array (toJsonItems items)
  | .object fields => .object (toJsonMembers fields)
  | .bean _ body => .string body.typeName

/- The items of values. -/
def toJsonItems : List Value → List Json
  | [] => []
  | item :: rest => toJson item :: toJsonItems rest

/- The members of fields. -/
def toJsonMembers :
    List (String × Value) → List (String × Json)
  | [] => []
  | (name, value) :: rest =>
      (name, toJson value) :: toJsonMembers rest

end

end Value

end PageExpr
