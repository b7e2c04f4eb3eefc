import PageExpr.Number.Layout
import PageExpr.Value.Basic

/-
  The text of a value on a page.

  Null has no text.  A whole floating-point number keeps one
  digit behind its point, and very large and very small ones
  are written with an exponent.

  Main declarations:
    * `Value.floatLayout`
    * `Value.floatText`
    * `Value.text`
-/

namespace PageExpr

namespace Value

/-
  Numbers from `0.001` up to ten million are written without
  an exponent; of two equally near digits the upper ones are
  taken.
-/
def floatLayout : Layout where
  halfUp := true
  isPositional := fun place => -3 ≤ place && place < 7
  keepsPoint := true
  mark := 'E'
  plusSign := false

/- The text of a floating-point number. -/
def floatText : Binary64 → String
  | .nan => "NaN"
  | .infinity negative =>
      if negative then "-Infinity" else "Infinity"
  | x => floatLayout.text x

/- The text of a truth value. -/
def booleanText
    (b : Bool) : String :=
  if b then "true" else "false"

mutual

/-
  The text of a value.  Fields are written in the order of
  their names, and a bean shows the name of its type.
-/
def text : Value → String
  | .null => ""
  | .boolean b => booleanText b
  | .integer n => toString n.toInt
  | .float x => floatText x
  | .string s => s
  | .array items => "[" ++ itemsText items ++ "]"
  | .object fields => "\x7b" ++ fieldsText fields ++ "\x7d"
  | .bean _ body => body.typeName

/- The texts of values, with commas between them. -/
def itemsText : List Value → String
  | [] => ""
  | [item] => text item
  | item :: rest => text item ++ ", " ++ itemsText rest

/- The names and texts of fields, with commas between them. -/
def fieldsText : List (String × Value) → String
  | [] => ""
  | [(name, value)] => name ++ "=" ++ text value
  | (name, value) :: rest =>
      name ++ "=" ++ text value ++ ", " ++ fieldsText rest

end

end Value

end PageExpr
