import PageExpr.Value.Basic

/-
  Equality of values by their structure.

  Floating-point numbers are compared as numbers, so that the
  two zeros are equal and a value that holds `nan` differs from
  itself.  Beans are equal if they are the same bean.

  Main declarations:
    * `Value.equals`
-/

namespace PageExpr

namespace Value

mutual

/- Do two values have the same type and the same parts? -/
def equals : Value → Value → Bool
  | .null, .null => true
  | .boolean a, .boolean b => a == b
  | .integer m, .integer n => m == n
  | .float x, .float y => x.same y
  | .string s, .string t => s == t
  | .array items, .array others => itemsEqual items others
  | .object fields, .object others => fieldsEqual fields others
  | .bean a _, .bean b _ => a == b
  | _, _ => false

/- Are the items equal one by one? -/
def itemsEqual : List Value → List Value → Bool
  | [], [] => true
  | a :: items, b :: others =>
      equals a b && itemsEqual items others
  | _, _ => false

/- Are the fields equal one by one? -/
def fieldsEqual :
    List (String × Value) → List (String × Value) → Bool
  | [], [] => true
  | (name, a) :: fields, (other, b) :: others =>
      name == other && equals a b && fieldsEqual fields others
  | _, _ => false

end

end Value

end PageExpr
