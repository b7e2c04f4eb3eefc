import PageExpr.Evaluation.Diagnostic
import PageExpr.Value.Equality

/-
  The operators of order and equality.

  Main declarations:
    * `Comparison.order`
    * `Comparison.apply`
    * `Comparison.loosely`
-/

namespace PageExpr

namespace Comparison

/- The order of two strings is that of their code points. -/
def ofStrings
    (s t : String) : Ordering :=
  if s < t then .lt else if s = t then .eq else .gt

/-
  The order of two values that are not null, if they have one.
  Two strings are compared as strings; beside a number, both
  values are taken for numbers.
-/
def order
    (op : OrderingOp)
    (left right : Value) : Except Failure (Option Ordering) :=
  match left, right with
  | .string s, .string t => .ok (some (ofStrings s t))
  | a, b =>
      if a.isNumber || b.isNumber then
        match a.toNumber, b.toNumber with
        | .error e, _ => .error (.operand op.symbol e)
        | _, .error e => .error (.operand op.symbol e)
        | .ok x, .ok y => .ok (x.compare? y)
      else
        .error (.unordered a.typeName op b.typeName)

/-
  Apply an operator of order.  It does not hold beside null,
  nor beside what is no number.
-/
def apply
    (op : OrderingOp)
    (left right : Value) : Except Failure Value :=
  if left.isNull || right.isNull then .ok (.boolean false)
  else
    (order op left right).map fun result =>
      .boolean (result.any op.holds)

/-
  Equality as the operator sees it.  Null equals only null.
  Beside a number, values that can be taken for numbers are
  compared as numbers, and a truth value equals the word for
  it.  All other values are equal if their structure is.
-/
def loosely : Value → Value → Bool
  | .null, .null => true
  | .null, _ => false
  | _, .null => false
  | .boolean b, .string s => Value.parseBoolean? s == some b
  | .string s, .boolean b => Value.parseBoolean? s == some b
  | a, b =>
      if a.isNumber || b.isNumber then
        match a.toNumber, b.toNumber with
        | .ok x, .ok y => x.compare? y == some .eq
        | _, _ => a.equals b
      else a.equals b

end Comparison

end PageExpr
