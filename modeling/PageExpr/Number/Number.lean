import PageExpr.Number.Binary64

/-
  The operands of arithmetic: whole numbers of sixty-four bits
  and floating-point numbers.

  Main declarations:
    * `Number`
    * `Number.toBinary64`
    * `Number.compare?`
-/

namespace PageExpr

/- A whole or a floating-point number. -/
inductive Number where
  | integer (n : Int64)
  | float (x : Binary64)
deriving DecidableEq

namespace Number

/- The nearest floating-point number. -/
def toBinary64 : Number → Binary64
  | .integer n => Binary64.ofInt n.toInt
  | .float x => x

/- Is it a floating-point number? -/
def isFloat : Number → Bool
  | .integer _ => false
  | .float _ => true

/-
  Two whole numbers are compared exactly, all others as
  floating-point numbers.
-/
def compare? : Number → Number → Option Ordering
  | .integer m, .integer n => some (compare m.toInt n.toInt)
  | a, b => a.toBinary64.compare? b.toBinary64

end Number

end PageExpr
