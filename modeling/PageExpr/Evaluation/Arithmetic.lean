import PageExpr.Evaluation.Diagnostic
import PageExpr.Number.Decimal96

/-
  The arithmetic operators.

  Whole numbers give a whole number if the exact result is one
  and fits.  All other results are floating-point numbers.
  These are formed through decimals if both operands are exact
  decimals and the operation on decimals has a result, so that
  a tenth and two tenths are three tenths; else they are formed
  by the floating-point operation.

  Main declarations:
    * `Arithmetic.exact`
    * `Arithmetic.lossless?`
    * `Arithmetic.decimal?`
    * `Arithmetic.floating`
    * `Arithmetic.apply`
    * `Arithmetic.negate`
-/

namespace PageExpr

namespace Arithmetic

------------------------------------------------------------
-- Whole Numbers
------------------------------------------------------------

/-
  The exact result on integers, if it is an integer.  A
  remainder is only formed if the quotient is a word.
-/
def integral?
    (x y : Int) : ArithmeticOp → Option Int
  | .add => some (x + y)
  | .subtract => some (x - y)
  | .multiply => some (x * y)
  | .divide => if x.tmod y = 0 then some (x.tdiv y) else none
  | .modulo =>
      if Integer.Fits (x.tdiv y) then some (x.tmod y) else none

/- The exact result on words, if it is a word. -/
def exact
    (op : ArithmeticOp)
    (x y : Int64) : Option Int64 :=
  (integral? x.toInt y.toInt op).bind Integer.ofInt?

------------------------------------------------------------
-- Floating-Point Numbers
------------------------------------------------------------

/- The decimal that gives the number back, if there is one. -/
def lossless? : Number → Option Decimal96
  | .integer n => some (Decimal96.ofInt n.toInt)
  | .float x =>
      (Decimal96.ofBinary64? x).filter fun d =>
        d.toBinary64.same x

/-
  The result on decimals.  A product must not need more digits
  than there are, and a quotient must give the dividend back.
-/
def onDecimals?
    (a b : Decimal96) : ArithmeticOp → Option Decimal96
  | .add => a.add? b
  | .subtract => a.sub? b
  | .multiply =>
      if a.scale + b.scale ≤ Decimal96.maxScale then a.mul? b
      else none
  | .divide =>
      (a.div? b).filter fun q =>
        match q.mul? b with
        | some product => product.sameValue a
        | none => false
  | .modulo => a.rem? b

/- The result through decimals. -/
def decimal?
    (op : ArithmeticOp)
    (a b : Number) : Option Decimal96 := do
  let x ← lossless? a
  let y ← lossless? b
  onDecimals? x y op

/- The floating-point operation. -/
def binary
    (x y : Binary64) : ArithmeticOp → Binary64
  | .add => x.add y
  | .subtract => x.sub y
  | .multiply => x.mul y
  | .divide => x.div y
  | .modulo => x.rem y

/- The floating-point result, through decimals if possible. -/
def floating
    (op : ArithmeticOp)
    (a b : Number) : Binary64 :=
  match decimal? op a b with
  | some d => d.toBinary64
  | none => binary a.toBinary64 b.toBinary64 op

------------------------------------------------------------
-- Operators
------------------------------------------------------------

/- The result on numbers, apart from a division by zero. -/
def onNumbers
    (op : ArithmeticOp) : Number → Number → Number
  | .integer x, .integer y =>
      match exact op x y with
      | some n => .integer n
      | none => .float (floating op (.integer x) (.integer y))
  | a, b => .float (floating op a b)

/- What is divided, for the operators that divide. -/
def division? : ArithmeticOp → Option String
  | .divide => some "division"
  | .modulo => some "modulo"
  | _ => none

/- The failure of a zero divisor. -/
def zeroDivisor?
    (op : ArithmeticOp)
    (b : Number) : Option Failure :=
  if b.toBinary64.isZero then
    (division? op).map .zeroDivisor
  else none

/- Apply an operator to two values. -/
def apply
    (op : ArithmeticOp)
    (left right : Value) : Except Failure Value :=
  match left.toNumber, right.toNumber with
  | .error e, _ => .error (.operand op.symbol e)
  | _, .error e => .error (.operand op.symbol e)
  | .ok a, .ok b =>
      match zeroDivisor? op b with
      | some failure => .error failure
      | none => .ok (.ofNumber (onNumbers op a b))

/-
  The number with the other sign.  The least word has no
  opposite among the words.
-/
def opposite : Number → Number
  | .integer n =>
      match Integer.ofInt? (-n.toInt) with
      | some m => .integer m
      | none => .float (Binary64.ofInt n.toInt).neg
  | .float x => .float x.neg

/- Apply the minus sign before a value. -/
def negate
    (v : Value) : Except Failure Value :=
  match v.toNumber with
  | .error e => .error (.operand "-" e)
  | .ok n => .ok (.ofNumber (opposite n))

end Arithmetic

end PageExpr
