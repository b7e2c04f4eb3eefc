/-
  The operators of the expression language.

  A binary operator belongs to one of four families, and an
  evaluator treats each family in its own way.

  Main declarations:
    * `BinaryOp`
    * `BinaryOp.symbol`
    * `BinaryOp.strength`
    * `BinaryOp.all`
    * `UnaryOp`
-/

namespace PageExpr

------------------------------------------------------------
-- Binary Operators
------------------------------------------------------------

/- Equal, or not. -/
inductive EqualityOp where
  | equal
  | notEqual
deriving DecidableEq

/- The order of two operands. -/
inductive OrderingOp where
  | less
  | greater
  | lessEqual
  | greaterEqual
deriving DecidableEq

/- The operations on numbers. -/
inductive ArithmeticOp where
  | add
  | subtract
  | multiply
  | divide
  | modulo
deriving DecidableEq

/- The operations on truth values. -/
inductive LogicalOp where
  | and
  | or
deriving DecidableEq

/- An operator between two operands. -/
inductive BinaryOp where
  | equality (op : EqualityOp)
  | ordering (op : OrderingOp)
  | arithmetic (op : ArithmeticOp)
  | logical (op : LogicalOp)
deriving DecidableEq

namespace OrderingOp

/- The operator as it is written. -/
def symbol : OrderingOp → String
  | .less => "<"
  | .greater => ">"
  | .lessEqual => "<="
  | .greaterEqual => ">="

/- Does the operator hold of operands in the given order? -/
def holds : OrderingOp → Ordering → Bool
  | .less, order => order == .lt
  | .greater, order => order == .gt
  | .lessEqual, order => order != .gt
  | .greaterEqual, order => order != .lt

end OrderingOp

namespace ArithmeticOp

/- The operator as it is written. -/
def symbol : ArithmeticOp → String
  | .add => "+"
  | .subtract => "-"
  | .multiply => "*"
  | .divide => "/"
  | .modulo => "%"

end ArithmeticOp

namespace BinaryOp

/- The operator as canonical texts write it. -/
def symbol : BinaryOp → String
  | .equality .equal => "=="
  | .equality .notEqual => "!="
  | .ordering op => op.symbol
  | .arithmetic op => op.symbol
  | .logical .and => "&&"
  | .logical .or => "||"

/- Does the operator compare the order of its operands? -/
def isOrdering : BinaryOp → Bool
  | .ordering _ => true
  | _ => false

/- The higher the strength, the tighter the binding. -/
def strength : BinaryOp → Nat
  | .logical .or => 1
  | .logical .and => 2
  | .equality _ => 3
  | .ordering _ => 4
  | .arithmetic .add => 5
  | .arithmetic .subtract => 5
  | .arithmetic _ => 6

/- All operators between two operands. -/
def all : List BinaryOp :=
  [.equality .equal, .equality .notEqual,
    .ordering .less, .ordering .greater,
    .ordering .lessEqual, .ordering .greaterEqual,
    .arithmetic .add, .arithmetic .subtract,
    .arithmetic .multiply, .arithmetic .divide,
    .arithmetic .modulo, .logical .and, .logical .or]

end BinaryOp

------------------------------------------------------------
-- Unary Operators
------------------------------------------------------------

/- An operator before its operand. -/
inductive UnaryOp where
  | negate
  | not
  | empty
deriving DecidableEq

namespace UnaryOp

/- The operator with the blank that has to follow it. -/
def text : UnaryOp → String
  | .negate => "-"
  | .not => "!"
  | .empty => "empty "

end UnaryOp

end PageExpr
