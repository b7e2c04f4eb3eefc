import PageExpr.Syntax.ImplicitObject
import PageExpr.Syntax.Lexer
import PageExpr.Value.Equality
import PageExpr.Value.Text

/-
  Expressions and their canonical text.

  A property behind a dot and an index in brackets are one
  form, with a key that is an expression.  In the canonical
  text each binary operation and each conditional stands in
  parentheses, and a key that can stand behind a dot does.

  Main declarations:
    * `Expr`
    * `Expr.isPlainName`
    * `Expr.quoted`
    * `Expr.text`
    * `Expr.equals`
-/

namespace PageExpr

/- An expression. -/
inductive Expr where
  | literal (value : Value)
  | implicit (object : ImplicitObject)
  | var (name : String)
  | access (object key : Expr)
  | binary (op : BinaryOp) (left right : Expr)
  | unary (op : UnaryOp) (operand : Expr)
  | conditional (condition thenBranch elseBranch : Expr)

namespace Expr

instance :
    Inhabited Expr :=
  ⟨.literal .null⟩

------------------------------------------------------------
-- Canonical Text
------------------------------------------------------------

/- Can the word stand as a name, and not as a keyword? -/
def isPlainName
    (word : String) : Bool :=
  match word.toList with
  | [] => false
  | c :: cs =>
      Text.isNameStart c && cs.all Text.isNamePart &&
        !Token.isKeyword word

/- A character as it stands between double quotes. -/
def escape
    (c : Char) : List Char :=
  if c = '"' || c = '\\' then ['\\', c] else [c]

/- A string between double quotes. -/
def quoted
    (s : String) : String :=
  "\"" ++ String.ofList (s.toList.flatMap escape) ++ "\""

/- The text of a constant. -/
def literalText : Value → String
  | .null => "null"
  | .string s => quoted s
  | v => v.text

/- Does an operator before the operand come first? -/
def isUnary : Expr → Bool
  | .unary .. => true
  | _ => false

/- The name in a key that can stand behind a dot. -/
def dottedName? : Expr → Option String
  | .literal (.string name) =>
      if isPlainName name then some name else none
  | _ => none

/-
  The canonical text.  An operator before its operand binds
  looser than an access, so it stands in parentheses there.
-/
def text : Expr → String
  | .literal value => literalText value
  | .implicit object => object.name
  | .var name => name
  | .access object key =>
      let owner :=
        if object.isUnary then "(" ++ object.text ++ ")"
        else object.text
      match dottedName? key with
      | some name => owner ++ "." ++ name
      | none => owner ++ "[" ++ key.text ++ "]"
  | .binary op left right =>
      "(" ++ left.text ++ " " ++ op.symbol ++ " " ++
        right.text ++ ")"
  | .unary op operand => op.text ++ operand.text
  | .conditional condition thenBranch elseBranch =>
      "(" ++ condition.text ++ " ? " ++ thenBranch.text ++
        " : " ++ elseBranch.text ++ ")"

------------------------------------------------------------
-- Equality
------------------------------------------------------------

/- Do two expressions have the same form and equal constants? -/
def equals : Expr → Expr → Bool
  | .literal a, .literal b => a.equals b
  | .implicit a, .implicit b => a == b
  | .var a, .var b => a == b
  | .access a k, .access b l => equals a b && equals k l
  | .binary op a b, .binary other c d =>
      op == other && equals a c && equals b d
  | .unary op a, .unary other b => op == other && equals a b
  | .conditional a b c, .conditional x y z =>
      equals a x && equals b y && equals c z
  | _, _ => false

end Expr

end PageExpr
