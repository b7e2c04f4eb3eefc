import PageExpr.Number.Layout
import PageExpr.Syntax.Operator

/-
  The tokens of the expression language.

  Main declarations:
    * `Token`
    * `Token.text`
    * `Token.describe`
    * `Token.keywords`
    * `Token.ofWord`
    * `SpannedToken`
-/

namespace PageExpr

/- A token.  A minus sign is the operator of subtraction. -/
inductive Token where
  | float (x : Binary64)
  | integer (n : Int64)
  | string (s : String)
  | boolean (b : Bool)
  | null
  | identifier (name : String)
  | operator (op : BinaryOp)
  | not
  | empty
  | leftBracket
  | rightBracket
  | leftParen
  | rightParen
  | dot
  | question
  | colon
deriving DecidableEq

namespace Token

------------------------------------------------------------
-- Texts
------------------------------------------------------------

/- Numbers in tokens are written without exponents. -/
def floatLayout : Layout where
  halfUp := true
  isPositional := fun _ => true
  keepsPoint := false
  mark := 'e'
  plusSign := false

/-
  The token in one spelling.  The content of a string stands
  between quotes as it is.
-/
def text : Token → String
  | .float x => floatLayout.text x
  | .integer n => toString n.toInt
  | .string s => "\"" ++ s ++ "\""
  | .boolean b => if b then "true" else "false"
  | .null => "null"
  | .identifier name => name
  | .operator op => op.symbol
  | .not => "!"
  | .empty => "empty"
  | .leftBracket => "["
  | .rightBracket => "]"
  | .leftParen => "("
  | .rightParen => ")"
  | .dot => "."
  | .question => "?"
  | .colon => ":"

/- The token as messages show it. -/
def describe : Token → String
  | .float x => "number " ++ text (.float x)
  | .integer n => "number " ++ text (.integer n)
  | .string s => "string " ++ text (.string s)
  | .identifier name => "identifier '" ++ name ++ "'"
  | token => "'" ++ token.text ++ "'"

/- The end of the tokens in one spelling. -/
def endText : String :=
  "<eof>"

/- The end of the tokens as messages show it. -/
def endDescription : String :=
  "end of expression"

------------------------------------------------------------
-- Words
------------------------------------------------------------

/- The words that are no identifiers, and their tokens. -/
def keywords : List (String × Token) :=
  [("true", .boolean true),
    ("false", .boolean false),
    ("null", .null),
    ("and", .operator (.logical .and)),
    ("or", .operator (.logical .or)),
    ("not", .not),
    ("eq", .operator (.equality .equal)),
    ("ne", .operator (.equality .notEqual)),
    ("lt", .operator (.ordering .less)),
    ("gt", .operator (.ordering .greater)),
    ("le", .operator (.ordering .lessEqual)),
    ("ge", .operator (.ordering .greaterEqual)),
    ("div", .operator (.arithmetic .divide)),
    ("mod", .operator (.arithmetic .modulo)),
    ("empty", .empty)]

/- Is the word a keyword? -/
def isKeyword
    (word : String) : Bool :=
  keywords.any fun (keyword, _) => keyword == word

/- The token of a word. -/
def ofWord
    (word : String) : Token :=
  (keywords.lookup word).getD (.identifier word)

end Token

/-
  A token, the text it was read from, and the position of its
  first character.
-/
structure SpannedToken where
  token : Token
  text : String
  position : Nat
deriving DecidableEq

end PageExpr
