import PageExpr.Number.Numeral
import PageExpr.Syntax.Token
import PageExpr.Text.Blank
import PageExpr.Text.Name

/-
  Splitting a text into tokens.

  `Lexer.scan` reads the token at the start of a text and tells
  how many characters it takes.  `Lexer.tokenizeFrom` walks
  through the text character by character; it owes itself the
  characters of the last token before it looks for the next.
  So it moves on with each character, and every token is found
  where the one before it ended.

  Main declarations:
    * `LexFault`
    * `LexError`
    * `TokenStream`
    * `Lexer.scan`
    * `Lexer.tokenize`
-/

namespace PageExpr

------------------------------------------------------------
-- Errors
------------------------------------------------------------

/- What is wrong with a text that is no token. -/
inductive LexFault where
  | unexpectedCharacter (c : Char)
  | singleOperator (c : Char)
  | unterminatedString
  | invalidEscape (c : Char)
  | integerOutOfRange (text : String)
  | floatOutOfRange (text : String)
deriving DecidableEq

namespace LexFault

/- The fault, as messages show it. -/
def message : LexFault → String
  | .unexpectedCharacter c =>
      "Unexpected character '" ++ c.toString ++ "'"
  | .singleOperator c =>
      "Unexpected '" ++ c.toString ++ "' (did you mean '" ++
        c.toString ++ c.toString ++ "'?)"
  | .unterminatedString => "Unterminated string literal"
  | .invalidEscape c =>
      "Invalid escape sequence \\" ++ c.toString
  | .integerOutOfRange text =>
      "Integer literal '" ++ text ++ "' out of range"
  | .floatOutOfRange text =>
      "Float literal '" ++ text ++ "' out of range"

end LexFault

/- A fault and the position of the character it begins at. -/
structure LexError where
  fault : LexFault
  position : Nat
deriving DecidableEq

namespace LexError

/- The fault and its position. -/
def message
    (e : LexError) : String :=
  e.fault.message ++ " at position " ++ toString e.position

/- The error in a text that begins further on. -/
def shift
    (n : Nat)
    (e : LexError) : LexError :=
  { e with position := n + e.position }

end LexError

------------------------------------------------------------
-- Streams
------------------------------------------------------------

/-
  How the tokens of a text end: at the end of the text, whose
  position is kept, or at a fault.
-/
inductive StreamEnd where
  | complete (position : Nat)
  | broken (error : LexError)
deriving DecidableEq

/- The tokens of a text up to its end or its first fault. -/
structure TokenStream where
  tokens : List SpannedToken
  ending : StreamEnd
deriving DecidableEq

namespace TokenStream

/- The stream with one token before it. -/
def cons
    (token : SpannedToken)
    (stream : TokenStream) : TokenStream :=
  { stream with tokens := token :: stream.tokens }

end TokenStream

------------------------------------------------------------
-- Single Tokens
------------------------------------------------------------

namespace Lexer

/-
  A token and the number of its characters, or a fault and how
  far behind the start it begins.
-/
abbrev Scan :=
  Except LexError (Token × Nat)

/- Does the text start with an ASCII digit? -/
def startsWithDigit : List Char → Bool
  | c :: _ => c.isDigit
  | [] => false

/- A number, which is a whole one unless it has a fraction. -/
def scanNumber
    (cs : List Char) : Scan :=
  let numeral := Numeral.scan .absent cs
  let text := String.ofList numeral.text
  let length := numeral.text.length
  if numeral.isWhole then
    match Integer.ofInt? numeral.toInt with
    | some n => .ok (.integer n, length)
    | none => .error ⟨.integerOutOfRange text, 0⟩
  else
    match numeral.toBinary64 with
    | .infinity _ => .error ⟨.floatOutOfRange text, 0⟩
    | x => .ok (.float x, length)

/- May the character follow a backslash? -/
def isEscapable
    (c : Char) : Bool :=
  c = '"' || c = '\'' || c = '\\'

/-
  The content of a string behind its opening quote, and where
  the string ends.  The given offset is that of the next
  character.
-/
def scanQuoted
    (quote : Char)
    (offset : Nat) :
    List Char → Except LexError (List Char × Nat)
  | [] => .error ⟨.unterminatedString, 0⟩
  | c :: cs =>
      if c = quote then .ok ([], offset + 1)
      else if c = '\\' then
        match cs with
        | [] => .error ⟨.unterminatedString, 0⟩
        | d :: rest =>
            if isEscapable d then
              (scanQuoted quote (offset + 2) rest).map
                fun (content, stop) => (d :: content, stop)
            else .error ⟨.invalidEscape d, offset⟩
      else
        (scanQuoted quote (offset + 1) cs).map
          fun (content, stop) => (c :: content, stop)

/- A string behind its opening quote. -/
def scanString
    (quote : Char)
    (cs : List Char) : Scan :=
  (scanQuoted quote 1 cs).map fun (content, stop) =>
    (.string (String.ofList content), stop)

/- A keyword or an identifier. -/
def scanWord
    (c : Char)
    (cs : List Char) : Scan :=
  let word := c :: cs.takeWhile Text.isNamePart
  .ok (Token.ofWord (String.ofList word), word.length)

/- An operator that is longer if one character follows it. -/
def scanPair
    (second : Char)
    (long short : Token) : List Char → Scan
  | c :: _ => if c = second then .ok (long, 2) else .ok (short, 1)
  | [] => .ok (short, 1)

/- An operator that is one character written twice. -/
def scanDouble
    (c : Char)
    (token : Token) : List Char → Scan
  | d :: _ =>
      if d = c then .ok (token, 2)
      else .error ⟨.singleOperator c, 0⟩
  | [] => .error ⟨.singleOperator c, 0⟩

/- The tokens of one character. -/
def punctuation? : Char → Option Token
  | '.' => some .dot
  | '+' => some (.operator (.arithmetic .add))
  | '-' => some (.operator (.arithmetic .subtract))
  | '*' => some (.operator (.arithmetic .multiply))
  | '/' => some (.operator (.arithmetic .divide))
  | '%' => some (.operator (.arithmetic .modulo))
  | '?' => some .question
  | ':' => some .colon
  | '(' => some .leftParen
  | ')' => some .rightParen
  | '[' => some .leftBracket
  | ']' => some .rightBracket
  | _ => none

/- The token that starts with the character `c`. -/
def scan
    (c : Char)
    (cs : List Char) : Scan :=
  if c.isDigit || (c = '.' && startsWithDigit cs) then
    scanNumber (c :: cs)
  else if c = '"' || c = '\'' then scanString c cs
  else if c = '=' then
    scanDouble '=' (.operator (.equality .equal)) cs
  else if c = '!' then
    scanPair '=' (.operator (.equality .notEqual)) .not cs
  else if c = '<' then
    scanPair '=' (.operator (.ordering .lessEqual))
      (.operator (.ordering .less)) cs
  else if c = '>' then
    scanPair '=' (.operator (.ordering .greaterEqual))
      (.operator (.ordering .greater)) cs
  else if c = '&' then
    scanDouble '&' (.operator (.logical .and)) cs
  else if c = '|' then
    scanDouble '|' (.operator (.logical .or)) cs
  else if Text.isNameStart c then scanWord c cs
  else
    match punctuation? c with
    | some token => .ok (token, 1)
    | none => .error ⟨.unexpectedCharacter c, 0⟩

------------------------------------------------------------
-- Whole Texts
------------------------------------------------------------

/-
  The tokens of a text whose first character has the given
  position.  As many characters as are owed belong to a token
  that has been read.
-/
def tokenizeFrom
    (owed position : Nat) : List Char → TokenStream
  | [] => ⟨[], .complete position⟩
  | c :: cs =>
      match owed with
      | owed + 1 => tokenizeFrom owed (position + 1) cs
      | 0 =>
          if Text.isBlank c then tokenizeFrom 0 (position + 1) cs
          else
            match scan c cs with
            | .error e => ⟨[], .broken (e.shift position)⟩
            | .ok (token, length) =>
                let text := String.ofList ((c :: cs).take length)
                (tokenizeFrom (length - 1) (position + 1) cs).cons
                  ⟨token, text, position⟩

/- The tokens of a text that begins at an offset. -/
def tokenize
    (source : List Char)
    (offset : Nat) : TokenStream :=
  tokenizeFrom 0 offset source

end Lexer

end PageExpr
