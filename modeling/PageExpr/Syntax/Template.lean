import PageExpr.Syntax.Parser

/-
  Templates: texts in which expressions stand between `${` and
  `}`.

  A closing brace between quotes does not end an expression.
  The text is cut into segments, single characters and whole
  expressions, and neighbouring characters are then joined.

  Main declarations:
    * `Template`
    * `Template.closingBrace?`
    * `Template.segments`
    * `Template.parts`
    * `Template.parse`
-/

namespace PageExpr

/- A piece of a template. -/
inductive Template.Part where
  | text (content : String)
  | expression (expr : Expr)

/-
  A text without expressions, one expression that takes up the
  whole text, or a mixture.
-/
inductive Template where
  | literal (content : String)
  | expression (expr : Expr)
  | composite (parts : List Template.Part)

namespace Template

------------------------------------------------------------
-- Braces
------------------------------------------------------------

/- Is the character a quote? -/
def isQuote
    (c : Char) : Bool :=
  c = '"' || c = '\''

/-
  The number of characters before the brace that closes an
  expression.  Inside quotes, which are given by the quote that
  ends them, a backslash hides the character behind it.
-/
def closingBrace?
    (quote : Option Char) : List Char → Option Nat
  | [] => none
  | c :: cs =>
      match quote with
      | none =>
          if c = '\x7d' then some 0
          else
            (closingBrace? (if isQuote c then some c else none)
              cs).map (· + 1)
      | some q =>
          if c = '\\' then
            match cs with
            | [] => none
            | _ :: rest => (closingBrace? (some q) rest).map (· + 2)
          else
            (closingBrace? (if c = q then none else some q)
              cs).map (· + 1)

/- What follows an opening brace, if the text has one here. -/
def behindBrace? : List Char → Option (List Char)
  | c :: cs => if c = '\x7b' then some cs else none
  | [] => none

------------------------------------------------------------
-- Segments
------------------------------------------------------------

/- One character of text, or an expression. -/
inductive Segment where
  | char (c : Char)
  | expression (expr : Expr)

/-
  The segments of a text whose first character has the given
  position.  As many characters as are owed belong to an
  expression that has been read.
-/
def segmentsFrom
    (owed position : Nat) :
    List Char → Except SyntaxError (List Segment)
  | [] => .ok []
  | c :: cs =>
      match owed with
      | owed + 1 => segmentsFrom owed (position + 1) cs
      | 0 =>
          match (if c = '$' then behindBrace? cs else none) with
          | none =>
              (segmentsFrom 0 (position + 1) cs).map (.char c :: ·)
          | some inside =>
              match closingBrace? none inside with
              | none => .error (.unterminated position)
              | some length =>
                  match Expr.parseAt (position + 2)
                    (inside.take length) with
                  | .error e => .error e
                  | .ok expr =>
                      (segmentsFrom (length + 2) (position + 1)
                        cs).map (.expression expr :: ·)

/- The segments of a text. -/
def segments
    (source : List Char) : Except SyntaxError (List Segment) :=
  segmentsFrom 0 0 source

------------------------------------------------------------
-- Parts
------------------------------------------------------------

/- Put a character before parts. -/
def consChar
    (c : Char) : List Part → List Part
  | .text content :: rest =>
      .text (String.singleton c ++ content) :: rest
  | parts => .text (String.singleton c) :: parts

/- Join neighbouring characters. -/
def joined : List Segment → List Part
  | [] => []
  | .char c :: rest => consChar c (joined rest)
  | .expression expr :: rest => .expression expr :: joined rest

/- The template of its parts. -/
def ofParts : List Part → Template
  | [] => .literal ""
  | [.text content] => .literal content
  | [.expression expr] => .expression expr
  | parts => .composite parts

/- The parts of a text. -/
def parts
    (source : List Char) : Except SyntaxError (List Part) :=
  (segments source).map joined

/- The template of a text. -/
def parse
    (source : String) : Except SyntaxError Template :=
  (parts source.toList).map ofParts

end Template

end PageExpr
