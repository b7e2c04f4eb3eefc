import PageExpr.Json.Basic
import PageExpr.Number.Numeral

/-
  Reading JSON texts.

  The text is cut into tokens, and a machine with a stack of
  open arrays and objects takes one token after the other.  The
  height of the stack is limited.

  A floating-point number is read in two roundings.  As many of
  its digits as fit sixty-four bits are taken for an integer,
  which is rounded; it is then multiplied with a power of ten,
  or divided by one.

  Main declarations:
    * `Json.Scanner.tokens?`
    * `Json.Machine.step?`
    * `Json.parse?`
-/

namespace PageExpr

namespace Json

------------------------------------------------------------
-- Numbers
------------------------------------------------------------

/-
  Append digits to an integer as long as it stays below
  `2 ^ 64`, and count the digits that are left.
-/
def takeDigits
    (acc : Nat) : List Char → Nat × Nat
  | [] => (acc, 0)
  | d :: ds =>
      let next := 10 * acc + (d.toNat - '0'.toNat)
      if next < 0x10000000000000000 then takeDigits next ds
      else (acc, ds.length + 1)

/- The nearest number to a power of ten. -/
def powerOfTen
    (n : Nat) : Binary64 :=
  Binary64.ofDecimal false 1 n

/-
  A number times a power of ten; none if it is too large.
  Below `10 ^ -308` the division is made in two parts, and
  after two of them nothing is left.
-/
def scale?
    (x : Binary64)
    (exponent : Int) : Option Binary64 :=
  if x.isZero then some x
  else if 308 < exponent then none
  else if 0 ≤ exponent then
    let y := x.mul (powerOfTen exponent.toNat)
    if y.isFinite then some y else none
  else if -308 ≤ exponent then
    some (x.div (powerOfTen (-exponent).toNat))
  else if -616 ≤ exponent then
    some ((x.div (powerOfTen 308)).div
      (powerOfTen (-exponent - 308).toNat))
  else some (Binary64.zero false)

/- The floating-point number of a numeral, if it is in range. -/
def float?
    (n : Numeral) : Option Binary64 :=
  let fraction := n.fraction.getD []
  let (whole, left) := takeDigits 0 n.whole
  let (significand, unused) := takeDigits whole fraction
  let exponent :=
    n.writtenExponent + left - (fraction.length - unused : Nat)
  (scale? (Binary64.ofNat significand) exponent).map fun x =>
    if n.sign.isMinus then x.neg else x

/-
  The number of a numeral.  Integers that fit are integers, but
  the negative zero is not one.
-/
def number?
    (n : Numeral) : Option Json :=
  let isNegativeZero := n.sign.isMinus && n.toInt == 0
  if h : (n.isWhole && !isNegativeZero) = true ∧
      JsonNumber.Fits n.toInt then
    some (.number (.whole n.toInt h.2))
  else
    (float? n).bind fun x =>
      if h : x.isFinite = true then some (.number (.float x h))
      else none

------------------------------------------------------------
-- Tokens
------------------------------------------------------------

/- Brackets, separators, and values without parts. -/
inductive Token where
  | openArray
  | closeArray
  | openObject
  | closeObject
  | comma
  | colon
  | scalar (value : Json)
  | string (s : String)

namespace Scanner

/- What stands in a string: a character or a code unit. -/
inductive Item where
  | char (c : Char)
  | unit (code : Nat)

/- The value of a hexadecimal digit. -/
def hexDigit?
    (c : Char) : Option Nat :=
  if c.isDigit then some (c.toNat - 48)
  else if 'a' ≤ c && c ≤ 'f' then some (c.toNat - 87)
  else if 'A' ≤ c && c ≤ 'F' then some (c.toNat - 55)
  else none

/- The code unit of four hexadecimal digits. -/
def unit? : List Char → Option Nat
  | a :: b :: c :: d :: _ => do
      let a ← hexDigit? a
      let b ← hexDigit? b
      let c ← hexDigit? c
      let d ← hexDigit? d
      return ((a * 16 + b) * 16 + c) * 16 + d
  | _ => none

/- What an escape stands for, and its length. -/
def escape? : List Char → Option (Item × Nat)
  | '"' :: _ => some (.char '"', 2)
  | '\\' :: _ => some (.char '\\', 2)
  | '/' :: _ => some (.char '/', 2)
  | 'b' :: _ => some (.char '\x08', 2)
  | 'f' :: _ => some (.char '\x0c', 2)
  | 'n' :: _ => some (.char '\n', 2)
  | 'r' :: _ => some (.char '\r', 2)
  | 't' :: _ => some (.char '\t', 2)
  | 'u' :: cs => (unit? cs).map fun code => (.unit code, 6)
  | _ => none

/- An item of a string that starts with `c`, and its length. -/
def item?
    (c : Char)
    (cs : List Char) : Option (Item × Nat) :=
  if c = '\\' then escape? cs
  else if c.toNat < 0x20 then none
  else some (.char c, 1)

/- Is the code unit the first of two surrogates? -/
def isHighSurrogate
    (code : Nat) : Bool :=
  0xd800 ≤ code && code < 0xdc00

/- Is the code unit the second of two surrogates? -/
def isLowSurrogate
    (code : Nat) : Bool :=
  0xdc00 ≤ code && code < 0xe000

/- The character of two surrogates. -/
def combined
    (high low : Nat) : Char :=
  Char.ofNat (0x10000 + (high - 0xd800) * 0x400 + (low - 0xdc00))

/-
  The content of a string behind its opening quote, and where
  the string ends.  Characters that are owed belong to an item
  that has been read.  A high surrogate waits for a low one.
-/
def content?
    (owed : Nat)
    (high : Option Nat)
    (offset : Nat) : List Char → Option (List Char × Nat)
  | [] => none
  | c :: cs =>
      match owed with
      | owed + 1 => content? owed high (offset + 1) cs
      | 0 =>
          if c = '"' then
            match high with
            | none => some ([], offset + 1)
            | some _ => none
          else
            match item? c cs, high with
            | some (.char d, length), none =>
                (content? (length - 1) none (offset + 1) cs).map
                  fun (content, stop) => (d :: content, stop)
            | some (.unit code, length), none =>
                if isHighSurrogate code then
                  content? (length - 1) (some code) (offset + 1) cs
                else if isLowSurrogate code then none
                else
                  (content? (length - 1) none (offset + 1) cs).map
                    fun (content, stop) =>
                      (Char.ofNat code :: content, stop)
            | some (.unit code, length), some first =>
                if isLowSurrogate code then
                  (content? (length - 1) none (offset + 1) cs).map
                    fun (content, stop) =>
                      (combined first code :: content, stop)
                else none
            | _, _ => none

/- A number that starts with a digit or a minus sign. -/
def number?
    (cs : List Char) : Option (Token × Nat) :=
  let (sign, rest) := Sign.read cs
  let n := Numeral.scan sign rest
  match n.whole with
  | [] => none
  | '0' :: _ :: _ => none
  | _ => (Json.number? n).map fun v => (.scalar v, n.text.length)

/- One of the three words. -/
def word?
    (cs : List Char) : Option (Token × Nat) :=
  if ['n', 'u', 'l', 'l'].isPrefixOf cs then
    some (.scalar .null, 4)
  else if ['t', 'r', 'u', 'e'].isPrefixOf cs then
    some (.scalar (.boolean true), 4)
  else if ['f', 'a', 'l', 's', 'e'].isPrefixOf cs then
    some (.scalar (.boolean false), 5)
  else none

/- The token that starts with `c`, and its length. -/
def token?
    (c : Char)
    (cs : List Char) : Option (Token × Nat) :=
  match c with
  | '[' => some (.openArray, 1)
  | ']' => some (.closeArray, 1)
  | '\x7b' => some (.openObject, 1)
  | '\x7d' => some (.closeObject, 1)
  | ',' => some (.comma, 1)
  | ':' => some (.colon, 1)
  | '"' =>
      (content? 0 none 1 cs).map fun (content, stop) =>
        (.string (String.ofList content), stop)
  | _ =>
      if c.isDigit || c = '-' then number? (c :: cs)
      else word? (c :: cs)

/- Blanks between tokens are the four of the standard. -/
def isBlank
    (c : Char) : Bool :=
  c = ' ' || c = '\t' || c = '\n' || c = '\r'

/-
  The tokens of a text.  Characters that are owed belong to a
  token that has been read.
-/
def tokens?
    (owed : Nat) : List Char → Option (List Token)
  | [] => some []
  | c :: cs =>
      match owed with
      | owed + 1 => tokens? owed cs
      | 0 =>
          if isBlank c then tokens? 0 cs
          else
            match token? c cs with
            | none => none
            | some (token, length) =>
                (tokens? (length - 1) cs).map (token :: ·)

end Scanner

------------------------------------------------------------
-- The Machine
------------------------------------------------------------

namespace Machine

/- An array or an object that has not been closed. -/
inductive Frame where
  | array (reversed : List Json)
  | object (members : Fields Json) (key : String)

/- What may come next. -/
inductive State where
  | value (stack : List Frame)
  | firstItem (stack : List Frame)
  | firstKey (stack : List Frame)
  | key (members : Fields Json) (stack : List Frame)
  | colon (members : Fields Json) (key : String)
      (stack : List Frame)
  | after (value : Json) (stack : List Frame)

/- A token where a value is expected. -/
def stepValue?
    (limit : Nat)
    (stack : List Frame) : Token → Option State
  | .openArray =>
      if stack.length < limit then some (.firstItem stack) else none
  | .openObject =>
      if stack.length < limit then some (.firstKey stack) else none
  | .scalar v => some (.after v stack)
  | .string s => some (.after (.string s) stack)
  | _ => none

/- A token behind a value. -/
def stepAfter?
    (v : Json) :
    List Frame → Token → Option State
  | .array items :: stack, .comma =>
      some (.value (.array (v :: items) :: stack))
  | .array items :: stack, .closeArray =>
      some (.after (.array (v :: items).reverse) stack)
  | .object members key :: stack, .comma =>
      some (.key (members.insert key v) stack)
  | .object members key :: stack, .closeObject =>
      some (.after (.object (members.insert key v)) stack)
  | _, _ => none

/- Take one token. -/
def step?
    (limit : Nat) : State → Token → Option State
  | .value stack, token => stepValue? limit stack token
  | .firstItem stack, .closeArray => some (.after (.array []) stack)
  | .firstItem stack, token =>
      stepValue? limit (.array [] :: stack) token
  | .firstKey stack, .closeObject =>
      some (.after (.object []) stack)
  | .firstKey stack, .string key => some (.colon [] key stack)
  | .firstKey _, _ => none
  | .key members stack, .string key =>
      some (.colon members key stack)
  | .key _ _, _ => none
  | .colon members key stack, .colon =>
      some (.value (.object members key :: stack))
  | .colon .., _ => none
  | .after v stack, token => stepAfter? v stack token

/- Take all tokens; a complete value must be left. -/
def run?
    (limit : Nat)
    (state : State) : List Token → Option Json
  | [] =>
      match state with
      | .after v [] => some v
      | _ => none
  | token :: rest =>
      match step? limit state token with
      | some state => run? limit state rest
      | none => none

end Machine

/-
  The document of a text, with at most `limit` arrays and
  objects one inside the other.
-/
def parseWithin?
    (limit : Nat)
    (text : String) : Option Json :=
  (Scanner.tokens? 0 text.toList).bind
    (Machine.run? limit (.value []))

/- Documents are at most this deep. -/
def maxDepth : Nat :=
  127

/- The document of a text. -/
def parse?
    (text : String) : Option Json :=
  parseWithin? maxDepth text

end Json

end PageExpr
