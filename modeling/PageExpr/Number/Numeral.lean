import PageExpr.Number.Number

/-
  Decimal notation: a sign, digits, a fraction and an exponent.

  A numeral without fraction and exponent stands for a whole
  number, one with either of them for a floating-point number.
  A whole text is read as one numeral, or the longest numeral
  is taken from the start of a text.

  Main declarations:
    * `Numeral`
    * `Numeral.text`
    * `Numeral.toBinary64`
    * `Numeral.toInt`
    * `Numeral.toNumber`
    * `Numeral.read?`
    * `Numeral.scan`
-/

namespace PageExpr

------------------------------------------------------------
-- Signs
------------------------------------------------------------

/- A sign as it is written, if it is. -/
inductive Sign where
  | absent
  | plus
  | minus
deriving DecidableEq

namespace Sign

/- The written sign. -/
def text : Sign → List Char
  | .absent => []
  | .plus => ['+']
  | .minus => ['-']

/- Is it a minus sign? -/
def isMinus : Sign → Bool
  | .minus => true
  | _ => false

/- The sign at the start of a text, and what follows it. -/
def read : List Char → Sign × List Char
  | '-' :: rest => (.minus, rest)
  | '+' :: rest => (.plus, rest)
  | cs => (.absent, cs)

/- Reading a sign loses nothing. -/
theorem text_append_read
    (cs : List Char) :
    (read cs).1.text ++ (read cs).2 = cs := by
  unfold read
  split <;> rfl

end Sign

------------------------------------------------------------
-- Numerals
------------------------------------------------------------

/-
  The parts of a number in decimal notation.  All digits are
  ASCII digits.  An exponent is a sign and digits.
-/
structure Numeral where
  sign : Sign
  whole : List Char
  fraction : Option (List Char)
  exponent : Option (Sign × List Char)
deriving DecidableEq

namespace Numeral

/- The digits at the start of a text. -/
def digits
    (cs : List Char) : List Char :=
  cs.takeWhile Char.isDigit

/- What follows the digits at the start of a text. -/
def afterDigits
    (cs : List Char) : List Char :=
  cs.dropWhile Char.isDigit

/- Digits and what follows them make up the text. -/
theorem digits_append_afterDigits
    (cs : List Char) :
    digits cs ++ afterDigits cs = cs :=
  List.takeWhile_append_dropWhile

/- The value of digits. -/
def value
    (ds : List Char) : Nat :=
  ds.foldl (fun n d => 10 * n + (d.toNat - '0'.toNat)) 0

/- The written fraction. -/
def fractionText : Option (List Char) → List Char
  | none => []
  | some ds => '.' :: ds

/- The written exponent, with a small letter. -/
def exponentText : Option (Sign × List Char) → List Char
  | none => []
  | some (sign, ds) => 'e' :: sign.text ++ ds

/- The written numeral. -/
def text
    (n : Numeral) : List Char :=
  n.sign.text ++ n.whole ++ fractionText n.fraction ++
    exponentText n.exponent

------------------------------------------------------------
-- Values
------------------------------------------------------------

/- The power of ten that is written out. -/
def writtenExponent
    (n : Numeral) : Int :=
  match n.exponent with
  | none => 0
  | some (sign, ds) =>
      if sign.isMinus then -(value ds : Int) else value ds

/- All digits, before and behind the point. -/
def mantissa
    (n : Numeral) : Nat :=
  value (n.whole ++ n.fraction.getD [])

/- The power of ten of the last digit. -/
def lastPlace
    (n : Numeral) : Int :=
  n.writtenExponent - (n.fraction.getD []).length

/- The nearest floating-point number. -/
def toBinary64
    (n : Numeral) : Binary64 :=
  Binary64.ofDecimal n.sign.isMinus n.mantissa n.lastPlace

/- The integer of the digits before the point. -/
def toInt
    (n : Numeral) : Int :=
  if n.sign.isMinus then -(value n.whole : Int)
  else value n.whole

/- Is there neither a fraction nor an exponent? -/
def isWhole
    (n : Numeral) : Bool :=
  n.fraction.isNone && n.exponent.isNone

/-
  The number, as a floating-point number or if possible as a
  whole one: a word if the integer fits, else the nearest
  floating-point number.
-/
def toNumber
    (asFloat : Bool)
    (n : Numeral) : Number :=
  match asFloat, Integer.ofInt? n.toInt with
  | false, some w => .integer w
  | _, _ => .float n.toBinary64

------------------------------------------------------------
-- Reading a Whole Text
------------------------------------------------------------

/-
  An exponent that ends the text: a letter, a sign that may be
  left out, and one digit or more.
-/
def readExponent? : List Char →
    Option (Option (Sign × List Char))
  | [] => some none
  | c :: cs =>
      if c = 'e' || c = 'E' then
        let (sign, rest) := Sign.read cs
        if digits rest ≠ [] && afterDigits rest = [] then
          some (some (sign, digits rest))
        else none
      else none

/-
  Read a whole text as a numeral.  Digits must stand before or
  behind the point, and a point may end them.
-/
def read?
    (cs : List Char) : Option Numeral :=
  let (sign, cs) := Sign.read cs
  let whole := digits cs
  match afterDigits cs with
  | '.' :: rest =>
      let fraction := digits rest
      if whole = [] && fraction = [] then none
      else
        (readExponent? (afterDigits rest)).map
          fun exponent => ⟨sign, whole, some fraction, exponent⟩
  | rest =>
      if whole = [] then none
      else
        (readExponent? rest).map
          fun exponent => ⟨sign, whole, none, exponent⟩

------------------------------------------------------------
-- The Longest Numeral at the Start of a Text
------------------------------------------------------------

/-
  A point and the digits behind it, and what follows them.  A
  point without a digit is not part of the numeral.
-/
def scanFraction : List Char → Option (List Char) × List Char
  | '.' :: rest =>
      if digits rest = [] then (none, '.' :: rest)
      else (some (digits rest), afterDigits rest)
  | cs => (none, cs)

/-
  An exponent.  A letter without a digit, with or without a
  sign between them, is not part of the numeral.
-/
def scanExponent : List Char → Option (Sign × List Char)
  | [] => none
  | c :: cs =>
      if c = 'e' || c = 'E' then
        let (sign, rest) := Sign.read cs
        if digits rest = [] then none
        else some (sign, digits rest)
      else none

/-
  The longest numeral at the start of a text, after a sign that
  has been read.  It is as long as its text.
-/
def scan
    (sign : Sign)
    (cs : List Char) : Numeral :=
  let (fraction, rest) := scanFraction (afterDigits cs)
  ⟨sign, digits cs, fraction, scanExponent rest⟩

end Numeral

end PageExpr
