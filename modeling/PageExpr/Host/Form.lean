import PageExpr.Text.Utf8

/-
  The names and values in a query string.

  Pieces stand between ampersands, and empty ones do not count.
  The first equals sign of a piece separates name and value.  A
  plus sign is a space, and a percent sign with two hexadecimal
  digits is an octet of UTF-8.

  Main declarations:
    * `Form.pieces`
    * `Form.unescape`
    * `Form.parse`
-/

namespace PageExpr

namespace Form

/- The pieces between the ampersands. -/
def pieces : List Char → List (List Char)
  | [] => [[]]
  | c :: cs =>
      if c = '&' then [] :: pieces cs
      else
        match pieces cs with
        | [] => [[c]]
        | piece :: rest => (c :: piece) :: rest

/- The value of a hexadecimal digit. -/
def hexDigit?
    (octet : Nat) : Option Nat :=
  if 48 ≤ octet && octet ≤ 57 then some (octet - 48)
  else if 65 ≤ octet && octet ≤ 70 then some (octet - 55)
  else if 97 ≤ octet && octet ≤ 102 then some (octet - 87)
  else none

/- The octet that two hexadecimal digits spell. -/
def escaped? : List Nat → Option Nat
  | high :: low :: _ => do
      let h ← hexDigit? high
      let l ← hexDigit? low
      return 16 * h + l
  | _ => none

/-
  Undo the escapes.  An escape without its two digits stays as
  it is.  Octets that are owed belong to an escape that has
  been read.
-/
def unescapeFrom
    (owed : Nat) : List Nat → List Nat
  | [] => []
  | octet :: rest =>
      match owed with
      | owed + 1 => unescapeFrom owed rest
      | 0 =>
          if octet = 37 then
            match escaped? rest with
            | some value => value :: unescapeFrom 2 rest
            | none => octet :: unescapeFrom 0 rest
          else if octet = 43 then 32 :: unescapeFrom 0 rest
          else octet :: unescapeFrom 0 rest

/- The text that an escaped name or value stands for. -/
def unescape
    (cs : List Char) : String :=
  String.ofList
    (Utf8.decode (unescapeFrom 0 (Utf8.encode cs)))

/- The name and the value of a piece. -/
def pair
    (piece : List Char) : String × String :=
  (unescape (piece.takeWhile (· != '=')),
    unescape ((piece.dropWhile (· != '=')).drop 1))

/- The names and values of a query string, in their order. -/
def parse
    (query : String) : List (String × String) :=
  ((pieces query.toList).filter (· ≠ [])).map pair

end Form

end PageExpr
