import PageExpr.Number.Shortest

/-
  Writing the digits of a finite number: where the point goes,
  and which numbers are written with an exponent.

  Main declarations:
    * `Layout`
    * `Layout.positional`
    * `Layout.scientific`
    * `Layout.text`
-/

namespace PageExpr

/-
  How a format writes numbers.
    * `halfUp`: of two equally near digits, the upper ones
    * `isPositional`: is a number whose first digit stands at
      this power of ten written without an exponent?
    * `keepsPoint`: is a whole number followed by `.0`?
    * `mark`: the letter before an exponent
    * `plusSign`: does a positive exponent have a sign?
-/
structure Layout where
  halfUp : Bool
  isPositional : Int → Bool
  keepsPoint : Bool
  mark : Char
  plusSign : Bool

namespace Layout

/- Digits with the point in its place. -/
def positional
    (style : Layout)
    (d : Digits) : List Char :=
  let digits := Nat.toDigits 10 d.units
  if 0 ≤ d.exponent then
    digits ++ List.replicate d.exponent.toNat '0' ++
      (if style.keepsPoint then ['.', '0'] else [])
  else
    let whole := (digits.length + d.exponent : Int)
    if 0 < whole then
      digits.take whole.toNat ++ '.' :: digits.drop whole.toNat
    else
      '0' :: '.' :: List.replicate (-whole).toNat '0' ++ digits

/- Digits with the point after the first, and an exponent. -/
def scientific
    (style : Layout)
    (d : Digits) : List Char :=
  let digits := Nat.toDigits 10 d.units
  let fraction := digits.drop 1
  let exponent := d.place
  digits.take 1 ++
    (if fraction.isEmpty then [] else '.' :: fraction) ++
    style.mark ::
      (if exponent < 0 then ['-']
      else if style.plusSign then ['+'] else []) ++
    Nat.toDigits 10 exponent.natAbs

/- The text of a finite number. -/
def text
    (style : Layout)
    (x : Binary64) : String :=
  let d := x.shortest style.halfUp
  let unsigned :=
    if style.isPositional d.place then style.positional d
    else style.scientific d
  String.ofList (if x.isNegative then '-' :: unsigned else unsigned)

end Layout

end PageExpr
