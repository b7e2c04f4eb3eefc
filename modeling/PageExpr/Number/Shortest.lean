import PageExpr.Number.Binary64

/-
  The fewest decimal digits that read back as a number.

  A grid of so many digits offers two neighbours of a value,
  one at or below it and one above.  The coarsest grid with a
  neighbour that reads back gives the digits; of two such
  neighbours the nearer one is taken.

  Main declarations:
    * `Digits`
    * `Digits.onGrid?`
    * `Digits.fewest?`
    * `Binary64.shortest`
-/

namespace PageExpr

------------------------------------------------------------
-- Digits
------------------------------------------------------------

/- A whole number of units of a power of ten. -/
structure Digits where
  units : Nat
  exponent : Int
deriving DecidableEq

namespace Digits

/- The number of decimal digits of a natural number. -/
def count
    (n : Nat) : Nat :=
  (Nat.toDigits 10 n).length

/- The value of the digits. -/
def toRat
    (d : Digits) : Rat :=
  d.units * (10 : Rat) ^ d.exponent

/- The power of ten of the first digit. -/
def place
    (d : Digits) : Int :=
  count d.units + d.exponent - 1

/- The power of ten of the first digit of a positive number. -/
def placeOf
    (q : Rat) : Int :=
  let k : Int := count q.num.natAbs - count q.den
  if (10 : Rat) ^ k ≤ q then k else k - 1

/-
  The neighbour of a value on the grid of `n` digits that is
  accepted, if there is one.  Of two the nearer one is taken,
  and of two at the same distance the upper or the even one.
-/
def onGrid?
    (accepts : Rat → Bool)
    (halfUp : Bool)
    (q : Rat)
    (n : Nat) : Option Digits :=
  let exponent := placeOf q + 1 - n
  let unit : Rat := (10 : Rat) ^ exponent
  let units := (q / unit).floor.toNat
  let below := (units : Rat) * unit
  let above := ((units + 1 : Nat) : Rat) * unit
  let lower : Digits := ⟨units, exponent⟩
  let upper : Digits :=
    if units + 1 = Nat.pow 10 n then ⟨1, exponent + n⟩
    else ⟨units + 1, exponent⟩
  match accepts below, accepts above with
  | true, true =>
      if q - below < above - q then some lower
      else if above - q < q - below then some upper
      else if halfUp || units % 2 = 1 then some upper
      else some lower
  | true, false => some lower
  | false, true => some upper
  | false, false => none

/- The accepted neighbour on the coarsest grid. -/
def fewest?
    (accepts : Rat → Bool)
    (halfUp : Bool)
    (most : Nat)
    (q : Rat) : Option Digits :=
  (List.range' 1 most).findSome? (onGrid? accepts halfUp q)

end Digits

------------------------------------------------------------
-- Shortest Digits of a Number
------------------------------------------------------------

namespace Binary64

/- All digits of a significand times a power of two. -/
def allDigits
    (significand : Nat)
    (exponent : Int) : Digits :=
  if exponent < 0 then
    ⟨significand * Nat.pow 5 (-exponent).toNat, exponent⟩
  else
    ⟨significand <<< exponent.toNat, 0⟩

/-
  The fewest digits that are nearest to the magnitude of the
  number and to no other.  Seventeen always suffice.
-/
def shortest
    (halfUp : Bool)
    (x : Binary64) : Digits :=
  match x with
  | .finite _ significand exponent canonical =>
      if significand = 0 then ⟨0, 0⟩
      else
        let accepts (q : Rat) : Bool :=
          round false q =
            .finite false significand exponent canonical
        (Digits.fewest? accepts halfUp 17 x.magnitude).getD
          (allDigits significand exponent)
  | _ => ⟨0, 0⟩

end Binary64

end PageExpr
