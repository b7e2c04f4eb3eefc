import PageExpr.Number.Binary64

/-
  Decimals of ninety-six bits: a sign, a mantissa and a scale,
  the number of digits behind the point.  A mantissa is below
  `2 ^ 96` and a scale is at most 28.

  Sums and products are formed exactly and then put at the
  largest scale at which they fit; a remainder is exact.  A
  quotient comes from a long division that takes nine digits at
  a time, so it can keep some zeros at its end.  A
  floating-point number becomes a decimal by carrying its power
  of two over into powers of five and ten.

  Main declarations:
    * `Decimal96`
    * `Decimal96.toRat`
    * `Decimal96.fit?`
    * `Decimal96.add?`, `Decimal96.sub?`, `Decimal96.mul?`
    * `Decimal96.quotientScale`, `Decimal96.trim`
    * `Decimal96.div?`, `Decimal96.rem?`
    * `Decimal96.ofBinary64?`, `Decimal96.toBinary64`
-/

namespace PageExpr

/- The decimal `± mantissa / 10 ^ scale`. -/
structure Decimal96 where
  negative : Bool
  mantissa : Nat
  scale : Nat
deriving DecidableEq

namespace Decimal96

/- The value as a rational. -/
def toRat
    (d : Decimal96) : Rat :=
  let magnitude : Rat := d.mantissa / (10 : Rat) ^ d.scale
  if d.negative then -magnitude else magnitude

/- Mantissas stay below this bound. -/
def bound : Nat :=
  0x1000000000000000000000000

/- The largest scale. -/
def maxScale : Nat :=
  28

/- The positive zero. -/
def zero : Decimal96 :=
  ⟨false, 0, 0⟩

/- The decimal of an integer. -/
def ofInt
    (n : Int) : Decimal96 :=
  ⟨n < 0, n.natAbs, 0⟩

/- The decimal with the other sign; zero stays as it is. -/
def neg
    (d : Decimal96) : Decimal96 :=
  if d.mantissa = 0 then d else { d with negative := !d.negative }

/- The mantissa of the magnitude at a larger scale. -/
def mantissaAt
    (d : Decimal96)
    (scale : Nat) : Nat :=
  d.mantissa * Nat.pow 10 (scale - d.scale)

/- Equality of values, whatever the scales. -/
def sameValue
    (a b : Decimal96) : Bool :=
  let scale := max a.scale b.scale
  a.mantissaAt scale == b.mantissaAt scale &&
    (a.negative == b.negative || a.mantissa == 0)

------------------------------------------------------------
-- Fitting
------------------------------------------------------------

/-
  A quotient at the largest scale from `scale` downwards at
  which its rounded mantissa fits.
-/
def fitRatio?
    (negative : Bool)
    (n d : Nat) : Nat → Option Decimal96
  | 0 =>
      let mantissa := Binary64.nearestEven n d
      if mantissa < bound then some ⟨negative, mantissa, 0⟩
      else none
  | scale + 1 =>
      let mantissa :=
        Binary64.nearestEven (n * Nat.pow 10 (scale + 1)) d
      if mantissa < bound then
        some ⟨negative, mantissa, scale + 1⟩
      else fitRatio? negative n d scale

/- The value `± m / 10 ^ s`, at no scale larger than its own. -/
def fit?
    (negative : Bool)
    (m s : Nat) : Option Decimal96 :=
  fitRatio? negative m (Nat.pow 10 s) (min s maxScale)

/- Drop all zeros at the end of the fraction. -/
def stripZeros
    (negative : Bool)
    (mantissa : Nat) : Nat → Decimal96
  | 0 => ⟨negative, mantissa, 0⟩
  | scale + 1 =>
      if mantissa % 10 = 0 then
        stripZeros negative (mantissa / 10) scale
      else ⟨negative, mantissa, scale + 1⟩

------------------------------------------------------------
-- Arithmetic
------------------------------------------------------------

/- The sum, at the larger scale if it fits there. -/
def add?
    (a b : Decimal96) : Option Decimal96 :=
  if a.mantissa = 0 then some b
  else if b.mantissa = 0 then some a
  else
    let scale := max a.scale b.scale
    let m := a.mantissaAt scale
    let n := b.mantissaAt scale
    if a.negative = b.negative then
      fit? a.negative (m + n) scale
    else if n < m then fit? a.negative (m - n) scale
    else if m < n then fit? b.negative (n - m) scale
    else fit? false 0 scale

/- The difference. -/
def sub?
    (a b : Decimal96) : Option Decimal96 :=
  a.add? b.neg

/- The product. -/
def mul?
    (a b : Decimal96) : Option Decimal96 :=
  if a.mantissa = 0 || b.mantissa = 0 then some zero
  else
    fit? (a.negative != b.negative)
      (a.mantissa * b.mantissa) (a.scale + b.scale)

------------------------------------------------------------
-- Division
------------------------------------------------------------

/-
  The scale that a long division aims at.  It starts from the
  mantissas, adds nine digits at a time, and ends as soon as
  nothing remains; if something always remains, all digits are
  taken.  Six additions lead from the least scale at the start
  to the last digits.
-/
def quotientScale
    (a b : Decimal96) : Nat :=
  let ends := fun blocks =>
    a.mantissaAt (a.scale + 9 * blocks) % b.mantissa == 0
  match (List.range 7).find? ends with
  | some blocks => min (a.scale + 9 * blocks - b.scale) maxScale
  | none => maxScale

/-
  Take a number of zeros off the end of the fraction, if it
  ends in so many.
-/
def dropZeros
    (count : Nat)
    (d : Decimal96) : Decimal96 :=
  let p := Nat.pow 10 count
  if count ≤ d.scale && d.mantissa % p = 0 then
    ⟨d.negative, d.mantissa / p, d.scale - count⟩
  else d

/-
  Take eight zeros off, but only if the lowest thirty-two bits
  of the mantissa are zero.
-/
def dropEightZeros
    (d : Decimal96) : Decimal96 :=
  if d.mantissa % 0x100000000 = 0 then d.dropZeros 8 else d

/-
  Take zeros off in groups of eight, then one group each of
  four, two and one.  No scale holds more than three groups of
  eight.  Such a group is often refused, and so of more than
  seven zeros some can stay.
-/
def trim
    (d : Decimal96) : Decimal96 :=
  let d := d.dropEightZeros.dropEightZeros.dropEightZeros
  ((d.dropZeros 4).dropZeros 2).dropZeros 1

/-
  The quotient, at the scale that the division aims at or the
  largest below it at which it fits, and trimmed.
-/
def div?
    (a b : Decimal96) : Option Decimal96 :=
  if b.mantissa = 0 then none
  else if a.mantissa = 0 then some zero
  else
    (fitRatio? (a.negative != b.negative)
      (a.mantissa * Nat.pow 10 b.scale)
      (b.mantissa * Nat.pow 10 a.scale)
      (a.quotientScale b)).map trim

/-
  The remainder of the division that truncates its quotient,
  with the sign of the dividend.
-/
def rem?
    (a b : Decimal96) : Option Decimal96 :=
  if b.mantissa = 0 then none
  else if a.mantissa = 0 then some zero
  else
    let scale := max a.scale b.scale
    let m := a.mantissaAt scale
    let n := b.mantissaAt scale
    if m < n then some a
    else if m % n = 0 then some zero
    else some ⟨a.negative, m % n, scale⟩

------------------------------------------------------------
-- From Floating-Point Numbers
------------------------------------------------------------

/-
  The conversion works on `m * 5 ^ five * 10 ^ ten`.  The first
  steps bring `five` to zero.
-/

/- Turn `twos` negative powers of two into fives and tens. -/
def clearHalves : Nat → Nat → Int → Nat × Int
  | 0, m, ten => (m, ten)
  | twos + 1, m, ten =>
      if m % 2 = 0 then clearHalves twos (m / 2) (ten + 1)
      else if 5 * m < bound then clearHalves twos (5 * m) ten
      else clearHalves twos (m / 2) (ten + 1)

/- Turn `twos` positive powers of two into tens. -/
def clearTwos? : Nat → Nat → Int → Option (Nat × Int)
  | 0, m, ten => some (m, ten)
  | twos + 1, m, ten =>
      if 2 * m < bound then clearTwos? twos (2 * m) (ten - 1)
      else if 2 * ten > (twos + 1 : Nat) then none
      else clearTwos? twos (m / 5) ten

/- Multiply out positive powers of ten. -/
def clearTens? : Nat → Nat → Option Nat
  | 0, m => some m
  | tens + 1, m =>
      if 10 * m < bound then clearTens? tens (10 * m) else none

/- Divide by ten; a half or more goes up. -/
def tenth
    (m : Nat) : Nat :=
  if 5 ≤ m % 10 then m / 10 + 1 else m / 10

/-
  Take `excess` digits off the fraction.  A mantissa without
  any digit left is zero.
-/
def dropDigits : Nat → Nat → Nat → Nat × Nat
  | 0, m, scale => (m, scale)
  | excess + 1, m, scale =>
      if m / 10 = 0 then (0, 0)
      else dropDigits excess (tenth m) (scale - 1)

/- Take digits off the fraction down to fifty-two bits. -/
def dropPrecision : Nat → Nat → Nat × Nat
  | m, 0 => (m, 0)
  | m, scale + 1 =>
      if 0x10000000000000 ≤ m then dropPrecision (tenth m) scale
      else (m, scale + 1)

/- A mantissa times a power of two as a decimal. -/
def ofDyadic?
    (negative : Bool)
    (significand : Nat)
    (exponent : Int) : Option Decimal96 := do
  let (m, ten) ←
    if exponent < 0 then
      some (clearHalves (-exponent).toNat significand exponent)
    else clearTwos? exponent.toNat significand exponent
  let m ← clearTens? ten.toNat m
  let scale := (-ten).toNat
  let (m, scale) := dropDigits (scale - maxScale) m scale
  let (m, scale) := dropPrecision m scale
  return stripZeros negative m scale

/- The decimal of a floating-point number, if it has one. -/
def ofBinary64? : Binary64 → Option Decimal96
  | .finite negative significand exponent _ =>
      if significand = 0 then some ⟨negative, 0, 0⟩
      else ofDyadic? negative significand exponent
  | _ => none

------------------------------------------------------------
-- To Floating-Point Numbers
------------------------------------------------------------

/-
  A power of a floating-point number by repeated squaring,
  starting from `acc`; `steps` bounds the bits of the exponent.
-/
def power
    (steps : Nat)
    (acc base : Binary64)
    (n : Nat) : Binary64 :=
  match steps with
  | 0 => acc
  | steps + 1 =>
      let acc := if n % 2 = 1 then acc.mul base else acc
      if n / 2 = 0 then acc
      else power steps acc (base.mul base) (n / 2)

/-
  The floating-point number of a decimal.  Whole part and
  fraction are converted on their own and added, and the sum is
  rounded to as many digits as the scale has.
-/
def toBinary64
    (d : Decimal96) : Binary64 :=
  let signed (x : Binary64) : Binary64 :=
    if d.negative then x.neg else x
  if d.scale = 0 then
    if d.mantissa = 0 then Binary64.zero false
    else signed (Binary64.ofNat d.mantissa)
  else
    let p := Nat.pow 10 d.scale
    let whole := Binary64.ofNat (d.mantissa / p)
    let fraction :=
      (Binary64.ofNat (d.mantissa % p)).div (Binary64.ofNat p)
    if fraction.isZero then signed whole
    else
      let t :=
        power (d.scale + 1) (Binary64.ofNat 1)
          (Binary64.ofNat 10) d.scale
      signed
        ((((whole.add fraction).mul t).roundHalfAway).div t)

end Decimal96

end PageExpr
