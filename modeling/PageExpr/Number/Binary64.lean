import PageExpr.Number.Integer

/-
  Binary floating-point numbers of double precision.

  A finite number is a sign, a whole significand and a power
  of two, in the one canonical way.  Each operation is carried
  out exactly on rational numbers and then rounded once, to
  the nearest number with ties to the even significand.

  Main declarations:
    * `Binary64`
    * `Binary64.toRat`
    * `Binary64.round`
    * `Binary64.add`, `Binary64.sub`, `Binary64.mul`
    * `Binary64.div`, `Binary64.rem`
    * `Binary64.compare?`
    * `Binary64.ofDecimal`
    * `Binary64.toBits`, `Binary64.ofBits`
-/

namespace PageExpr

------------------------------------------------------------
-- Numbers
------------------------------------------------------------

/-
  A significand has at most fifty-three bits and uses all of
  them, unless the exponent is already the least one.
-/
def Binary64.Canonical
    (significand : Nat)
    (exponent : Int) : Prop :=
  significand < 0x20000000000000 ∧
    -1074 ≤ exponent ∧ exponent ≤ 971 ∧
      (0x10000000000000 ≤ significand ∨ exponent = -1074)

instance
    (significand : Nat)
    (exponent : Int) :
    Decidable (Binary64.Canonical significand exponent) := by
  unfold Binary64.Canonical
  infer_instance

/-
  A double-precision number.  All values that are not numbers
  are one value.
-/
inductive Binary64 where
  | nan
  | infinity (negative : Bool)
  | finite
      (negative : Bool)
      (significand : Nat)
      (exponent : Int)
      (canonical : Binary64.Canonical significand exponent)
deriving DecidableEq

namespace Binary64

/- The zero of the given sign. -/
def zero
    (negative : Bool) : Binary64 :=
  .finite negative 0 (-1074) (by decide)

/- Is the sign bit set? -/
def isNegative : Binary64 → Bool
  | .nan => false
  | .infinity negative => negative
  | .finite negative _ _ _ => negative

/- Is it no number at all? -/
def isNan : Binary64 → Bool
  | .nan => true
  | _ => false

/- Is it neither `nan` nor an infinity? -/
def isFinite : Binary64 → Bool
  | .finite .. => true
  | _ => false

/- Is the number one of the two zeros? -/
def isZero : Binary64 → Bool
  | .finite _ significand _ _ => significand == 0
  | _ => false

/- The magnitude of a finite number, and zero otherwise. -/
def magnitude : Binary64 → Rat
  | .finite _ significand exponent _ =>
      significand * (2 : Rat) ^ exponent
  | _ => 0

/- The value of a finite number, and zero otherwise. -/
def toRat
    (x : Binary64) : Rat :=
  if x.isNegative then -x.magnitude else x.magnitude

/- The number with the other sign. -/
def neg : Binary64 → Binary64
  | .nan => .nan
  | .infinity negative => .infinity (!negative)
  | .finite negative significand exponent canonical =>
      .finite (!negative) significand exponent canonical

------------------------------------------------------------
-- Rounding
------------------------------------------------------------

/- The quotient rounded to the nearest, ties to even. -/
def nearestEven
    (n d : Nat) : Nat :=
  let q := n / d
  let r := n % d
  if 2 * r < d then q
  else if d < 2 * r then q + 1
  else q + q % 2

/- The greatest power of two that is at most the quotient. -/
def log2Floor
    (n d : Nat) : Int :=
  let k : Int := n.log2 - d.log2
  if d <<< k.toNat ≤ n <<< (-k).toNat then k else k - 1

/-
  The number of a significand and an exponent; an infinity if
  they are out of range.
-/
def pack
    (negative : Bool)
    (significand : Nat)
    (exponent : Int) : Binary64 :=
  if h : Canonical significand exponent then
    .finite negative significand exponent h
  else
    .infinity negative

/- The number nearest to a positive quotient. -/
def roundRatio
    (negative : Bool)
    (n d : Nat) : Binary64 :=
  let exponent := max (-1074) (log2Floor n d - 52)
  let significand :=
    nearestEven (n <<< (-exponent).toNat)
      (d <<< exponent.toNat)
  if significand = 0x20000000000000 then
    pack negative 0x10000000000000 (exponent + 1)
  else
    pack negative significand exponent

/-
  The number nearest to a rational.  The sign that zero is to
  have is given beside it.
-/
def round
    (zeroSign : Bool)
    (q : Rat) : Binary64 :=
  if q = 0 then zero zeroSign
  else roundRatio (q < 0) q.num.natAbs q.den

/- The number nearest to an integer. -/
def ofInt
    (n : Int) : Binary64 :=
  round false n

/- The number nearest to a natural number. -/
def ofNat
    (n : Nat) : Binary64 :=
  round false n

/-
  The number nearest to a decimal.  A decimal from `10 ^ 309`
  on is out of range, and one below `10 ^ -324` is nearest to
  zero, so that no power of ten is taken in vain.
-/
def ofDecimal
    (negative : Bool)
    (digits : Nat)
    (exponent : Int) : Binary64 :=
  if digits = 0 then zero negative
  else if 309 ≤ exponent then .infinity negative
  else if exponent + digits.log2 + 1 ≤ -324 then zero negative
  else
    let q : Rat := digits * (10 : Rat) ^ exponent
    round negative (if negative then -q else q)

------------------------------------------------------------
-- Arithmetic
------------------------------------------------------------

/-
  The sum.  Of two zeros it is negative only if both are, and
  opposite numbers have the positive zero for their sum.
-/
def add : Binary64 → Binary64 → Binary64
  | .nan, _ => .nan
  | _, .nan => .nan
  | .infinity s, .infinity t =>
      if s = t then .infinity s else .nan
  | .infinity s, _ => .infinity s
  | _, .infinity t => .infinity t
  | x, y =>
      round (x.isNegative && y.isNegative) (x.toRat + y.toRat)

/- The difference: the sum with the opposite number. -/
def sub
    (x y : Binary64) : Binary64 :=
  x.add y.neg

/- The product.  Its sign is negative if the signs differ. -/
def mul
    (x y : Binary64) : Binary64 :=
  let negative := x.isNegative != y.isNegative
  match x, y with
  | .nan, _ => .nan
  | _, .nan => .nan
  | .infinity _, y =>
      if y.isZero then .nan else .infinity negative
  | x, .infinity _ =>
      if x.isZero then .nan else .infinity negative
  | x, y => round negative (x.toRat * y.toRat)

/- The quotient.  A zero divisor gives an infinity or `nan`. -/
def div
    (x y : Binary64) : Binary64 :=
  let negative := x.isNegative != y.isNegative
  match x, y with
  | .nan, _ => .nan
  | _, .nan => .nan
  | .infinity _, .infinity _ => .nan
  | .infinity _, _ => .infinity negative
  | _, .infinity _ => zero negative
  | x, y =>
      if y.isZero then
        if x.isZero then .nan else .infinity negative
      else
        round negative (x.toRat / y.toRat)

/-
  The remainder of the division that truncates its quotient.
  It has the sign of the dividend.
-/
def rem
    (x y : Binary64) : Binary64 :=
  match x, y with
  | .nan, _ => .nan
  | _, .nan => .nan
  | .infinity _, _ => .nan
  | x, .infinity _ => x
  | x, y =>
      if y.isZero then .nan
      else
        let q := x.toRat / y.toRat
        let whole : Int := q.num.tdiv q.den
        round x.isNegative (x.toRat - y.toRat * whole)

/- The nearest whole number, a half going away from zero. -/
def roundHalfAway
    (x : Binary64) : Binary64 :=
  match x with
  | .finite .. =>
      let whole : Rat := (x.magnitude + 1 / 2).floor
      round x.isNegative
        (if x.isNegative then -whole else whole)
  | x => x

/-
  The word nearest to the number with its fraction cut off.
  What is no number gives zero.
-/
def toInt64 : Binary64 → Int64
  | .nan => 0
  | .infinity negative =>
      if negative then Int64.minValue else Int64.maxValue
  | x => Integer.clamp (x.toRat.num.tdiv x.toRat.den)

------------------------------------------------------------
-- Order
------------------------------------------------------------

/- The order of two numbers; there is none beside `nan`. -/
def compare? : Binary64 → Binary64 → Option Ordering
  | .nan, _ => none
  | _, .nan => none
  | .infinity s, .infinity t =>
      some (if s = t then .eq else if s then .lt else .gt)
  | .infinity s, _ => some (if s then .lt else .gt)
  | _, .infinity t => some (if t then .gt else .lt)
  | x, y =>
      some
        (if x.toRat < y.toRat then .lt
        else if x.toRat = y.toRat then .eq
        else .gt)

/-
  Equality of numbers: the two zeros are equal, and `nan`
  equals nothing.
-/
def same
    (x y : Binary64) : Bool :=
  x.compare? y == some .eq

------------------------------------------------------------
-- Interchange Format
------------------------------------------------------------

/- The sixty-four bits of the interchange format. -/
def toBits : Binary64 → Nat
  | .nan => 0x7ff8000000000000
  | .infinity negative =>
      (if negative then 0x8000000000000000 else 0) +
        0x7ff0000000000000
  | .finite negative significand exponent _ =>
      let biased :=
        if significand < 0x10000000000000 then 0
        else (exponent + 1075).toNat
      (if negative then 0x8000000000000000 else 0) +
        biased * 0x10000000000000 +
          significand % 0x10000000000000

/- The number with the given bits. -/
def ofBits
    (bits : Nat) : Binary64 :=
  let negative := 0x8000000000000000 ≤ bits
  let biased : Nat := bits / 0x10000000000000 % 0x800
  let fraction := bits % 0x10000000000000
  if biased = 0x7ff then
    if fraction = 0 then .infinity negative else .nan
  else if biased = 0 then
    pack negative fraction (-1074)
  else
    pack negative (0x10000000000000 + fraction)
      ((biased : Int) - 1075)

end Binary64

end PageExpr
