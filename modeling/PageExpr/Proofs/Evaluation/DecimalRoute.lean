import PageExpr.Evaluation.Arithmetic
import PageExpr.Proofs.Evaluation.ExactArithmetic
import PageExpr.Proofs.Number.DecimalRounding

/-
  Which floating-point results are formed through decimals, and
  which of these are exact.

  The route through decimals is meant for exact results, but the
  operations on decimals round without a sign of it.  A sum or a
  difference is not examined at all; of a product only the
  scales are; and the product that tests a quotient is rounded
  itself, so that a quotient with many digits can pass.  A
  remainder is always exact.  So the decimal is exact just if
  any decimal in range is, and otherwise it is half a unit of
  its last digit away at most.

  Main declarations:
    * `Arithmetic.onRationals`
    * `Arithmetic.Admits`
    * `Arithmetic.rounds_onDecimals?`
    * `Arithmetic.Routes`, `Arithmetic.OnlyExact`
    * `Arithmetic.routes_of_lossless`
-/

namespace PageExpr

------------------------------------------------------------
-- Lossless Decimals
------------------------------------------------------------

/- Only zeros are the same number as zero. -/
theorem Binary64.isZero_of_same
    {x : Binary64}
    (h : (zero false).same x = true) :
    x.isZero = true := by
  rcases x with _ | negative | ⟨negative, significand, exponent, _⟩
  · cases h
  · cases negative <;> cases h
  · simp only [same, zero, compare?] at h
    split at h
    · cases h
    · split at h
      · rename_i hEq
        have hPow : (2 : Rat) ^ exponent ≠ 0 := by positivity
        have hMagnitude : (significand : Rat) * 2 ^ exponent = 0 := by
          cases negative <;>
            simpa [toRat, isNegative, magnitude, eq_comm] using hEq
        rw [mul_eq_zero, or_iff_left hPow, Nat.cast_eq_zero]
          at hMagnitude
        exact beq_iff_eq.2 hMagnitude
      · cases h

namespace Arithmetic

open Decimal96

/- The decimal of a number is in range. -/
theorem bounded_of_lossless?
    {n : Number}
    {d : Decimal96}
    (h : lossless? n = some d) :
    d.Bounded := by
  cases n with
  | integer n =>
      cases h
      have hFits := Integer.fits_toInt n
      refine ⟨?_, Nat.zero_le _⟩
      unfold Integer.Fits at hFits
      simp only [ofInt, bound]
      omega
  | float x =>
      rw [lossless?, Option.filter_eq_some_iff] at h
      exact (bounded_of_ofBinary64? h.1).1

/- The decimal of a number other than zero is not zero. -/
theorem mantissa_ne_zero_of_lossless?
    {n : Number}
    {d : Decimal96}
    (h : lossless? n = some d)
    (hNonzero : n.isZero = false) :
    d.mantissa ≠ 0 := by
  intro hMantissa
  cases n with
  | integer n =>
      cases h
      have hZero : n.toInt = 0 := Int.natAbs_eq_zero.1 hMantissa
      have : n = 0 := Int64.toInt_inj.1 hZero
      simp [Number.isZero, this] at hNonzero
  | float x =>
      rw [lossless?, Option.filter_eq_some_iff] at h
      have hScale := (bounded_of_ofBinary64? h.1).2 hMantissa
      have hSame := h.2
      rw [toBinary64, if_pos hScale, if_pos hMantissa] at hSame
      rw [Number.isZero, Binary64.isZero_of_same hSame] at hNonzero
      cases hNonzero

------------------------------------------------------------
-- Operations
------------------------------------------------------------

/- The exact result on rationals. -/
def onRationals
    (x y : Rat) : ArithmeticOp → Rat
  | .add => x + y
  | .subtract => x - y
  | .multiply => x * y
  | .divide => x / y
  | .modulo => remainder x y

/-
  When the operation on two decimals is accepted:
    * a sum or a difference, if it is in range
    * a product, if it is and the scales are small enough
    * a quotient, if the decimal that it is rounded to, times
      the divisor, is rounded to the dividend
    * a remainder, always
-/
def Admits
    (op : ArithmeticOp)
    (x y : Decimal96) : Prop :=
  match op with
  | .add => InRange (x.toRat + y.toRat)
  | .subtract => InRange (x.toRat - y.toRat)
  | .multiply =>
      x.scale + y.scale ≤ maxScale ∧ InRange (x.toRat * y.toRat)
  | .divide =>
      ∃ q product, x.div? y = some q ∧ q.mul? y = some product ∧
        product.toRat = x.toRat
  | .modulo => True

/- A quotient is accepted if it gives the dividend back. -/
theorem onDecimals?_divide_iff
    {x y q : Decimal96} :
    onDecimals? x y .divide = some q ↔
      x.div? y = some q ∧
        ∃ product, q.mul? y = some product ∧
          product.toRat = x.toRat := by
  rw [onDecimals?, Option.filter_eq_some_iff]
  refine and_congr_right fun _ => ?_
  cases q.mul? y with
  | none => simp
  | some product => simp [sameValue_iff]

/- A result that is accepted is rounded. -/
theorem rounds_onDecimals?
    {op : ArithmeticOp}
    {x y d : Decimal96}
    (hx : x.Bounded)
    (hy : y.Bounded)
    (hDivisor : Divides op → y.mantissa ≠ 0)
    (h : onDecimals? x y op = some d) :
    Rounds (onRationals x.toRat y.toRat op) (some d) := by
  cases op with
  | add =>
      rw [← h]
      exact rounds_add? hx hy
  | subtract =>
      rw [← h]
      exact rounds_sub? hx hy
  | multiply =>
      rw [onDecimals?] at h
      split at h
      · rw [← h]
        exact rounds_mul? x y
      · cases h
  | divide =>
      rw [← (onDecimals?_divide_iff.1 h).1]
      exact rounds_div? x (hDivisor (.inl rfl))
  | modulo =>
      rcases rem?_exact hx hy (hDivisor (.inr rfl)) with
        ⟨r, hr, hBounded, hExact⟩
      obtain rfl : r = d := Option.some.inj (hr.symm.trans h)
      exact rounds_some hBounded hExact

/- The operations that are accepted have a result. -/
theorem exists_onDecimals?_iff
    {op : ArithmeticOp}
    {x y : Decimal96}
    (hx : x.Bounded)
    (hy : y.Bounded)
    (hDivisor : Divides op → y.mantissa ≠ 0) :
    (∃ d, onDecimals? x y op = some d) ↔ Admits op x y := by
  cases op with
  | add => exact (rounds_add? hx hy).defined
  | subtract => exact (rounds_sub? hx hy).defined
  | multiply =>
      rw [onDecimals?, Admits]
      split
      · rename_i hScale
        rw [and_iff_right hScale]
        exact (rounds_mul? x y).defined
      · rename_i hScale
        refine iff_of_false ?_ fun h => hScale h.1
        rintro ⟨d, ⟨⟩⟩
  | divide =>
      simp only [onDecimals?_divide_iff, Admits, exists_and_left]
  | modulo =>
      rcases rem?_exact hx hy (hDivisor (.inr rfl)) with ⟨r, hr, -⟩
      exact iff_of_true ⟨r, hr⟩ trivial

/- An exact result is accepted, if the scales are small enough. -/
theorem admits_of_representable
    {op : ArithmeticOp}
    {x y : Decimal96}
    (hx : x.Bounded)
    (hDivisor : Divides op → y.mantissa ≠ 0)
    (hScale : op = .multiply → x.scale + y.scale ≤ maxScale)
    (h : Representable (onRationals x.toRat y.toRat op)) :
    Admits op x y := by
  cases op with
  | add => exact inRange_of_representable h
  | subtract => exact inRange_of_representable h
  | multiply => exact ⟨hScale rfl, inRange_of_representable h⟩
  | divide =>
      have hy := hDivisor (.inl rfl)
      rcases (rounds_div? x hy).exact h with ⟨q, hq, hQuotient⟩
      have hBack : q.toRat * y.toRat = x.toRat := by
        rw [hQuotient, div_mul_cancel₀]
        exact toRat_eq_zero_iff.not.2 hy
      have hDividend : Representable (q.toRat * y.toRat) :=
        ⟨x, hx, hBack.symm⟩
      rcases (rounds_mul? q y).exact hDividend with
        ⟨product, hProduct, hEq⟩
      exact ⟨q, product, hq, hProduct, hEq.trans hBack⟩
  | modulo => trivial

------------------------------------------------------------
-- Routes
------------------------------------------------------------

/-
  What the floating-point result on two numbers is, when `x` and
  `y` are their decimals and `r` is the exact result:
    * it is formed through decimals if the operation on these
      is accepted, and directly otherwise
    * the decimal is half a unit of its last digit away from the
      exact result at most
    * it is exact just if the exact result is that of a decimal
      in range, as every remainder is
    * such a result is formed through decimals, unless a product
      needs too many digits
-/
structure Routes
    (op : ArithmeticOp)
    (a b : Number)
    (x y : Decimal96)
    (r : Rat) : Prop where
  taken : (∃ d, decimal? op a b = some d) ↔ Admits op x y
  decimal : ∀ d, decimal? op a b = some d →
    floating op a b = d.toBinary64
  direct : ¬ Admits op x y →
    floating op a b = binary a.toBinary64 b.toBinary64 op
  near : ∀ d, decimal? op a b = some d →
    |d.toRat - r| * 10 ^ d.scale ≤ 1 / 2
  exact : ∀ d, decimal? op a b = some d →
    (d.toRat = r ↔ Representable r)
  remainder : op = .modulo → Representable r
  complete : Representable r →
    (op = .multiply → x.scale + y.scale ≤ maxScale) →
      Admits op x y

/-
  The route is taken for exact results only: what is formed
  through decimals is exact, and what is not a decimal in range
  is the result of the floating-point operation.
-/
def OnlyExact
    (op : ArithmeticOp)
    (a b : Number)
    (r : Rat) : Prop :=
  (∀ d, decimal? op a b = some d → d.toRat = r) ∧
    (¬ Representable r →
      floating op a b = binary a.toBinary64 b.toBinary64 op)

/- An operation with a decimal result is that on the decimals. -/
theorem decimal?_of_lossless
    {a b : Number}
    {x y : Decimal96}
    (op : ArithmeticOp)
    (hx : lossless? a = some x)
    (hy : lossless? b = some y) :
    decimal? op a b = onDecimals? x y op := by
  simp only [decimal?, hx, hy, Option.bind_eq_bind,
    Option.bind_some]

/- Without a decimal the floating-point operation is taken. -/
theorem floating_of_none
    {op : ArithmeticOp}
    {a b : Number}
    (h : ¬ ∃ d, decimal? op a b = some d) :
    floating op a b = binary a.toBinary64 b.toBinary64 op := by
  cases hDecimal : decimal? op a b with
  | none => simp only [floating, hDecimal]
  | some d => exact absurd ⟨d, hDecimal⟩ h

/- Two numbers with decimals take these routes. -/
theorem routes_of_bounded
    {op : ArithmeticOp}
    {a b : Number}
    {x y : Decimal96}
    (hDecimal : decimal? op a b = onDecimals? x y op)
    (hx : x.Bounded)
    (hy : y.Bounded)
    (hDivisor : Divides op → y.mantissa ≠ 0) :
    Routes op a b x y (onRationals x.toRat y.toRat op) where
  taken := by
    rw [hDecimal]
    exact exists_onDecimals?_iff hx hy hDivisor
  decimal := by
    intro d hd
    simp only [floating, hd]
  direct := by
    intro hNot
    apply floating_of_none
    rwa [hDecimal, exists_onDecimals?_iff hx hy hDivisor]
  near := by
    intro d hd
    rw [hDecimal] at hd
    exact (rounds_onDecimals? hx hy hDivisor hd).near d rfl
  exact := by
    intro d hd
    rw [hDecimal] at hd
    exact (rounds_onDecimals? hx hy hDivisor hd).toRat_eq_iff
  remainder := by
    rintro rfl
    rcases rem?_exact hx hy (hDivisor (.inr rfl)) with
      ⟨r, -, hBounded, hExact⟩
    exact ⟨r, hBounded, hExact⟩
  complete := fun hExact hScale =>
    admits_of_representable hx hDivisor hScale hExact

/-
  If no operation that is accepted has to round, then only exact
  results take the route through decimals.
-/
theorem Routes.onlyExact
    {op : ArithmeticOp}
    {a b : Number}
    {x y : Decimal96}
    {r : Rat}
    (h : Routes op a b x y r)
    (hExact : Admits op x y → Representable r) :
    OnlyExact op a b r := by
  constructor
  · intro d hd
    exact (h.exact d hd).2 (hExact (h.taken.1 ⟨d, hd⟩))
  · exact fun hNot => h.direct fun hAdmits => hNot (hExact hAdmits)

/-
  Two numbers with decimals take the routes above.  Only exact
  results take the one through decimals, apart from operations
  that are accepted although they have to round.
-/
theorem routes_of_lossless
    {op : ArithmeticOp}
    {a b : Number}
    {x y : Decimal96}
    (hx : lossless? a = some x)
    (hy : lossless? b = some y)
    (hDivisor : Divides op → b.isZero = false) :
    Routes op a b x y (onRationals x.toRat y.toRat op) ∧
      ((Admits op x y →
          Representable (onRationals x.toRat y.toRat op)) →
        OnlyExact op a b (onRationals x.toRat y.toRat op)) := by
  have hRoutes :=
    routes_of_bounded (decimal?_of_lossless op hx hy)
      (bounded_of_lossless? hx) (bounded_of_lossless? hy)
      fun h => mantissa_ne_zero_of_lossless? hy (hDivisor h)
  exact ⟨hRoutes, hRoutes.onlyExact⟩

/- Three quarters by one quarter are three. -/
theorem routes_of_lossless_quarters :
    OnlyExact .divide
      (.float (Binary64.ofDecimal false 75 (-2)))
      (.float (Binary64.ofDecimal false 25 (-2))) 3 := by
  have hThree :
      onRationals (toRat ⟨false, 75, 2⟩) (toRat ⟨false, 25, 2⟩)
        .divide = 3 := by
    decide +kernel
  rw [← hThree]
  refine
    (routes_of_lossless (by decide +kernel) (by decide +kernel)
      fun _ => by decide +kernel).2 fun _ => ?_
  rw [hThree]
  exact ⟨⟨false, 3, 0⟩, ⟨by decide, by decide⟩, by decide +kernel⟩

/-
  Six tenths by nine tenths are two thirds, which are no
  decimal.  But two thirds with twenty-eight digits, times nine
  tenths, are rounded to six tenths, and so the result is not
  that of the floating-point operation.
-/
theorem inexact_divide_tenths :
    ∃ x y d,
      lossless? (.float (Binary64.ofDecimal false 6 (-1))) = some x ∧
      lossless? (.float (Binary64.ofDecimal false 9 (-1))) = some y ∧
      decimal? .divide
        (.float (Binary64.ofDecimal false 6 (-1)))
        (.float (Binary64.ofDecimal false 9 (-1))) = some d ∧
      d.toRat ≠ onRationals x.toRat y.toRat .divide ∧
      floating .divide
          (.float (Binary64.ofDecimal false 6 (-1)))
          (.float (Binary64.ofDecimal false 9 (-1))) ≠
        (Binary64.ofDecimal false 6 (-1)).div
          (Binary64.ofDecimal false 9 (-1)) := by
  refine ⟨⟨false, 6, 1⟩, ⟨false, 9, 1⟩,
    ⟨false, 6666666666666666666666666667, 28⟩, ?_⟩
  decide +kernel

end Arithmetic

end PageExpr
