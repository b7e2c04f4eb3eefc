import Mathlib.Data.Rat.Floor
import PageExpr.Proofs.Number.DecimalRange
import PageExpr.Proofs.Number.Rounding

/-
  Rounding of the operations on decimals.

  Each operation has an exact result, a rational.  If a decimal
  in range has this value, then the operation gives it, and
  otherwise it gives a decimal half a unit of its last digit
  away at most, without any sign that it is not exact.  There is
  no decimal at all only for a magnitude beyond the greatest
  mantissa.

  Main declarations:
    * `Decimal96.signed`
    * `Decimal96.Representable`, `Decimal96.InRange`
    * `Decimal96.Rounds`
    * `Decimal96.rounds_fitRatio?`
    * `Decimal96.rounds_add?`, `Decimal96.rounds_sub?`
    * `Decimal96.rounds_mul?`, `Decimal96.rounds_div?`
    * `Decimal96.sameValue_iff`
    * `Decimal96.remainder`, `Decimal96.rem?_exact`
-/

namespace PageExpr

namespace Decimal96

------------------------------------------------------------
-- Signs and Magnitudes
------------------------------------------------------------

/- A magnitude with a sign. -/
def signed
    (negative : Bool)
    (q : Rat) : Rat :=
  if negative then -q else q

/- The value is the signed magnitude. -/
theorem toRat_eq_signed
    (d : Decimal96) :
    d.toRat = signed d.negative (d.mantissa / 10 ^ d.scale) :=
  rfl

@[simp] theorem abs_signed
    (negative : Bool)
    (q : Rat) :
    |signed negative q| = |q| := by
  cases negative
  · rfl
  · exact abs_neg q

@[simp] theorem signed_zero
    (negative : Bool) :
    signed negative 0 = 0 := by
  cases negative
  · rfl
  · exact neg_zero

@[simp] theorem signed_not
    (negative : Bool)
    (q : Rat) :
    signed (!negative) q = -signed negative q := by
  cases negative
  · rfl
  · exact (neg_neg q).symm

/- Magnitudes of one sign are added. -/
theorem signed_add
    (negative : Bool)
    (p q : Rat) :
    signed negative (p + q) =
      signed negative p + signed negative q := by
  cases negative
  · rfl
  · exact neg_add p q

/- They are subtracted as well. -/
theorem signed_sub
    (negative : Bool)
    (p q : Rat) :
    signed negative (p - q) =
      signed negative p - signed negative q := by
  cases negative
  · rfl
  · exact neg_sub' p q

/- The signs of two factors are put together. -/
theorem signed_mul_signed
    (s t : Bool)
    (p q : Rat) :
    signed s p * signed t q = signed (s != t) (p * q) := by
  cases s <;> cases t <;> simp [signed]

/- So are the signs of a dividend and a divisor. -/
theorem signed_div_signed
    (s t : Bool)
    (p q : Rat) :
    signed s p / signed t q = signed (s != t) (p / q) := by
  cases s <;> cases t <;> simp [signed, neg_div, div_neg]

/- Magnitudes are equal if the signed numbers are. -/
theorem magnitude_eq
    {s t : Bool}
    {p q : Rat}
    (hp : 0 ≤ p)
    (hq : 0 ≤ q)
    (h : signed s p = signed t q) :
    p = q := by
  have hAbs := congrArg abs h
  rwa [abs_signed, abs_signed, abs_of_nonneg hp,
    abs_of_nonneg hq] at hAbs

/- The value can be read off at any larger scale. -/
theorem toRat_eq_mantissaAt
    {d : Decimal96}
    {s : Nat}
    (h : d.scale ≤ s) :
    d.toRat = signed d.negative (d.mantissaAt s / 10 ^ s) := by
  rw [toRat_eq_signed]
  congr 1
  rw [mantissaAt, Nat.pow_eq, Nat.cast_mul, Nat.cast_pow,
    Nat.cast_ofNat, div_eq_div_iff (by positivity) (by positivity),
    mul_assoc, ← pow_add, Nat.sub_add_cancel h]

/- At its own scale a decimal has its own mantissa. -/
theorem mantissaAt_scale
    (d : Decimal96) :
    d.mantissaAt d.scale = d.mantissa := by
  rw [mantissaAt, Nat.sub_self, Nat.pow_eq, pow_zero, mul_one]

/- A mantissa of zero stands for zero. -/
theorem toRat_eq_zero_iff
    {d : Decimal96} :
    d.toRat = 0 ↔ d.mantissa = 0 := by
  have hPow : (10 : Rat) ^ d.scale ≠ 0 := by positivity
  rw [← abs_eq_zero, toRat_eq_signed, abs_signed, abs_eq_zero,
    div_eq_zero_iff, or_iff_left hPow, Nat.cast_eq_zero]

/- The other sign stands for the opposite value. -/
theorem toRat_neg
    (d : Decimal96) :
    d.neg.toRat = -d.toRat := by
  unfold neg
  split
  · rename_i h
    rw [toRat_eq_zero_iff.2 h, neg_zero]
  · exact signed_not d.negative _

------------------------------------------------------------
-- Rounded Results
------------------------------------------------------------

/- A rational that a decimal in range stands for. -/
def Representable
    (q : Rat) : Prop :=
  ∃ d : Decimal96, d.Bounded ∧ d.toRat = q

/-
  A rational that is rounded to a whole number below the bound:
  it is less than the bound by more than a half.
-/
def InRange
    (q : Rat) : Prop :=
  |q| < bound - 1 / 2

/-
  What it means that an operation with the exact result `q` is
  rounded.  There is a decimal if the result is in range.  It is
  half a unit of its last digit away at most, and it is exact if
  any decimal is.
-/
structure Rounds
    (q : Rat)
    (result : Option Decimal96) : Prop where
  bounded : ∀ d ∈ result, d.Bounded
  near : ∀ d ∈ result, |d.toRat - q| * 10 ^ d.scale ≤ 1 / 2
  exact : Representable q → ∃ d ∈ result, d.toRat = q
  defined : (∃ d, d ∈ result) ↔ InRange q

/- A representable number is in range. -/
theorem inRange_of_representable
    {q : Rat}
    (h : Representable q) :
    InRange q := by
  rcases h with ⟨d, hd, rfl⟩
  have hMantissa : (d.mantissa : Rat) ≤ bound - 1 := by
    rw [le_sub_iff_add_le]
    exact_mod_cast hd.mantissa
  rw [InRange, toRat_eq_signed, abs_signed,
    abs_of_nonneg (by positivity)]
  calc (d.mantissa : Rat) / 10 ^ d.scale
      ≤ d.mantissa :=
        div_le_self (by positivity) (one_le_pow₀ (by norm_num))
    _ < bound - 1 / 2 := by linarith

/- A decimal in range is the rounded result of its value. -/
theorem rounds_some
    {d : Decimal96}
    {q : Rat}
    (h : d.Bounded)
    (hEq : d.toRat = q) :
    Rounds q (some d) where
  bounded := by
    rintro e ⟨⟩
    exact h
  near := by
    rintro e ⟨⟩
    rw [hEq, sub_self, abs_zero, zero_mul]
    norm_num
  exact := fun _ => ⟨d, rfl, hEq⟩
  defined :=
    iff_of_true ⟨d, rfl⟩ (inRange_of_representable ⟨d, h, hEq⟩)

/- A decimal is exact just if the result is representable. -/
theorem Rounds.toRat_eq_iff
    {q : Rat}
    {d : Decimal96}
    (h : Rounds q (some d)) :
    d.toRat = q ↔ Representable q := by
  constructor
  · intro hEq
    exact ⟨d, h.bounded d rfl, hEq⟩
  · intro hq
    rcases h.exact hq with ⟨e, ⟨⟩, hEq⟩
    exact hEq

/- A rounded result can be shortened. -/
theorem Rounds.shorten
    {q : Rat}
    {result : Option Decimal96}
    {f : Decimal96 → Decimal96}
    (h : Rounds q result)
    (hShort : ∀ d, Shortens d (f d)) :
    Rounds q (result.map f) := by
  cases result with
  | none => exact h
  | some d =>
      have hd := hShort d
      refine ⟨?_, ?_, ?_, ?_⟩
      · rintro e ⟨⟩
        exact (h.bounded d rfl).shortens hd
      · rintro e ⟨⟩
        have hPow : (10 : Rat) ^ (f d).scale ≤ 10 ^ d.scale :=
          pow_le_pow_right₀ (by norm_num) hd.scale
        rw [hd.toRat]
        exact (mul_le_mul_of_nonneg_left hPow (abs_nonneg _)).trans
          (h.near d rfl)
      · intro hq
        rcases h.exact hq with ⟨e, ⟨⟩, hEq⟩
        exact ⟨f d, rfl, hd.toRat.trans hEq⟩
      · rw [← h.defined]
        exact iff_of_true ⟨f d, rfl⟩ ⟨d, rfl⟩

------------------------------------------------------------
-- Fitting
------------------------------------------------------------

/- The result is the rounded quotient at some scale. -/
theorem fitRatio?_eq_some
    {negative : Bool}
    {n d s : Nat}
    {r : Decimal96}
    (h : fitRatio? negative n d s = some r) :
    ∃ t ≤ s,
      r = ⟨negative, Binary64.nearestEven (n * 10 ^ t) d, t⟩ ∧
        r.mantissa < bound := by
  induction s with
  | zero =>
      simp only [fitRatio?] at h
      split at h
      · rename_i hFits
        cases h
        exact ⟨0, le_rfl, by rw [pow_zero, mul_one], hFits⟩
      · cases h
  | succ s ih =>
      simp only [fitRatio?] at h
      split at h
      · rename_i hFits
        cases h
        exact ⟨s + 1, le_rfl, rfl, hFits⟩
      · rcases ih h with ⟨t, ht, hr⟩
        exact ⟨t, ht.trans s.le_succ, hr⟩

/- A scale at which the rounded quotient fits is not passed. -/
theorem exists_fitRatio?
    {n d s t : Nat}
    (negative : Bool)
    (ht : t ≤ s)
    (hFits : Binary64.nearestEven (n * 10 ^ t) d < bound) :
    ∃ r, fitRatio? negative n d s = some r ∧ t ≤ r.scale := by
  induction s with
  | zero =>
      obtain rfl := Nat.le_zero.1 ht
      rw [pow_zero, mul_one] at hFits
      exact ⟨_, if_pos hFits, le_rfl⟩
  | succ s ih =>
      by_cases hNext :
        Binary64.nearestEven (n * 10 ^ (s + 1)) d < bound
      · exact ⟨_, if_pos hNext, ht⟩
      · have hBelow : t ≤ s := by
          refine Nat.le_of_lt_succ (lt_of_le_of_ne ht ?_)
          rintro rfl
          exact hNext hFits
        rcases ih hBelow with ⟨r, hr, hScale⟩
        exact ⟨r, (if_neg hNext).trans hr, hScale⟩

/- A quotient without further digits is found as it is. -/
theorem fitRatio?_of_digits
    {n d s t i : Nat}
    (negative : Bool)
    (hd : 0 < d)
    (ht : t ≤ s)
    (hi : i < bound)
    (hDigits : n * 10 ^ t = i * d) :
    ∃ r, fitRatio? negative n d s = some r ∧
      r.toRat = signed negative (n / d) := by
  have hFits : Binary64.nearestEven (n * 10 ^ t) d < bound := by
    rwa [hDigits, Binary64.nearestEven_mul i hd]
  rcases exists_fitRatio? negative ht hFits with ⟨r, hr, hScale⟩
  refine ⟨r, hr, ?_⟩
  rcases fitRatio?_eq_some hr with ⟨u, -, rfl, -⟩
  change t ≤ u at hScale
  have hLarger : n * 10 ^ u = i * 10 ^ (u - t) * d := by
    calc n * 10 ^ u
        = n * 10 ^ t * 10 ^ (u - t) := by
          rw [mul_assoc, ← pow_add, Nat.add_sub_cancel' hScale]
      _ = i * 10 ^ (u - t) * d := by
          rw [hDigits, mul_right_comm]
  have hPos : (d : Rat) ≠ 0 := by exact_mod_cast hd.ne'
  rw [toRat_eq_signed, hLarger, Binary64.nearestEven_mul _ hd]
  congr 1
  rw [div_eq_div_iff (by positivity) hPos]
  exact_mod_cast hLarger.symm

/-
  A representable quotient has no further digits at some scale
  that is tried, if all scales are tried or there are no more
  digits at the largest one.
-/
theorem digits_of_representable
    {negative : Bool}
    {n d s : Nat}
    (hd : 0 < d)
    (hAll : s = maxScale ∨ d ∣ n * 10 ^ s)
    (h : Representable (signed negative (n / d))) :
    ∃ t ≤ s, ∃ i < bound, n * 10 ^ t = i * d := by
  rcases h with ⟨e, he, hEq⟩
  have hDigits : n * 10 ^ e.scale = e.mantissa * d := by
    have hPos : (d : Rat) ≠ 0 := by exact_mod_cast hd.ne'
    have hMagnitude :=
      magnitude_eq (by positivity) (by positivity) hEq
    rw [div_eq_div_iff (by positivity) hPos] at hMagnitude
    exact_mod_cast hMagnitude.symm
  rcases Nat.le_or_le e.scale s with hLess | hMore
  · exact ⟨e.scale, hLess, e.mantissa, he.mantissa, hDigits⟩
  · rcases hAll with rfl | ⟨i, hi⟩
    · exact ⟨e.scale, he.scale, e.mantissa, he.mantissa, hDigits⟩
    · -- The mantissa at the smaller scale is smaller.
      have hMul : i * 10 ^ (e.scale - s) = e.mantissa := by
        apply Nat.eq_of_mul_eq_mul_right hd
        calc i * 10 ^ (e.scale - s) * d
            = n * 10 ^ s * 10 ^ (e.scale - s) := by
              rw [hi, mul_comm d, mul_right_comm]
          _ = e.mantissa * d := by
              rw [mul_assoc, ← pow_add, Nat.add_sub_cancel' hMore,
                hDigits]
      have hSmall : i ≤ e.mantissa := by
        rw [← hMul]
        exact Nat.le_mul_of_pos_right i (by positivity)
      exact ⟨s, le_rfl, i, lt_of_le_of_lt hSmall he.mantissa,
        by rw [hi, mul_comm]⟩

/-
  A quotient is rounded, if all scales are tried or there are no
  more digits at the largest one.
-/
theorem rounds_fitRatio?
    {n d s : Nat}
    (negative : Bool)
    (hd : 0 < d)
    (hs : s ≤ maxScale)
    (hAll : s = maxScale ∨ d ∣ n * 10 ^ s) :
    Rounds (signed negative (n / d))
      (fitRatio? negative n d s) where
  bounded := by
    intro r hr
    rcases fitRatio?_eq_some hr with ⟨t, ht, rfl, hMantissa⟩
    exact ⟨hMantissa, ht.trans hs⟩
  near := by
    intro r hr
    rcases fitRatio?_eq_some hr with ⟨t, -, rfl, -⟩
    have hPow : (0 : Rat) < 10 ^ t := by positivity
    calc |toRat ⟨negative, Binary64.nearestEven (n * 10 ^ t) d, t⟩ -
              signed negative (n / d)| * 10 ^ t
        = |(Binary64.nearestEven (n * 10 ^ t) d : Rat) / 10 ^ t -
              n / d| * 10 ^ t := by
          rw [toRat_eq_signed, ← signed_sub, abs_signed]
      _ = |(Binary64.nearestEven (n * 10 ^ t) d : Rat) -
              (n * 10 ^ t : Nat) / d| := by
          rw [← abs_of_pos hPow, ← abs_mul, abs_of_pos hPow, sub_mul,
            div_mul_cancel₀ _ hPow.ne', Nat.cast_mul, Nat.cast_pow,
            Nat.cast_ofNat, div_mul_eq_mul_div]
      _ ≤ 1 / 2 := Binary64.abs_nearestEven_sub_le _ hd
  exact := by
    intro hQuotient
    rcases digits_of_representable hd hAll hQuotient with
      ⟨t, ht, i, hi, hDigits⟩
    exact fitRatio?_of_digits negative hd ht hi hDigits
  defined := by
    have hMagnitude :
        |signed negative ((n : Rat) / d)| = n / d := by
      rw [abs_signed, abs_of_nonneg (by positivity)]
    have hFits :
        ∀ t, Binary64.nearestEven (n * 10 ^ t) d < bound ↔
          (n : Rat) / d * 10 ^ t < bound - 1 / 2 := by
      intro t
      rw [Binary64.nearestEven_lt_iff hd (by decide), Nat.cast_mul,
        Nat.cast_pow, Nat.cast_ofNat, div_mul_eq_mul_div]
    rw [InRange, hMagnitude]
    constructor
    · rintro ⟨r, hr⟩
      rcases fitRatio?_eq_some hr with ⟨t, -, rfl, hMantissa⟩
      refine lt_of_le_of_lt ?_ ((hFits t).1 hMantissa)
      exact le_mul_of_one_le_right (by positivity)
        (one_le_pow₀ (by norm_num))
    · intro h
      have hWhole : Binary64.nearestEven (n * 10 ^ 0) d < bound := by
        rwa [hFits, pow_zero, mul_one]
      rcases exists_fitRatio? negative s.zero_le hWhole with
        ⟨r, hr, -⟩
      exact ⟨r, hr⟩

/- A mantissa and a scale are rounded. -/
theorem rounds_fit?
    (negative : Bool)
    (m s : Nat) :
    Rounds (signed negative (m / 10 ^ s)) (fit? negative m s) := by
  have hRounds :=
    rounds_fitRatio? (n := m) (d := 10 ^ s) (s := min s maxScale)
      negative (by positivity) (min_le_right _ _) (by
        rcases Nat.le_or_le s maxScale with h | h
        · rw [min_eq_left h]
          exact .inr (Nat.dvd_mul_left _ _)
        · exact .inl (min_eq_right h))
  rwa [Nat.cast_pow, Nat.cast_ofNat] at hRounds

------------------------------------------------------------
-- Sums and Products
------------------------------------------------------------

/- Aligned magnitudes with different signs are subtracted. -/
theorem signed_add_of_ne
    {s t : Bool}
    (p q : Rat)
    (h : s ≠ t) :
    signed s p + signed t q = signed s (p - q) := by
  obtain rfl : t = !s := by
    cases s <;> cases t <;> simp_all
  rw [signed_not, signed_sub, sub_eq_add_neg]

/- The sum of two mantissas at one scale is rounded. -/
theorem rounds_aligned
    (s t : Bool)
    (m n k : Nat) :
    Rounds (signed s (m / 10 ^ k) + signed t (n / 10 ^ k))
      (if s = t then fit? s (m + n) k
      else if n < m then fit? s (m - n) k
      else if m < n then fit? t (n - m) k
      else fit? false 0 k) := by
  by_cases hSign : s = t
  · rw [if_pos hSign, ← hSign, ← signed_add, ← add_div,
      ← Nat.cast_add]
    exact rounds_fit? s (m + n) k
  · rw [if_neg hSign]
    rcases Nat.lt_trichotomy m n with hLess | rfl | hMore
    · rw [if_neg hLess.asymm, if_pos hLess, add_comm,
        signed_add_of_ne _ _ (Ne.symm hSign), ← sub_div,
        ← Nat.cast_sub hLess.le]
      exact rounds_fit? t (n - m) k
    · rw [if_neg (lt_irrefl m), if_neg (lt_irrefl m),
        signed_add_of_ne _ _ hSign, sub_self, signed_zero]
      have hZero := rounds_fit? false 0 k
      rwa [Nat.cast_zero, zero_div, signed_zero] at hZero
    · rw [if_pos hMore, signed_add_of_ne _ _ hSign, ← sub_div,
        ← Nat.cast_sub hMore.le]
      exact rounds_fit? s (m - n) k

/- A sum is rounded. -/
theorem rounds_add?
    {a b : Decimal96}
    (ha : a.Bounded)
    (hb : b.Bounded) :
    Rounds (a.toRat + b.toRat) (a.add? b) := by
  unfold add?
  split
  · rename_i hZero
    rw [toRat_eq_zero_iff.2 hZero, zero_add]
    exact rounds_some hb rfl
  · split
    · rename_i hZero
      rw [toRat_eq_zero_iff.2 hZero, add_zero]
      exact rounds_some ha rfl
    · rw [toRat_eq_mantissaAt (le_max_left a.scale b.scale),
        toRat_eq_mantissaAt (le_max_right a.scale b.scale)]
      exact rounds_aligned _ _ _ _ _

/- A difference is rounded. -/
theorem rounds_sub?
    {a b : Decimal96}
    (ha : a.Bounded)
    (hb : b.Bounded) :
    Rounds (a.toRat - b.toRat) (a.sub? b) := by
  rw [sub_eq_add_neg, ← toRat_neg]
  exact rounds_add? ha hb.neg

/- A product is rounded. -/
theorem rounds_mul?
    (a b : Decimal96) :
    Rounds (a.toRat * b.toRat) (a.mul? b) := by
  by_cases hZero : a.mantissa = 0 ∨ b.mantissa = 0
  · have hProduct : a.toRat * b.toRat = 0 := by
      rwa [mul_eq_zero, toRat_eq_zero_iff, toRat_eq_zero_iff]
    rw [mul?, if_pos (by simpa using hZero), hProduct]
    exact rounds_some bounded_zero (toRat_eq_zero_iff.2 rfl)
  · rw [mul?, if_neg (by simpa using hZero), toRat_eq_signed a,
      toRat_eq_signed b, signed_mul_signed, div_mul_div_comm,
      ← pow_add, ← Nat.cast_mul]
    exact rounds_fit? _ _ _

/- Equality of decimals is that of their values. -/
theorem sameValue_iff
    {a b : Decimal96} :
    a.sameValue b = true ↔ a.toRat = b.toRat := by
  rw [toRat_eq_mantissaAt (le_max_left a.scale b.scale),
    toRat_eq_mantissaAt (le_max_right a.scale b.scale)]
  have hMantissa :
      a.mantissaAt (max a.scale b.scale) = 0 ↔ a.mantissa = 0 := by
    simp [mantissaAt]
  simp only [sameValue, Bool.and_eq_true, Bool.or_eq_true,
    beq_iff_eq, ← hMantissa]
  generalize a.mantissaAt (max a.scale b.scale) = m
  generalize b.mantissaAt (max a.scale b.scale) = n
  have hPow : (10 : Rat) ^ max a.scale b.scale ≠ 0 := by positivity
  constructor
  · rintro ⟨rfl, hSign | rfl⟩
    · rw [hSign]
    · rw [Nat.cast_zero, zero_div, signed_zero, signed_zero]
  · intro h
    have hEq := magnitude_eq (by positivity) (by positivity) h
    rw [div_left_inj' hPow, Nat.cast_inj] at hEq
    subst hEq
    refine ⟨rfl, or_iff_not_imp_left.2 fun hSign => ?_⟩
    -- Opposite numbers are equal only if they are zero.
    have hSum := signed_add_of_ne (m / 10 ^ max a.scale b.scale)
      (m / 10 ^ max a.scale b.scale) hSign
    rw [← h, sub_self, signed_zero, add_self_eq_zero] at hSum
    have hAbs := abs_eq_zero.2 hSum
    rwa [abs_signed, abs_eq_zero, div_eq_zero_iff,
      or_iff_left hPow, Nat.cast_eq_zero] at hAbs

------------------------------------------------------------
-- Quotients
------------------------------------------------------------

/-
  A long division takes all digits or leaves no more of them.
-/
theorem quotientScale_spec
    (a b : Decimal96) :
    a.quotientScale b ≤ maxScale ∧
      (a.quotientScale b = maxScale ∨
        b.mantissa * 10 ^ a.scale ∣
          a.mantissa * 10 ^ b.scale *
            10 ^ a.quotientScale b) := by
  simp only [quotientScale]
  split
  · rename_i blocks hEnds
    refine ⟨min_le_right _ _, ?_⟩
    rcases Nat.le_or_le (a.scale + 9 * blocks - b.scale) maxScale
      with h | h
    · rw [min_eq_left h]
      right
      have hDivides := List.find?_some hEnds
      rw [beq_iff_eq, mantissaAt, Nat.pow_eq,
        Nat.add_sub_cancel_left] at hDivides
      rcases Nat.dvd_of_mod_eq_zero hDivides with ⟨c, hc⟩
      obtain ⟨e, he⟩ :
          ∃ e, b.scale + (a.scale + 9 * blocks - b.scale) =
            9 * blocks + a.scale + e :=
        ⟨b.scale - (a.scale + 9 * blocks), by omega⟩
      refine ⟨c * 10 ^ e, ?_⟩
      rw [mul_assoc, ← pow_add, he, pow_add, pow_add, ← mul_assoc,
        ← mul_assoc, hc]
      ring
    · exact .inl (min_eq_right h)
  · exact ⟨le_rfl, .inl rfl⟩

/- A quotient is rounded. -/
theorem rounds_div?
    {b : Decimal96}
    (a : Decimal96)
    (hb : b.mantissa ≠ 0) :
    Rounds (a.toRat / b.toRat) (a.div? b) := by
  by_cases haZero : a.mantissa = 0
  · rw [div?, if_neg hb, if_pos haZero, toRat_eq_zero_iff.2 haZero,
      zero_div]
    exact rounds_some bounded_zero (toRat_eq_zero_iff.2 rfl)
  · rw [div?, if_neg hb, if_neg haZero]
    rcases quotientScale_spec a b with ⟨hScale, hAll⟩
    have hQuotient :
        a.toRat / b.toRat =
          signed (a.negative != b.negative)
            ((a.mantissa * 10 ^ b.scale : Nat) /
              (b.mantissa * 10 ^ a.scale : Nat)) := by
      rw [toRat_eq_signed a, toRat_eq_signed b, signed_div_signed,
        div_div_div_eq]
      push_cast
      rw [mul_comm ((10 : Rat) ^ a.scale)]
    rw [hQuotient]
    refine (rounds_fitRatio? _ ?_ hScale hAll).shorten shortens_trim
    have hPos := Nat.pos_of_ne_zero hb
    positivity

------------------------------------------------------------
-- Remainders
------------------------------------------------------------

/- The whole number towards zero. -/
def truncated
    (q : Rat) : Int :=
  if 0 ≤ q then ⌊q⌋ else ⌈q⌉

/- What the truncated division of two rationals leaves. -/
def remainder
    (x y : Rat) : Rat :=
  x - y * truncated (x / y)

/- The quotient of the magnitudes is truncated. -/
theorem truncated_signed
    (negative : Bool)
    (m n : Nat) :
    (truncated (signed negative (m / n)) : Rat) =
      signed negative (m / n : Nat) := by
  have hNonneg : (0 : Rat) ≤ m / n := by positivity
  have hFloor : (⌊(m : Rat) / n⌋ : Rat) = (m / n : Nat) := by
    rw [Rat.floor_natCast_div_natCast, ← Int.natCast_ediv,
      Int.cast_natCast]
  cases negative with
  | false =>
      change (truncated (m / n) : Rat) = (m / n : Nat)
      rw [truncated, if_pos hNonneg, hFloor]
  | true =>
      change (truncated (-(m / n)) : Rat) = -(m / n : Nat)
      rw [← hFloor, truncated]
      split
      · rename_i hNegative
        have hZero : (m : Rat) / n = 0 :=
          le_antisymm (neg_nonneg.1 hNegative) hNonneg
        rw [hZero, neg_zero, Int.floor_zero, Int.cast_zero, neg_zero]
      · rw [Int.ceil_neg, Int.cast_neg]

/- The remainder of aligned decimals is that of the mantissas. -/
theorem remainder_aligned
    (s t : Bool)
    (m n k : Nat) :
    remainder (signed s (m / 10 ^ k)) (signed t (n / 10 ^ k)) =
      signed s ((m % n : Nat) / 10 ^ k) := by
  have hPow : (10 : Rat) ^ k ≠ 0 := by positivity
  have hSign : (t != (s != t)) = s := by
    cases s <;> cases t <;> rfl
  have hSplit : (m : Rat) = n * (m / n : Nat) + (m % n : Nat) := by
    exact_mod_cast (Nat.div_add_mod m n).symm
  rw [remainder, signed_div_signed, div_div_div_cancel_right₀ hPow,
    truncated_signed, signed_mul_signed, hSign, ← signed_sub]
  congr 1
  rw [div_mul_eq_mul_div, ← sub_div]
  congr 1
  rw [sub_eq_iff_eq_add', ← hSplit]

/-
  The larger scale is that of the dividend or of the divisor,
  and the remainder is not more than either mantissa.
-/
theorem mod_mantissaAt_lt
    {a b : Decimal96}
    (ha : a.Bounded)
    (hb : b.Bounded)
    (hNonzero : b.mantissa ≠ 0) :
    a.mantissaAt (max a.scale b.scale) %
        b.mantissaAt (max a.scale b.scale) < bound := by
  rcases Nat.le_total a.scale b.scale with h | h
  · rw [max_eq_right h, mantissaAt_scale]
    exact (Nat.mod_lt _ (Nat.pos_of_ne_zero hNonzero)).trans
      hb.mantissa
  · rw [max_eq_left h, mantissaAt_scale]
    exact lt_of_le_of_lt (Nat.mod_le _ _) ha.mantissa

/- A remainder is exact. -/
theorem rem?_exact
    {a b : Decimal96}
    (ha : a.Bounded)
    (hb : b.Bounded)
    (hNonzero : b.mantissa ≠ 0) :
    ∃ d, a.rem? b = some d ∧ d.Bounded ∧
      d.toRat = remainder a.toRat b.toRat := by
  have hMod := mod_mantissaAt_lt ha hb hNonzero
  have hScale : max a.scale b.scale ≤ maxScale :=
    max_le ha.scale hb.scale
  have hZero : zero.toRat = 0 := toRat_eq_zero_iff.2 rfl
  unfold rem?
  rw [if_neg hNonzero]
  split
  · rename_i haZero
    refine ⟨zero, rfl, bounded_zero, ?_⟩
    rw [toRat_eq_zero_iff.2 haZero, hZero, remainder, zero_div]
    simp [truncated]
  · rw [toRat_eq_mantissaAt (le_max_left a.scale b.scale),
      toRat_eq_mantissaAt (le_max_right a.scale b.scale),
      remainder_aligned]
    simp only
    split
    · rename_i hLess
      refine ⟨a, rfl, ha, ?_⟩
      rw [Nat.mod_eq_of_lt hLess]
      exact toRat_eq_mantissaAt (le_max_left _ _)
    · split
      · rename_i hDivides
        refine ⟨zero, rfl, bounded_zero, ?_⟩
        rw [hDivides, hZero, Nat.cast_zero, zero_div, signed_zero]
      · exact ⟨_, rfl, ⟨hMod, hScale⟩, rfl⟩

end Decimal96

end PageExpr
