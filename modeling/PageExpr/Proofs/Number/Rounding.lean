import Mathlib.Algebra.Order.Field.Power
import Mathlib.Data.Nat.Log
import Mathlib.Data.Rat.Cast.Order
import Mathlib.Tactic.FieldSimp
import Mathlib.Tactic.Linarith
import Mathlib.Tactic.NormNum
import Mathlib.Tactic.Positivity
import Mathlib.Tactic.Ring
import PageExpr.Number.Shortest

/-
  Rounding to double precision: numbers that have a
  representation are rounded to it, and numbers beyond both
  ends of the range are rounded to an infinity and to zero.

  Main declarations:
    * `Binary64.log2Floor_spec`
    * `Binary64.abs_nearestEven_sub_le`
    * `Binary64.nearestEven_lt_iff`
    * `Binary64.roundRatio_of_eq`
    * `Binary64.round_of_canonical`
    * `Binary64.round_eq_infinity`
    * `Binary64.round_eq_zero`
    * `Binary64.isZero_ofInt`
    * `Binary64.ofDecimal_eq_round`
-/

namespace PageExpr

namespace Binary64

------------------------------------------------------------
-- Powers of Two
------------------------------------------------------------

/- Shifting both sides stands for one power of two. -/
theorem shiftLeft_le_shiftLeft_iff
    {n d : Nat}
    (k : Int)
    (hd : d ≠ 0) :
    d <<< k.toNat ≤ n <<< (-k).toNat ↔
      (2 : Rat) ^ k ≤ (n : Rat) / d := by
  have hPos : (0 : Rat) < d := by
    exact_mod_cast Nat.pos_of_ne_zero hd
  have hPow : (0 : Rat) < 2 ^ (-k).toNat := by positivity
  have hSplit :
      (2 : Rat) ^ k * 2 ^ (-k).toNat = 2 ^ k.toNat := by
    rw [← zpow_natCast, ← zpow_natCast,
      ← zpow_add₀ (by norm_num : (2 : Rat) ≠ 0)]
    congr 1
    omega
  rw [Nat.shiftLeft_eq, Nat.shiftLeft_eq, le_div_iff₀ hPos,
    ← mul_le_mul_iff_left₀ hPow, mul_right_comm, hSplit, mul_comm]
  norm_cast

/- A natural number lies between two powers of two. -/
theorem two_pow_log2_le
    {n : Nat}
    (hn : n ≠ 0) :
    (2 : Rat) ^ (n.log2 : Int) ≤ n ∧
      (n : Rat) < 2 ^ ((n.log2 : Int) + 1) := by
  have hLower := Nat.log2_self_le hn
  have hUpper := Nat.lt_log2_self (n := n)
  constructor
  · exact_mod_cast hLower
  · exact_mod_cast hUpper

/- The greatest power of two that is at most a quotient. -/
theorem log2Floor_spec
    {n d : Nat}
    (hn : n ≠ 0)
    (hd : d ≠ 0) :
    (2 : Rat) ^ log2Floor n d ≤ (n : Rat) / d ∧
      (n : Rat) / d < 2 ^ (log2Floor n d + 1) := by
  have hPos : (0 : Rat) < d := by
    exact_mod_cast Nat.pos_of_ne_zero hd
  rcases two_pow_log2_le hn with ⟨hnLower, hnUpper⟩
  rcases two_pow_log2_le hd with ⟨hdLower, hdUpper⟩
  have hTwo : (2 : Rat) ≠ 0 := by norm_num
  unfold log2Floor
  simp only [shiftLeft_le_shiftLeft_iff _ hd]
  split
  · rename_i hLower
    refine ⟨hLower, ?_⟩
    rw [div_lt_iff₀ hPos]
    calc (n : Rat)
        < 2 ^ ((n.log2 : Int) + 1) := hnUpper
      _ = 2 ^ ((n.log2 : Int) - d.log2 + 1) * 2 ^ (d.log2 : Int) := by
          rw [← zpow_add₀ hTwo]
          congr 1
          omega
      _ ≤ 2 ^ ((n.log2 : Int) - d.log2 + 1) * d := by
          gcongr
  · rename_i hLower
    rw [sub_add_cancel]
    refine ⟨?_, lt_of_not_ge hLower⟩
    rw [le_div_iff₀ hPos]
    calc (2 : Rat) ^ ((n.log2 : Int) - d.log2 - 1) * d
        ≤ 2 ^ ((n.log2 : Int) - d.log2 - 1) *
            2 ^ ((d.log2 : Int) + 1) := by
          gcongr
      _ = 2 ^ (n.log2 : Int) := by
          rw [← zpow_add₀ hTwo]
          congr 1
          omega
      _ ≤ n := hnLower

/- A quotient at or above a power of two has its logarithm. -/
theorem le_log2Floor
    {n d : Nat}
    {k : Int}
    (hn : n ≠ 0)
    (hd : d ≠ 0)
    (h : (2 : Rat) ^ k ≤ (n : Rat) / d) :
    k ≤ log2Floor n d := by
  have hUpper := (log2Floor_spec hn hd).2
  have hPow := lt_of_le_of_lt h hUpper
  have hLt := (zpow_lt_zpow_iff_right₀ (by norm_num)).1 hPow
  omega

/- A quotient below a power of two has a smaller logarithm. -/
theorem log2Floor_lt
    {n d : Nat}
    {k : Int}
    (hn : n ≠ 0)
    (hd : d ≠ 0)
    (h : (n : Rat) / d < 2 ^ k) :
    log2Floor n d < k := by
  have hLower := (log2Floor_spec hn hd).1
  exact (zpow_lt_zpow_iff_right₀ (by norm_num)).1
    (lt_of_le_of_lt hLower h)

------------------------------------------------------------
-- Whole Numbers
------------------------------------------------------------

/-
  A quotient is rounded down if at most a half remains, and to
  an even number if it is just a half.
-/
theorem nearestEven_cases
    (n d : Nat) :
    (nearestEven n d = n / d ∧ 2 * (n % d) ≤ d ∧
      (2 * (n % d) = d → n / d % 2 = 0)) ∨
    (nearestEven n d = n / d + 1 ∧ d ≤ 2 * (n % d) ∧
      (2 * (n % d) = d → n / d % 2 = 1)) := by
  simp only [nearestEven]
  split
  · omega
  · split <;> omega

/- A quotient is at most half a unit from the rounded one. -/
theorem abs_nearestEven_sub_le
    {d : Nat}
    (n : Nat)
    (hd : 0 < d) :
    |(nearestEven n d : Rat) - n / d| ≤ 1 / 2 := by
  have hSplit := Nat.div_add_mod' n d
  have hSmall := Nat.mod_lt n hd
  have hNear :
      2 * (nearestEven n d * d) ≤ 2 * n + d ∧
        2 * n ≤ 2 * (nearestEven n d * d) + d := by
    rcases nearestEven_cases n d with
      ⟨hEq, hHalf, -⟩ | ⟨hEq, hHalf, -⟩
    · rw [hEq]
      omega
    · rw [hEq, Nat.add_mul, Nat.one_mul]
      omega
  have hPos : (0 : Rat) < d := by exact_mod_cast hd
  have hAbove :
      (2 : Rat) * (nearestEven n d * d) ≤ 2 * n + d := by
    exact_mod_cast hNear.1
  have hBelow :
      (2 : Rat) * n ≤ 2 * (nearestEven n d * d) + d := by
    exact_mod_cast hNear.2
  rw [abs_le, neg_le_sub_iff_le_add, sub_le_iff_le_add]
  constructor
  · rw [div_le_iff₀ hPos]
    linarith
  · rw [← sub_le_iff_le_add', le_div_iff₀ hPos]
    linarith

/-
  A quotient is rounded to less than an even number if it is
  less by more than a half, for the tie below it goes up.
-/
theorem nearestEven_lt_iff
    {n d b : Nat}
    (hd : 0 < d)
    (hb : b % 2 = 0) :
    nearestEven n d < b ↔ (n : Rat) / d < b - 1 / 2 := by
  have hSplit := Nat.div_add_mod' n d
  have hSmall := Nat.mod_lt n hd
  have hLess : n / d + 2 ≤ b → n / d * d + 2 * d ≤ b * d := by
    intro h
    rw [← Nat.add_mul]
    exact Nat.mul_le_mul_right d h
  have hNext : n / d + 1 = b → n / d * d + d = b * d := by
    rintro rfl
    rw [Nat.add_mul, Nat.one_mul]
  have hMore : b ≤ n / d → b * d ≤ n / d * d :=
    Nat.mul_le_mul_right d
  have hWhole :
      nearestEven n d < b ↔ 2 * n + d < 2 * (b * d) := by
    rcases nearestEven_cases n d with
      ⟨hEq, hHalf, hTie⟩ | ⟨hEq, hHalf, hTie⟩
    · rw [hEq]
      omega
    · rw [hEq]
      omega
  have hPos : (0 : Rat) < d := by exact_mod_cast hd
  rw [hWhole, div_lt_iff₀ hPos, ← Nat.cast_lt (α := Rat)]
  push_cast
  constructor <;> intro h <;> linarith

------------------------------------------------------------
-- Representable Numbers
------------------------------------------------------------

/- An exact quotient needs no rounding. -/
theorem nearestEven_mul
    {d : Nat}
    (significand : Nat)
    (hd : 0 < d) :
    nearestEven (significand * d) d = significand := by
  simp [nearestEven, Nat.mul_div_cancel _ hd, hd]

/- A canonical significand and exponent are packed as they are. -/
theorem pack_of_canonical
    {significand : Nat}
    {exponent : Int}
    (negative : Bool)
    (h : Canonical significand exponent) :
    pack negative significand exponent =
      .finite negative significand exponent h :=
  dif_pos h

/- The exponent of a representable quotient is found. -/
theorem exponent_of_eq
    {n d significand : Nat}
    {exponent : Int}
    (hn : n ≠ 0)
    (hd : d ≠ 0)
    (h : Canonical significand exponent)
    (hEq : (n : Rat) / d = significand * 2 ^ exponent) :
    max (-1074) (log2Floor n d - 52) = exponent := by
  rcases h with ⟨hUpper, hLeast, -, hLower⟩
  have hTwo : (2 : Rat) ≠ 0 := by norm_num
  have hPow : (0 : Rat) < 2 ^ exponent := by positivity
  have hBelow : log2Floor n d < exponent + 53 := by
    apply log2Floor_lt hn hd
    rw [hEq, add_comm, zpow_add₀ hTwo, mul_lt_mul_iff_left₀ hPow]
    exact_mod_cast hUpper
  rcases hLower with hLower | rfl
  · have hAbove : exponent + 52 ≤ log2Floor n d := by
      apply le_log2Floor hn hd
      rw [hEq, add_comm, zpow_add₀ hTwo, mul_le_mul_iff_left₀ hPow]
      exact_mod_cast hLower
    omega
  · omega

/- A representable quotient is rounded to its representation. -/
theorem roundRatio_of_eq
    {n d significand : Nat}
    {exponent : Int}
    (negative : Bool)
    (hn : n ≠ 0)
    (hd : d ≠ 0)
    (h : Canonical significand exponent)
    (hEq : (n : Rat) / d = significand * 2 ^ exponent) :
    roundRatio negative n d =
      .finite negative significand exponent h := by
  have hPos : (d : Rat) ≠ 0 := by exact_mod_cast hd
  have hTwo : (2 : Rat) ≠ 0 := by norm_num
  have hSplit :
      (2 : Rat) ^ exponent * 2 ^ (-exponent).toNat =
        2 ^ exponent.toNat := by
    rw [← zpow_natCast, ← zpow_natCast, ← zpow_add₀ hTwo]
    congr 1
    omega
  have hScaled :
      n <<< (-exponent).toNat =
        significand * (d <<< exponent.toNat) := by
    rw [Nat.shiftLeft_eq, Nat.shiftLeft_eq]
    have hRat :
        (n : Rat) * 2 ^ (-exponent).toNat =
          significand * (d * 2 ^ exponent.toNat) := by
      rw [div_eq_iff hPos] at hEq
      rw [hEq, ← hSplit]
      ring
    exact_mod_cast hRat
  have hShift : 0 < d <<< exponent.toNat := by
    rw [Nat.shiftLeft_eq]
    positivity
  unfold roundRatio
  simp only [exponent_of_eq hn hd h hEq, hScaled,
    nearestEven_mul significand hShift]
  rw [if_neg (Nat.ne_of_lt h.1)]
  exact pack_of_canonical negative h

------------------------------------------------------------
-- Signs
------------------------------------------------------------

/- The sign is not involved in rounding a magnitude. -/
theorem roundRatio_negative
    {n d significand : Nat}
    {exponent : Int}
    {h : Canonical significand exponent}
    (negative : Bool)
    (hFinite :
      roundRatio false n d = .finite false significand exponent h) :
    roundRatio negative n d =
      .finite negative significand exponent h := by
  have hPack :
      ∀ (m : Nat) (k : Int),
        pack false m k = .finite false significand exponent h →
          pack negative m k =
            .finite negative significand exponent h := by
    intro m k hPacked
    unfold pack at hPacked ⊢
    split at hPacked
    · cases hPacked
      exact dif_pos h
    · cases hPacked
  unfold roundRatio at hFinite ⊢
  simp only at hFinite ⊢
  split at hFinite
  · rename_i hCarry
    rw [if_pos hCarry]
    exact hPack _ _ hFinite
  · rename_i hCarry
    rw [if_neg hCarry]
    exact hPack _ _ hFinite

/- Rounding a number other than zero with a sign. -/
theorem round_of_pos
    {q : Rat}
    (zeroSign negative : Bool)
    (hq : 0 < q) :
    round zeroSign (if negative then -q else q) =
      roundRatio negative q.num.natAbs q.den := by
  have hNe : q ≠ 0 := ne_of_gt hq
  cases negative with
  | false =>
      have hNot : ¬ q < 0 := not_lt.2 hq.le
      simp [round, hNe, hNot]
  | true => simp [round, hNe, hq]

/- The parts of a positive number. -/
theorem natAbs_num_div_den
    {q : Rat}
    (hq : 0 < q) :
    q.num.natAbs ≠ 0 ∧ q.den ≠ 0 ∧
      ((q.num.natAbs : Nat) : Rat) / q.den = q := by
  have hNum : 0 < q.num := Rat.num_pos.2 hq
  refine ⟨by omega, q.den_nz, ?_⟩
  have hCast : ((q.num.natAbs : Nat) : Rat) = (q.num : Rat) := by
    rw [← Int.cast_natCast, Int.natAbs_of_nonneg hNum.le]
  rw [hCast]
  exact Rat.num_div_den q

/- A number with a canonical form is rounded to it. -/
theorem round_of_canonical
    {significand : Nat}
    {exponent : Int}
    (zeroSign negative : Bool)
    (h : Canonical significand exponent)
    (hNonzero : significand ≠ 0) :
    round zeroSign
        (if negative then
          -((significand : Rat) * (2 : Rat) ^ exponent)
        else (significand : Rat) * (2 : Rat) ^ exponent) =
      .finite negative significand exponent h := by
  have hPos : (0 : Rat) < significand * 2 ^ exponent := by
    have hCast : (0 : Rat) < significand := by
      exact_mod_cast Nat.pos_of_ne_zero hNonzero
    positivity
  rcases natAbs_num_div_den hPos with ⟨hNum, hDen, hEq⟩
  rw [round_of_pos zeroSign negative hPos]
  exact roundRatio_of_eq negative hNum hDen h hEq

/- A rounded magnitude is a number with the given sign. -/
theorem roundRatio_sign
    (negative : Bool)
    (n d : Nat) :
    (roundRatio negative n d).isNan = false ∧
      (roundRatio negative n d).isNegative = negative := by
  have hPack :
      ∀ (m : Nat) (k : Int),
        (pack negative m k).isNan = false ∧
          (pack negative m k).isNegative = negative := by
    intro m k
    unfold pack
    split <;> exact ⟨rfl, rfl⟩
  unfold roundRatio
  simp only
  split <;> exact hPack _ _

/- A decimal is read as a number with the sign of the decimal. -/
theorem ofDecimal_sign
    (negative : Bool)
    (digits : Nat)
    (exponent : Int) :
    (ofDecimal negative digits exponent).isNan = false ∧
      (ofDecimal negative digits exponent).isNegative =
        negative := by
  unfold ofDecimal
  split
  · exact ⟨rfl, rfl⟩
  · rename_i hDigits
    split
    · exact ⟨rfl, rfl⟩
    · split
      · exact ⟨rfl, rfl⟩
      · have hCast : (0 : Rat) < digits := by
          exact_mod_cast Nat.pos_of_ne_zero hDigits
        have hPos : (0 : Rat) < digits * 10 ^ exponent := by
          positivity
        simp only
        rw [round_of_pos negative negative hPos]
        exact roundRatio_sign negative _ _

------------------------------------------------------------
-- Both Ends of the Range
------------------------------------------------------------

/- Beyond the greatest exponent there are only infinities. -/
theorem pack_of_lt
    {significand : Nat}
    {exponent : Int}
    (negative : Bool)
    (h : 971 < exponent) :
    pack negative significand exponent = .infinity negative := by
  have hNot : ¬ Canonical significand exponent := by
    rintro ⟨-, -, hMost, -⟩
    omega
  exact dif_neg hNot

/- Numbers from the next power of two on become infinite. -/
theorem round_eq_infinity
    {q : Rat}
    (zeroSign negative : Bool)
    (h : (2 : Rat) ^ (1024 : Int) ≤ q) :
    round zeroSign (if negative then -q else q) =
      .infinity negative := by
  have hPos : 0 < q := lt_of_lt_of_le (by positivity) h
  rcases natAbs_num_div_den hPos with ⟨hNum, hDen, hEq⟩
  rw [round_of_pos zeroSign negative hPos]
  rw [← hEq] at h
  have hLog := le_log2Floor hNum hDen h
  unfold roundRatio
  simp only
  split <;> exact pack_of_lt negative (by omega)

/- A fraction below a half is rounded to zero. -/
theorem nearestEven_eq_zero
    {numerator denominator : Nat}
    (h : 2 * numerator < denominator) :
    nearestEven numerator denominator = 0 := by
  have hLt : numerator < denominator := by omega
  simp only [nearestEven, Nat.div_eq_of_lt hLt, Nat.mod_eq_of_lt hLt]
  exact if_pos h

/- Numbers below half the least one become zero. -/
theorem round_eq_zero
    {q : Rat}
    (zeroSign negative : Bool)
    (hPos : 0 < q)
    (h : q < (2 : Rat) ^ (-1075 : Int)) :
    round zeroSign (if negative then -q else q) =
      zero negative := by
  rcases natAbs_num_div_den hPos with ⟨hNum, hDen, hEq⟩
  rw [round_of_pos zeroSign negative hPos]
  rw [← hEq] at h
  have hLog := log2Floor_lt hNum hDen h
  have hExponent :
      max (-1074) (log2Floor q.num.natAbs q.den - 52) = -1074 := by
    omega
  have hSmall : 2 * (q.num.natAbs * 2 ^ 1074) < q.den := by
    have hDenPos : (0 : Rat) < q.den := by
      exact_mod_cast Nat.pos_of_ne_zero hDen
    rw [div_lt_iff₀ hDenPos, zpow_neg, ← div_eq_inv_mul,
      lt_div_iff₀ (by positivity)] at h
    have hCast :
        (2 : Rat) * (q.num.natAbs * 2 ^ 1074) < q.den := by
      calc (2 : Rat) * (q.num.natAbs * 2 ^ 1074)
          = q.num.natAbs * 2 ^ (1075 : Int) := by
            rw [show (1075 : Int) = ((1074 + 1 : Nat) : Int) from rfl,
              zpow_natCast, pow_succ (2 : Rat) 1074, mul_left_comm,
              mul_comm (2 : Rat)]
        _ < q.den := h
    exact_mod_cast hCast
  unfold roundRatio
  simp only [hExponent]
  have hShift :
      nearestEven
          (q.num.natAbs <<< (-(-1074) : Int).toNat)
          (q.den <<< (-1074 : Int).toNat) = 0 :=
    nearestEven_eq_zero
      (lt_of_eq_of_lt
        (congrArg (2 * ·) (Nat.shiftLeft_eq _ _)) hSmall)
  rw [hShift, if_neg (by decide)]
  exact pack_of_canonical negative (by decide)

/- A quotient of at least one is not rounded to zero. -/
theorem nearestEven_ne_zero
    {numerator denominator : Nat}
    (hPos : 0 < denominator)
    (h : denominator ≤ numerator) :
    nearestEven numerator denominator ≠ 0 := by
  have hQuotient : 0 < numerator / denominator :=
    Nat.div_pos h hPos
  simp only [nearestEven]
  split
  · omega
  · split <;> omega

/- A significand other than zero does not make zero. -/
theorem isZero_pack
    {significand : Nat}
    (negative : Bool)
    (exponent : Int)
    (h : significand ≠ 0) :
    (pack negative significand exponent).isZero = false := by
  unfold pack
  split
  · exact beq_eq_false_iff_ne.2 h
  · rfl

/- Numbers from the least one on do not become zero. -/
theorem isZero_roundRatio
    {n d : Nat}
    (negative : Bool)
    (hn : n ≠ 0)
    (hd : d ≠ 0)
    (h : (2 : Rat) ^ (-1074 : Int) ≤ (n : Rat) / d) :
    (roundRatio negative n d).isZero = false := by
  have hLog := le_log2Floor hn hd h
  have hExponent :
      max (-1074) (log2Floor n d - 52) ≤ log2Floor n d := by
    omega
  have hAtLeast :
      (2 : Rat) ^ max (-1074) (log2Floor n d - 52) ≤ (n : Rat) / d :=
    (zpow_le_zpow_right₀ (by norm_num) hExponent).trans
      (log2Floor_spec hn hd).1
  have hShift := (shiftLeft_le_shiftLeft_iff _ hd).2 hAtLeast
  have hDenominator :
      0 < d <<< (max (-1074) (log2Floor n d - 52)).toNat := by
    rw [Nat.shiftLeft_eq]
    positivity
  unfold roundRatio
  simp only
  split
  · exact isZero_pack negative _ (by decide)
  · exact isZero_pack negative _
      (nearestEven_ne_zero hDenominator hShift)

/- Of the integers only zero is rounded to zero. -/
theorem isZero_ofInt
    (n : Int) :
    (ofInt n).isZero = true ↔ n = 0 := by
  constructor
  · intro hZero
    by_contra hNe
    have hAtLeast :
        (2 : Rat) ^ (-1074 : Int) ≤ (n.natAbs : Rat) / (1 : Nat) := by
      rw [Nat.cast_one, div_one]
      calc (2 : Rat) ^ (-1074 : Int)
          ≤ 1 := zpow_le_one_of_nonpos₀ (by norm_num) (by norm_num)
        _ ≤ n.natAbs := by
            exact_mod_cast Nat.one_le_iff_ne_zero.2
              (Int.natAbs_ne_zero.2 hNe)
    have hRound :
        ofInt n = roundRatio ((n : Rat) < 0) n.natAbs 1 :=
      if_neg (by exact_mod_cast hNe)
    rw [hRound, isZero_roundRatio _ (Int.natAbs_ne_zero.2 hNe)
      one_ne_zero hAtLeast] at hZero
    cases hZero
  · rintro rfl
    rfl

------------------------------------------------------------
-- Decimals
------------------------------------------------------------

/- A decimal is the nearest number; both shortcuts agree. -/
theorem ofDecimal_eq_round
    {digits : Nat}
    (negative : Bool)
    (exponent : Int)
    (hDigits : digits ≠ 0) :
    ofDecimal negative digits exponent =
      round negative
        (if negative then
          -((digits : Rat) * (10 : Rat) ^ exponent)
        else (digits : Rat) * (10 : Rat) ^ exponent) := by
  have hTen : (10 : Rat) ≠ 0 := by norm_num
  have hOne : (1 : Rat) ≤ digits := by
    exact_mod_cast Nat.one_le_iff_ne_zero.2 hDigits
  have hPow : (0 : Rat) < 10 ^ exponent := by positivity
  unfold ofDecimal
  rw [if_neg hDigits]
  split
  · rename_i hLarge
    symm
    apply round_eq_infinity
    calc (2 : Rat) ^ (1024 : Int)
        ≤ 10 ^ (309 : Int) := by
          have hNat : 2 ^ 1024 ≤ 10 ^ 309 := by decide +kernel
          exact_mod_cast hNat
      _ ≤ 10 ^ exponent := by
          apply zpow_le_zpow_right₀ (by norm_num) hLarge
      _ ≤ digits * 10 ^ exponent :=
          le_mul_of_one_le_left hPow.le hOne
  · split
    · rename_i hSmall
      symm
      apply round_eq_zero
      · positivity
      · have hUpper := (two_pow_log2_le hDigits).2
        calc (digits : Rat) * 10 ^ exponent
            < 2 ^ ((digits.log2 : Int) + 1) * 10 ^ exponent := by
              gcongr
          _ ≤ 10 ^ ((digits.log2 : Int) + 1) * 10 ^ exponent := by
              gcongr
              exact zpow_le_zpow_left₀ (by omega) (by norm_num)
                (by norm_num)
          _ = 10 ^ (exponent + digits.log2 + 1) := by
              rw [← zpow_add₀ hTen]
              congr 1
              omega
          _ ≤ 10 ^ (-324 : Int) := by
              apply zpow_le_zpow_right₀ (by norm_num) hSmall
          _ < 2 ^ (-1075 : Int) := by
              have hNat : 2 ^ 1075 < 10 ^ 324 := by decide +kernel
              rw [zpow_neg, zpow_neg]
              apply inv_strictAnti₀ (by positivity)
              exact_mod_cast hNat
    · rfl

end Binary64

end PageExpr
