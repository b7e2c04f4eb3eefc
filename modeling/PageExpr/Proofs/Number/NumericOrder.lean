import Mathlib.Data.Prod.Lex
import Mathlib.Order.Compare
import PageExpr.Number.Number
import PageExpr.Proofs.Number.Rounding

/-
  The order of numbers.

  All floating-point numbers but `nan` have a rank in a linear
  order, and their comparison is that of the ranks.  Rounding
  keeps the order of rational numbers, so that whole numbers that
  are compared as floating-point numbers may become equal, but do
  not change places.  The comparison of whole and floating-point
  numbers among each other is therefore coherent.

  Main declarations:
    * `Binary64.nearestEven_mono`
    * `Binary64.rank`
    * `Binary64.compare?_eq_cmp`, `Binary64.same_iff`
    * `Binary64.rank_round`
    * `Binary64.rank_round_mono`
    * `Number.compare?_swap`
    * `Number.compare?_self`
    * `Number.compare?_eq_none_iff`
    * `Number.compare?_trans`
-/

namespace PageExpr

namespace Binary64

------------------------------------------------------------
-- Rounding to Whole Numbers
------------------------------------------------------------

/- A quotient that is expanded is rounded as before. -/
theorem nearestEven_expand
    (n d : Nat)
    {e : Nat}
    (he : 0 < e) :
    nearestEven (n * e) (d * e) = nearestEven n d := by
  have hDown : 2 * (n % d * e) < d * e ↔ 2 * (n % d) < d := by
    rw [← Nat.mul_assoc, Nat.mul_lt_mul_right he]
  have hUp : d * e < 2 * (n % d * e) ↔ d < 2 * (n % d) := by
    rw [← Nat.mul_assoc, Nat.mul_lt_mul_right he]
  simp only [nearestEven, Nat.mul_div_mul_right n d he,
    Nat.mul_mod_mul_right, hDown, hUp]

/-
  Quotients in order are rounded to whole numbers in order.  If
  the smaller one were rounded to more, then both would lie in
  the middle, and be the same.
-/
theorem nearestEven_mono
    {n d m e : Nat}
    (hd : 0 < d)
    (he : 0 < e)
    (h : (n : Rat) / d ≤ m / e) :
    nearestEven n d ≤ nearestEven m e := by
  by_contra hNot
  have hdPos : (0 : Rat) < d := by exact_mod_cast hd
  have hePos : (0 : Rat) < e := by exact_mod_cast he
  have hStep :
      (nearestEven m e : Rat) + 1 ≤ nearestEven n d := by
    exact_mod_cast Nat.succ_le_of_lt (Nat.lt_of_not_le hNot)
  have hLeft := (abs_le.1 (abs_nearestEven_sub_le n hd)).2
  have hRight := (abs_le.1 (abs_nearestEven_sub_le m he)).1
  have hSame : (n : Rat) / d = m / e := by linarith
  have hCross : n * e = m * d := by
    rw [div_eq_div_iff hdPos.ne' hePos.ne'] at hSame
    exact_mod_cast hSame
  have hRounded : nearestEven n d = nearestEven m e :=
    calc nearestEven n d
        = nearestEven (n * e) (d * e) :=
          (nearestEven_expand n d he).symm
      _ = nearestEven (m * d) (e * d) := by
          rw [hCross, Nat.mul_comm d e]
      _ = nearestEven m e := nearestEven_expand m e hd
  exact hNot hRounded.le

/- A quotient up to a whole number is rounded to no more. -/
theorem nearestEven_le
    {n d k : Nat}
    (hd : 0 < d)
    (h : (n : Rat) / d ≤ k) :
    nearestEven n d ≤ k := by
  have hMono :=
    nearestEven_mono (m := k * 1) (e := 1) hd one_pos (by simpa using h)
  rwa [nearestEven_mul k one_pos] at hMono

/- A quotient from a whole number on is rounded to no less. -/
theorem le_nearestEven
    {n d k : Nat}
    (hd : 0 < d)
    (h : (k : Rat) ≤ (n : Rat) / d) :
    k ≤ nearestEven n d := by
  have hMono :=
    nearestEven_mono (n := k * 1) (d := 1) one_pos hd (by simpa using h)
  rwa [nearestEven_mul k one_pos] at hMono

------------------------------------------------------------
-- Rounding of Magnitudes
------------------------------------------------------------

/- The power of two of the last bit that a quotient keeps. -/
def lastBit
    (n d : Nat) : Int :=
  max (-1074) (log2Floor n d - 52)

/- The significand of a quotient, before it is packed. -/
def roundedBits
    (n d : Nat) : Nat :=
  nearestEven (n <<< (-lastBit n d).toNat)
    (d <<< (lastBit n d).toNat)

/- A quotient that is rounded as if there were no greatest number. -/
def roundedRatio
    (n d : Nat) : Rat :=
  roundedBits n d * (2 : Rat) ^ lastBit n d

/- The quotient is taken in units of its last bit. -/
theorem scaled_quotient
    {d : Nat}
    (n : Nat)
    (k : Int)
    (hd : d ≠ 0) :
    ((n <<< (-k).toNat : Nat) : Rat) / (d <<< k.toNat : Nat) =
      (n : Rat) / d / 2 ^ k := by
  have hTwo : (2 : Rat) ≠ 0 := by norm_num
  have hDen : (d : Rat) ≠ 0 := by exact_mod_cast hd
  have hSplit :
      (2 : Rat) ^ k * 2 ^ (-k).toNat = 2 ^ k.toNat := by
    rw [← zpow_natCast, ← zpow_natCast, ← zpow_add₀ hTwo]
    congr 1
    omega
  rw [Nat.shiftLeft_eq, Nat.shiftLeft_eq]
  push_cast
  rw [← hSplit]
  field_simp

/- A shifted denominator is positive. -/
theorem shiftLeft_pos
    {d : Nat}
    (k : Nat)
    (hd : d ≠ 0) :
    0 < d <<< k := by
  rw [Nat.shiftLeft_eq]
  exact Nat.mul_pos (Nat.pos_of_ne_zero hd) (Nat.two_pow_pos k)

/- A significand has at most one carry. -/
theorem roundedBits_le
    {n d : Nat}
    (hn : n ≠ 0)
    (hd : d ≠ 0) :
    roundedBits n d ≤ 0x20000000000000 := by
  apply nearestEven_le (shiftLeft_pos _ hd)
  have hPow : (0 : Rat) < 2 ^ lastBit n d := by positivity
  rw [scaled_quotient n _ hd, div_le_iff₀ hPow]
  calc (n : Rat) / d
      ≤ 2 ^ (log2Floor n d + 1) := (log2Floor_spec hn hd).2.le
    _ ≤ 2 ^ ((53 : Int) + lastBit n d) := by
        apply zpow_le_zpow_right₀ (by norm_num)
        unfold lastBit
        omega
    _ = (0x20000000000000 : Nat) * 2 ^ lastBit n d := by
        rw [zpow_add₀ (by norm_num)]
        norm_num

/- Above the least exponent a significand has all its bits. -/
theorem le_roundedBits
    {n d : Nat}
    (hn : n ≠ 0)
    (hd : d ≠ 0)
    (h : -1074 < lastBit n d) :
    0x10000000000000 ≤ roundedBits n d := by
  apply le_nearestEven (shiftLeft_pos _ hd)
  have hPow : (0 : Rat) < 2 ^ lastBit n d := by positivity
  rw [scaled_quotient n _ hd, le_div_iff₀ hPow]
  calc ((0x10000000000000 : Nat) : Rat) * 2 ^ lastBit n d
      = 2 ^ ((52 : Int) + lastBit n d) := by
        rw [zpow_add₀ (by norm_num)]
        norm_num
    _ = 2 ^ log2Floor n d := by
        congr 1
        unfold lastBit at h ⊢
        omega
    _ ≤ (n : Rat) / d := (log2Floor_spec hn hd).1

/- A greater quotient does not have a smaller last bit. -/
theorem lastBit_mono
    {n d m e : Nat}
    (hn : n ≠ 0)
    (hd : d ≠ 0)
    (hm : m ≠ 0)
    (he : e ≠ 0)
    (h : (n : Rat) / d ≤ m / e) :
    lastBit n d ≤ lastBit m e := by
  have hLog : log2Floor n d ≤ log2Floor m e :=
    le_log2Floor hm he ((log2Floor_spec hn hd).1.trans h)
  unfold lastBit
  omega

/-
  Rounding keeps the order of quotients.  With one last bit this
  is the order of the significands, and else there is a power of
  two between the results.
-/
theorem roundedRatio_mono
    {n d m e : Nat}
    (hn : n ≠ 0)
    (hd : d ≠ 0)
    (hm : m ≠ 0)
    (he : e ≠ 0)
    (h : (n : Rat) / d ≤ m / e) :
    roundedRatio n d ≤ roundedRatio m e := by
  rcases (lastBit_mono hn hd hm he h).eq_or_lt with hSame | hLess
  · have hPow : (0 : Rat) < 2 ^ lastBit m e := by positivity
    have hBits : roundedBits n d ≤ roundedBits m e := by
      unfold roundedBits
      rw [hSame]
      apply nearestEven_mono (shiftLeft_pos _ hd)
        (shiftLeft_pos _ he)
      rw [scaled_quotient n _ hd, scaled_quotient m _ he]
      exact (div_le_div_iff_of_pos_right hPow).2 h
    have hCast : (roundedBits n d : Rat) ≤ roundedBits m e := by
      exact_mod_cast hBits
    unfold roundedRatio
    rw [hSame]
    exact mul_le_mul_of_nonneg_right hCast hPow.le
  · have hUpper :
        (roundedBits n d : Rat) ≤ (2 : Rat) ^ (53 : Int) := by
      exact_mod_cast roundedBits_le hn hd
    have hLeast : -1074 < lastBit m e := by
      have hBound : -1074 ≤ lastBit n d := le_max_left _ _
      omega
    have hLower :
        (2 : Rat) ^ (52 : Int) ≤ (roundedBits m e : Rat) := by
      exact_mod_cast le_roundedBits hm he hLeast
    calc roundedRatio n d
        ≤ 2 ^ (53 : Int) * 2 ^ lastBit n d :=
          mul_le_mul_of_nonneg_right hUpper (by positivity)
      _ = 2 ^ ((53 : Int) + lastBit n d) :=
          (zpow_add₀ (by norm_num) _ _).symm
      _ ≤ 2 ^ ((52 : Int) + lastBit m e) := by
          apply zpow_le_zpow_right₀ (by norm_num)
          omega
      _ = 2 ^ (52 : Int) * 2 ^ lastBit m e :=
          zpow_add₀ (by norm_num) _ _
      _ ≤ roundedRatio m e :=
          mul_le_mul_of_nonneg_right hLower (by positivity)

------------------------------------------------------------
-- Ranks
------------------------------------------------------------

/- The least magnitude that is beyond all finite numbers. -/
def limit : Rat :=
  (2 : Rat) ^ (1024 : Int)

/- The limit is positive. -/
theorem limit_pos : 0 < limit := by
  unfold limit
  positivity

/- The rank of a rational number, which may be too large. -/
def rankOfRat
    (q : Rat) : Int ×ₗ Rat :=
  if q ≤ -limit then toLex (-1, 0)
  else if q < limit then toLex (0, q)
  else toLex (1, 0)

/-
  The place of a number in the order of all numbers.  The rank
  of what is no number does not count.
-/
def rank : Binary64 → Int ×ₗ Rat
  | .nan => toLex (0, 0)
  | .infinity negative => toLex (if negative then -1 else 1, 0)
  | .finite negative significand exponent canonical =>
      toLex
        (0, (finite negative significand exponent canonical).toRat)

/- Numbers are compared by their ranks. -/
theorem compare?_eq_cmp
    {x y : Binary64}
    (hx : x.isNan = false)
    (hy : y.isNan = false) :
    x.compare? y = some (cmp x.rank y.rank) := by
  cases x with
  | nan => cases hx
  | infinity s =>
      cases y with
      | nan => cases hy
      | infinity t => cases s <;> cases t <;> rfl
      | finite t n k h =>
          cases s <;>
            simp [compare?, rank, cmp, cmpUsing,
              Prod.Lex.toLex_lt_toLex]
  | finite s n k h =>
      cases y with
      | nan => cases hy
      | infinity t =>
          cases t <;>
            simp [compare?, rank, cmp, cmpUsing,
              Prod.Lex.toLex_lt_toLex]
      | finite t m l h' =>
          simp only [compare?, rank, cmp, cmpUsing,
            Prod.Lex.toLex_lt_toLex, lt_irrefl, false_or, true_and]
          split
          · rfl
          · rename_i hNot
            by_cases hEq :
                (finite s n k h).toRat = (finite t m l h').toRat
            · rw [if_pos hEq, if_neg (not_lt.2 hEq.le)]
            · rw [if_neg hEq, if_pos (lt_of_le_of_ne (not_lt.1 hNot)
                (Ne.symm hEq))]

/- Numbers are the same if they have one rank. -/
theorem same_iff
    {x y : Binary64} :
    x.same y = true ↔
      x.isNan = false ∧ y.isNan = false ∧ x.rank = y.rank := by
  cases hx : x.isNan with
  | true =>
      cases x with
      | nan => exact iff_of_false nofun nofun
      | _ => cases hx
  | false =>
      cases hy : y.isNan with
      | true =>
          cases y with
          | nan => cases x <;> exact iff_of_false nofun nofun
          | _ => cases hy
      | false =>
          rw [same, compare?_eq_cmp hx hy, beq_iff_eq,
            Option.some.injEq, cmp_eq_eq_iff]
          exact ⟨fun h => ⟨rfl, rfl, h⟩, fun h => h.2.2⟩

------------------------------------------------------------
-- Ranks of Rounded Numbers
------------------------------------------------------------

/- Ranks of rational numbers are in the order of the numbers. -/
theorem rankOfRat_mono
    {p q : Rat}
    (h : p ≤ q) :
    rankOfRat p ≤ rankOfRat q := by
  have hLimit := limit_pos
  unfold rankOfRat
  split
  · split
    · exact le_rfl
    · split <;> exact Prod.Lex.toLex_le_toLex.2 (.inl (by norm_num))
  · rename_i hLow
    rw [if_neg (fun hq => hLow (h.trans hq))]
    split
    · split
      · exact Prod.Lex.toLex_le_toLex.2 (.inr ⟨rfl, h⟩)
      · exact Prod.Lex.toLex_le_toLex.2 (.inl (by norm_num))
    · rename_i hHigh
      rw [if_neg (fun hq => hHigh (h.trans_lt hq))]

/- A magnitude in range is its own rank, with either sign. -/
theorem rankOfRat_signed_of_lt
    {q : Rat}
    (negative : Bool)
    (hPos : 0 ≤ q)
    (h : q < limit) :
    rankOfRat (if negative then -q else q) =
      toLex (0, if negative then -q else q) := by
  have hLimit := limit_pos
  unfold rankOfRat
  cases negative with
  | false =>
      rw [if_neg Bool.false_ne_true, if_neg (by linarith), if_pos h]
  | true => rw [if_pos rfl, if_neg (by linarith), if_pos (by linarith)]

/- A magnitude out of range has the rank of an infinity. -/
theorem rankOfRat_signed_of_le
    {q : Rat}
    (negative : Bool)
    (h : limit ≤ q) :
    rankOfRat (if negative then -q else q) =
      (infinity negative).rank := by
  have hLimit := limit_pos
  unfold rankOfRat
  cases negative with
  | false =>
      rw [if_neg Bool.false_ne_true, if_neg (by linarith),
        if_neg (by linarith)]
      rfl
  | true =>
      rw [if_pos rfl, if_pos (by linarith)]
      rfl

/- A significand with all its bits is packed with its rank. -/
theorem rank_pack
    {significand : Nat}
    {exponent : Int}
    (negative : Bool)
    (hBits : significand < 0x20000000000000)
    (hLeast : -1074 ≤ exponent)
    (hFull : 0x10000000000000 ≤ significand ∨ exponent = -1074) :
    (pack negative significand exponent).rank =
      rankOfRat
        (if negative then -((significand : Rat) * 2 ^ exponent)
        else (significand : Rat) * 2 ^ exponent) := by
  have hPow : (0 : Rat) < 2 ^ exponent := by positivity
  by_cases hMost : exponent ≤ 971
  · have hCanonical : Canonical significand exponent :=
      ⟨hBits, hLeast, hMost, hFull⟩
    have hRange :
        (significand : Rat) * 2 ^ exponent < limit := by
      calc (significand : Rat) * 2 ^ exponent
          < (2 : Rat) ^ (53 : Int) * 2 ^ exponent := by
            apply mul_lt_mul_of_pos_right _ hPow
            exact_mod_cast hBits
        _ = 2 ^ ((53 : Int) + exponent) :=
            (zpow_add₀ (by norm_num) _ _).symm
        _ ≤ limit := by
            apply zpow_le_zpow_right₀ (by norm_num)
            omega
    have hNonneg : (0 : Rat) ≤ significand * 2 ^ exponent :=
      mul_nonneg (Nat.cast_nonneg significand) hPow.le
    rw [rankOfRat_signed_of_lt negative hNonneg hRange,
      pack_of_canonical negative hCanonical]
    rfl
  · have hSignificand : 0x10000000000000 ≤ significand := by omega
    have hRange :
        limit ≤ (significand : Rat) * 2 ^ exponent := by
      calc limit
          ≤ 2 ^ ((52 : Int) + exponent) := by
            apply zpow_le_zpow_right₀ (by norm_num)
            omega
        _ = 2 ^ (52 : Int) * 2 ^ exponent :=
            zpow_add₀ (by norm_num) _ _
        _ ≤ significand * 2 ^ exponent := by
            apply mul_le_mul_of_nonneg_right _ hPow.le
            exact_mod_cast hSignificand
    rw [rankOfRat_signed_of_le negative hRange,
      pack_of_lt negative (by omega)]

/- A rounded magnitude has the rank of its rounded ratio. -/
theorem rank_roundRatio
    {n d : Nat}
    (negative : Bool)
    (hn : n ≠ 0)
    (hd : d ≠ 0) :
    (roundRatio negative n d).rank =
      rankOfRat
        (if negative then -roundedRatio n d
        else roundedRatio n d) := by
  have hLeast : -1074 ≤ lastBit n d := le_max_left _ _
  have hBound := roundedBits_le hn hd
  change
    (if roundedBits n d = 0x20000000000000 then
      pack negative 0x10000000000000 (lastBit n d + 1)
    else pack negative (roundedBits n d) (lastBit n d)).rank = _
  split
  · rename_i hCarry
    have hValue :
        roundedRatio n d =
          (0x10000000000000 : Nat) * 2 ^ (lastBit n d + 1) := by
      rw [roundedRatio, hCarry, zpow_add₀ (by norm_num)]
      push_cast
      ring
    rw [hValue]
    exact rank_pack negative (by norm_num) (by omega)
      (.inl le_rfl)
  · rename_i hCarry
    apply rank_pack negative (lt_of_le_of_ne hBound hCarry) hLeast
    rcases hLeast.eq_or_lt with hSame | hMore
    · exact .inr hSame.symm
    · exact .inl (le_roundedBits hn hd hMore)

/- A rational number that is rounded as if there were no limits. -/
def roundedRat
    (q : Rat) : Rat :=
  if q < 0 then -roundedRatio q.num.natAbs q.den
  else roundedRatio q.num.natAbs q.den

/- A rounded ratio is not negative. -/
theorem roundedRatio_nonneg
    (n d : Nat) :
    0 ≤ roundedRatio n d := by
  unfold roundedRatio
  positivity

/- The magnitude of a number other than zero as a quotient. -/
theorem abs_eq_natAbs_div
    {q : Rat}
    (hq : q ≠ 0) :
    q.num.natAbs ≠ 0 ∧ q.den ≠ 0 ∧
      ((q.num.natAbs : Nat) : Rat) / q.den = |q| := by
  refine ⟨Int.natAbs_ne_zero.2 (Rat.num_ne_zero.2 hq), q.den_nz, ?_⟩
  have hDen : |(q.den : Rat)| = q.den := Nat.abs_cast _
  rw [Nat.cast_natAbs, Int.cast_abs, ← hDen, ← abs_div,
    Rat.num_div_den]

/- A rounded number has the rank of the rounded rational. -/
theorem rank_round
    (zeroSign : Bool)
    (q : Rat) :
    (round zeroSign q).rank = rankOfRat (roundedRat q) := by
  by_cases hq : q = 0
  · subst hq
    have hZero : roundedRat 0 = 0 := by
      simp [roundedRat, roundedRatio, roundedBits, nearestEven]
    have hRank := rankOfRat_signed_of_lt zeroSign le_rfl limit_pos
    simp only [neg_zero, ite_self] at hRank
    rw [hZero, hRank, round, if_pos rfl]
    simp [zero, rank, toRat, magnitude]
  · rcases abs_eq_natAbs_div hq with ⟨hNum, hDen, -⟩
    rw [round, if_neg hq, rank_roundRatio _ hNum hDen, roundedRat]
    simp only [decide_eq_true_eq]

/- Rounding keeps the order of rational numbers. -/
theorem roundedRat_mono
    {p q : Rat}
    (h : p ≤ q) :
    roundedRat p ≤ roundedRat q := by
  have hMagnitude :
      ∀ {r s : Rat}, |r| ≤ |s| →
        roundedRatio r.num.natAbs r.den ≤
          roundedRatio s.num.natAbs s.den := by
    intro r s hAbs
    by_cases hr : r = 0
    · subst hr
      simpa [roundedRatio, roundedBits, nearestEven] using
        roundedRatio_nonneg s.num.natAbs s.den
    · have hs : s ≠ 0 := by
        rintro rfl
        rw [abs_zero] at hAbs
        exact hr (abs_nonpos_iff.1 hAbs)
      rcases abs_eq_natAbs_div hr with ⟨hrNum, hrDen, hrAbs⟩
      rcases abs_eq_natAbs_div hs with ⟨hsNum, hsDen, hsAbs⟩
      rw [← hrAbs, ← hsAbs] at hAbs
      exact roundedRatio_mono hrNum hrDen hsNum hsDen hAbs
  unfold roundedRat
  split
  · rename_i hp
    split
    · rename_i hq
      apply neg_le_neg
      apply hMagnitude
      rw [abs_of_neg hp, abs_of_neg hq]
      exact neg_le_neg h
    · have hLeft := roundedRatio_nonneg p.num.natAbs p.den
      have hRight := roundedRatio_nonneg q.num.natAbs q.den
      linarith
  · rename_i hp
    have hPos := not_lt.1 hp
    rw [if_neg (not_lt.2 (hPos.trans h))]
    apply hMagnitude
    rwa [abs_of_nonneg hPos, abs_of_nonneg (hPos.trans h)]

/- Integers in order are rounded to numbers in order. -/
theorem rank_ofInt_mono
    {m n : Int}
    (h : m ≤ n) :
    (ofInt m).rank ≤ (ofInt n).rank := by
  rw [ofInt, ofInt, rank_round, rank_round]
  apply rankOfRat_mono
  apply roundedRat_mono
  exact_mod_cast h

/- A rounded integer is a number. -/
theorem isNan_ofInt
    (n : Int) :
    (ofInt n).isNan = false := by
  by_cases hZero : n = 0
  · subst hZero
    rfl
  · have hNe : (n : Rat) ≠ 0 := by exact_mod_cast hZero
    rw [ofInt, round, if_neg hNe]
    exact (roundRatio_sign _ _ _).1

/- A number between finite numbers is finite. -/
theorem isFinite_of_rank_le
    {x low high : Binary64}
    (hNumber : x.isNan = false)
    (hLow : low.isFinite = true)
    (hHigh : high.isFinite = true)
    (hAbove : low.rank ≤ x.rank)
    (hBelow : x.rank ≤ high.rank) :
    x.isFinite = true := by
  cases x with
  | nan => cases hNumber
  | finite s n k h => rfl
  | infinity s =>
      cases low with
      | finite t m l h =>
          cases high with
          | finite u i j h' =>
              cases s <;>
                simp [rank, Prod.Lex.toLex_le_toLex] at hAbove hBelow
          | _ => cases hHigh
      | _ => cases hLow

end Binary64

------------------------------------------------------------
-- Comparison
------------------------------------------------------------

namespace Number

/- Is it a floating-point number that is no number? -/
def isNan : Number → Bool
  | .integer _ => false
  | .float x => x.isNan

/- A whole number is rounded to a number. -/
theorem isNan_toBinary64
    (a : Number) :
    a.toBinary64.isNan = a.isNan := by
  cases a with
  | float x => rfl
  | integer n => exact Binary64.isNan_ofInt n.toInt

/- The rank of a number among the floating-point numbers. -/
def rank
    (a : Number) : Int ×ₗ Rat :=
  a.toBinary64.rank

/-
  Two whole numbers are compared exactly, and all others by their
  ranks.
-/
theorem compare?_cases
    {a b : Number}
    (ha : a.isNan = false)
    (hb : b.isNan = false) :
    (∃ m n, a = .integer m ∧ b = .integer n ∧
      a.compare? b = some (cmp m.toInt n.toInt)) ∨
    ((a.isFloat = true ∨ b.isFloat = true) ∧
      a.compare? b = some (cmp a.rank b.rank)) := by
  rw [← isNan_toBinary64] at ha hb
  cases a with
  | float x => exact .inr ⟨.inl rfl, Binary64.compare?_eq_cmp ha hb⟩
  | integer m =>
      cases b with
      | float y =>
          exact .inr ⟨.inr rfl, Binary64.compare?_eq_cmp ha hb⟩
      | integer n =>
          refine .inl ⟨m, n, rfl, rfl, ?_⟩
          rw [compare?, cmp_eq_compare]

/- Beside what is no number there is no order. -/
theorem compare?_eq_none_iff
    {a b : Number} :
    a.compare? b = none ↔ a.isNan = true ∨ b.isNan = true := by
  constructor
  · intro hNone
    by_contra hNot
    rw [not_or, Bool.not_eq_true, Bool.not_eq_true] at hNot
    rcases compare?_cases hNot.1 hNot.2 with
      ⟨m, n, -, -, hSome⟩ | ⟨-, hSome⟩ <;>
    · rw [hNone] at hSome
      cases hSome
  · rintro (ha | hb)
    · cases a with
      | integer m => cases ha
      | float x =>
          cases x with
          | nan => cases b <;> rfl
          | _ => cases ha
    · cases b with
      | integer n => cases hb
      | float y =>
          cases y with
          | nan =>
              rw [compare?]
              · cases a.toBinary64 <;> rfl
              · exact fun _ _ _ => nofun
          | _ => cases hb

/- Numbers that are compared are numbers. -/
theorem isNan_of_compare?
    {a b : Number}
    {order : Ordering}
    (h : a.compare? b = some order) :
    a.isNan = false ∧ b.isNan = false := by
  have hSome : ¬ (a.isNan = true ∨ b.isNan = true) := by
    rw [← compare?_eq_none_iff, h]
    exact nofun
  rwa [not_or, Bool.not_eq_true, Bool.not_eq_true] at hSome

/- The other way round the order is the opposite one. -/
theorem compare?_swap
    (a b : Number) :
    (a.compare? b).map Ordering.swap = b.compare? a := by
  by_cases hNan : a.isNan = true ∨ b.isNan = true
  · rw [compare?_eq_none_iff.2 hNan,
      compare?_eq_none_iff.2 hNan.symm]
    rfl
  · rw [not_or, Bool.not_eq_true, Bool.not_eq_true] at hNan
    rcases compare?_cases hNan.1 hNan.2 with
      ⟨m, n, rfl, rfl, hOrder⟩ | ⟨hFloat, hOrder⟩
    · rw [hOrder, Option.map_some, cmp_swap, compare?,
        cmp_eq_compare]
    · rcases compare?_cases hNan.2 hNan.1 with
        ⟨m, n, rfl, rfl, -⟩ | ⟨-, hOther⟩
      · rcases hFloat with hFloat | hFloat <;> cases hFloat
      · rw [hOrder, hOther, Option.map_some, cmp_swap]

/- A number is equal to itself. -/
theorem compare?_self
    {a : Number}
    (h : a.isNan = false) :
    a.compare? a = some .eq := by
  rcases compare?_cases h h with ⟨m, n, rfl, hSame, hOrder⟩ | ⟨-, hOrder⟩
  · cases hSame
    rw [hOrder, cmp_self_eq_eq]
  · rw [hOrder, cmp_self_eq_eq]

/-
  A number is less than another if its rank is, or if both are
  whole numbers and it is less exactly.
-/
theorem compare?_eq_lt_iff
    {a b : Number} :
    a.compare? b = some .lt ↔
      a.isNan = false ∧ b.isNan = false ∧
        (a.rank < b.rank ∨
          ∃ m n, a = .integer m ∧ b = .integer n ∧
            m.toInt < n.toInt) := by
  constructor
  · intro h
    obtain ⟨ha, hb⟩ := isNan_of_compare? h
    refine ⟨ha, hb, ?_⟩
    rcases compare?_cases ha hb with
      ⟨m, n, hm, hn, hOrder⟩ | ⟨-, hOrder⟩
    · rw [h, Option.some.injEq, eq_comm, cmp_eq_lt_iff] at hOrder
      exact .inr ⟨m, n, hm, hn, hOrder⟩
    · rw [h, Option.some.injEq, eq_comm, cmp_eq_lt_iff] at hOrder
      exact .inl hOrder
  · rintro ⟨ha, hb, hLess⟩
    rcases compare?_cases ha hb with
      ⟨m, n, rfl, rfl, hOrder⟩ | ⟨hFloat, hOrder⟩
    · rw [hOrder, Option.some.injEq, cmp_eq_lt_iff]
      rcases hLess with hRank | ⟨_, _, hm, hn, hLess⟩
      · by_contra hNot
        exact not_le.2 hRank
          (Binary64.rank_ofInt_mono (not_lt.1 hNot))
      · cases hm
        cases hn
        exact hLess
    · rw [hOrder, Option.some.injEq, cmp_eq_lt_iff]
      rcases hLess with hRank | ⟨m, n, rfl, rfl, -⟩
      · exact hRank
      · rcases hFloat with hFloat | hFloat <;> cases hFloat

/-
  The order of whole and floating-point numbers is transitive.  A
  step between whole numbers may be lost by rounding, but no step
  is ever turned round.
-/
theorem compare?_trans
    {a b c : Number}
    (hab : a.compare? b = some .lt)
    (hbc : b.compare? c = some .lt) :
    a.compare? c = some .lt := by
  rw [compare?_eq_lt_iff] at hab hbc ⊢
  obtain ⟨ha, -, hab⟩ := hab
  obtain ⟨-, hc, hbc⟩ := hbc
  refine ⟨ha, hc, ?_⟩
  rcases hab with hab | ⟨k, m, rfl, rfl, hab⟩
  · rcases hbc with hbc | ⟨m, n, rfl, rfl, hbc⟩
    · exact .inl (hab.trans hbc)
    · exact .inl (hab.trans_le (Binary64.rank_ofInt_mono hbc.le))
  · rcases hbc with hbc | ⟨m', n, hSame, rfl, hbc⟩
    · exact .inl ((Binary64.rank_ofInt_mono hab.le).trans_lt hbc)
    · cases hSame
      exact .inr ⟨k, n, rfl, rfl, hab.trans hbc⟩

end Number

end PageExpr
