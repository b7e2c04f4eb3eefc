import PageExpr.Proofs.Number.Rounding

/-
  The shortest digits of a number read back as the number.

  Digits are taken from a grid only if they are rounded to the
  number, and if no grid has such digits, all digits of the
  number are taken, which stand for it exactly.

  Main declarations:
    * `Digits.accepts_of_onGrid?`
    * `Digits.accepts_of_fewest?`
    * `Binary64.toRat_allDigits`
    * `Binary64.round_shortest`
    * `Binary64.ofDecimal_of_eq_shortest`
-/

namespace PageExpr

------------------------------------------------------------
-- Digits on a Grid
------------------------------------------------------------

namespace Digits

/- The upper neighbour keeps its value if it gains a digit. -/
theorem toRat_upper
    (units n : Nat)
    (exponent : Int) :
    toRat
        (if units + 1 = Nat.pow 10 n then ⟨1, exponent + n⟩
        else ⟨units + 1, exponent⟩) =
      ((units + 1 : Nat) : Rat) * (10 : Rat) ^ exponent := by
  have hTen : (10 : Rat) ≠ 0 := by norm_num
  split
  · rename_i hCarry
    have hCast :
        ((units + 1 : Nat) : Rat) = (10 : Rat) ^ (n : Int) := by
      rw [hCarry, zpow_natCast]
      exact Nat.cast_pow 10 n
    rw [toRat, hCast, zpow_add₀ hTen]
    ring
  · rfl

/- The digits that are taken from a grid are accepted. -/
theorem accepts_of_onGrid?
    {accepts : Rat → Bool}
    {halfUp : Bool}
    {q : Rat}
    {n : Nat}
    {d : Digits}
    (h : onGrid? accepts halfUp q n = some d) :
    accepts d.toRat = true := by
  have hUpper := toRat_upper
    (q / (10 : Rat) ^ (placeOf q + 1 - n)).floor.toNat n
    (placeOf q + 1 - n)
  unfold onGrid? at h
  simp only at h
  generalize placeOf q + 1 - (n : Int) = exponent at h hUpper
  generalize (q / (10 : Rat) ^ exponent).floor.toNat = units
    at h hUpper
  generalize (if units + 1 = Nat.pow 10 n then
      (⟨1, exponent + n⟩ : Digits)
    else ⟨units + 1, exponent⟩) = upper at h hUpper
  have hLower :
      toRat ⟨units, exponent⟩ =
        (units : Rat) * (10 : Rat) ^ exponent := rfl
  split at h
  · rename_i hBelow hAbove
    rw [← hLower] at hBelow
    rw [← hUpper] at hAbove
    split at h
    · cases h
      exact hBelow
    · split at h
      · cases h
        exact hAbove
      · split at h <;> cases h
        · exact hAbove
        · exact hBelow
  · rename_i hBelow _
    cases h
    rw [hLower]
    exact hBelow
  · rename_i _ hAbove
    cases h
    rw [hUpper]
    exact hAbove
  · cases h

/- The digits of the coarsest grid are accepted. -/
theorem accepts_of_fewest?
    {accepts : Rat → Bool}
    {halfUp : Bool}
    {most : Nat}
    {q : Rat}
    {d : Digits}
    (h : fewest? accepts halfUp most q = some d) :
    accepts d.toRat = true := by
  rcases List.exists_of_findSome?_eq_some h with ⟨n, -, hGrid⟩
  exact accepts_of_onGrid? hGrid

end Digits

------------------------------------------------------------
-- Digits of a Number
------------------------------------------------------------

namespace Binary64

/- All digits stand for the number itself. -/
theorem toRat_allDigits
    (significand : Nat)
    (exponent : Int) :
    (allDigits significand exponent).toRat =
      (significand : Rat) * (2 : Rat) ^ exponent := by
  unfold allDigits Digits.toRat
  split
  · rename_i hNegative
    obtain ⟨n, rfl⟩ : ∃ n : Nat, exponent = -(n : Int) :=
      ⟨exponent.natAbs, by omega⟩
    have hFive : ((Nat.pow 5 n : Nat) : Rat) = 5 ^ n :=
      Nat.cast_pow 5 n
    have hTen : (10 : Rat) ^ n = 5 ^ n * 2 ^ n := by
      rw [← mul_pow]
      norm_num
    simp only [neg_neg, Int.toNat_natCast, Nat.cast_mul, hFive,
      zpow_neg, zpow_natCast, hTen]
    field_simp
  · rename_i hPositive
    obtain ⟨n, rfl⟩ : ∃ n : Nat, exponent = (n : Int) :=
      ⟨exponent.toNat, by omega⟩
    simp [Nat.shiftLeft_eq]

/- The shortest digits of a number are rounded to it. -/
theorem round_shortest
    {significand : Nat}
    {exponent : Int}
    (negative halfUp : Bool)
    (h : Canonical significand exponent)
    (hNonzero : significand ≠ 0) :
    round false
        ((finite negative significand exponent h).shortest
          halfUp).toRat =
      .finite false significand exponent h := by
  unfold shortest
  simp only [if_neg hNonzero]
  generalize hFewest : Digits.fewest? _ halfUp 17 _ = found
  cases found with
  | none =>
      rw [Option.getD_none, toRat_allDigits]
      exact round_of_canonical false false h hNonzero
  | some d =>
      have hAccepts := Digits.accepts_of_fewest? hFewest
      exact of_decide_eq_true hAccepts

/- The only canonical form of zero has the least exponent. -/
theorem exponent_of_zero
    {exponent : Int}
    (h : Canonical 0 exponent) :
    exponent = -1074 := by
  rcases h.2.2.2 with hLower | hLeast
  · exact absurd hLower (by decide)
  · exact hLeast

/-
  A decimal with the value of the shortest digits, in whatever
  notation, is the number that they were taken from.
-/
theorem ofDecimal_of_eq_shortest
    {x : Binary64}
    {halfUp : Bool}
    {digits : Nat}
    {place : Int}
    (hFinite : x.isFinite = true)
    (hValue :
      (digits : Rat) * (10 : Rat) ^ place =
        (x.shortest halfUp).toRat) :
    ofDecimal x.isNegative digits place = x := by
  have hPow : (10 : Rat) ^ place ≠ 0 := by positivity
  cases x with
  | nan => cases hFinite
  | infinity negative => cases hFinite
  | finite negative significand exponent h =>
      by_cases hZero : significand = 0
      · subst hZero
        obtain rfl := exponent_of_zero h
        have hDigits : digits = 0 := by
          simpa [shortest, Digits.toRat, hPow] using hValue
        simp [ofDecimal, hDigits, zero, isNegative]
      · have hRound := round_shortest negative halfUp h hZero
        rw [← hValue] at hRound
        have hDigits : digits ≠ 0 := by
          rintro rfl
          rw [Nat.cast_zero, zero_mul] at hRound
          simp only [round, if_true, zero] at hRound
          cases hRound
          exact hZero rfl
        have hPos : (0 : Rat) < digits * 10 ^ place := by
          have hCast : (0 : Rat) < digits := by
            exact_mod_cast Nat.pos_of_ne_zero hDigits
          positivity
        have hRatio := round_of_pos false false hPos
        rw [if_neg Bool.false_ne_true, hRound] at hRatio
        rw [ofDecimal_eq_round _ _ hDigits, round_of_pos _ _ hPos]
        exact roundRatio_negative negative hRatio.symm

end Binary64

end PageExpr
