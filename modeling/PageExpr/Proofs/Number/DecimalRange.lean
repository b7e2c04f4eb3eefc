import Mathlib.Data.Rat.Cast.Order
import Mathlib.Tactic.Positivity
import PageExpr.Number.Decimal96

/-
  Decimals in range.

  A decimal that is made of a floating-point number has a
  mantissa and a scale in range, whatever digits the conversion
  drops.  Zeros that are taken off the end of a fraction leave
  the value as it is and stay in range.

  Main declarations:
    * `Decimal96.Bounded`
    * `Decimal96.Shortens`
    * `Decimal96.shortens_trim`
    * `Decimal96.bounded_of_ofBinary64?`
-/

namespace PageExpr

namespace Decimal96

------------------------------------------------------------
-- Range
------------------------------------------------------------

/- Mantissa and scale are in range. -/
structure Bounded
    (d : Decimal96) : Prop where
  mantissa : d.mantissa < bound
  scale : d.scale ≤ maxScale

/- Zero is in range. -/
theorem bounded_zero : zero.Bounded :=
  ⟨by decide, by decide⟩

/- The other sign is as good. -/
theorem Bounded.neg
    {d : Decimal96}
    (h : d.Bounded) :
    d.neg.Bounded := by
  unfold Decimal96.neg
  split
  · exact h
  · exact ⟨h.mantissa, h.scale⟩

------------------------------------------------------------
-- Zeros at the End
------------------------------------------------------------

/-
  A shorter notation of the same value: zeros are taken off the
  end of the fraction.
-/
structure Shortens
    (d e : Decimal96) : Prop where
  toRat : e.toRat = d.toRat
  mantissa : e.mantissa ≤ d.mantissa
  scale : e.scale ≤ d.scale

/- A decimal stands for itself. -/
theorem Shortens.refl
    (d : Decimal96) :
    Shortens d d :=
  ⟨rfl, le_rfl, le_rfl⟩

/- Zeros can be taken off one after the other. -/
theorem Shortens.trans
    {d e f : Decimal96}
    (h : Shortens d e)
    (k : Shortens e f) :
    Shortens d f :=
  ⟨k.toRat.trans h.toRat, k.mantissa.trans h.mantissa,
    k.scale.trans h.scale⟩

/- A shorter notation is in range. -/
theorem Bounded.shortens
    {d e : Decimal96}
    (h : d.Bounded)
    (hShort : Shortens d e) :
    e.Bounded :=
  ⟨lt_of_le_of_lt hShort.mantissa h.mantissa,
    hShort.scale.trans h.scale⟩

/- Zeros at the end of the fraction do not count. -/
theorem shortens_of_dvd
    {m s n : Nat}
    (negative : Bool)
    (hCount : n ≤ s)
    (hZeros : m % 10 ^ n = 0) :
    Shortens ⟨negative, m, s⟩
      ⟨negative, m / 10 ^ n, s - n⟩ where
  toRat := by
    have hMul : m / 10 ^ n * 10 ^ s = m * 10 ^ (s - n) := by
      calc m / 10 ^ n * 10 ^ s
          = m / 10 ^ n * 10 ^ n * 10 ^ (s - n) := by
            rw [mul_assoc, ← pow_add, Nat.add_sub_cancel' hCount]
        _ = m * 10 ^ (s - n) := by
            rw [Nat.div_mul_cancel (Nat.dvd_of_mod_eq_zero hZeros)]
    have hMagnitude :
        ((m / 10 ^ n : Nat) : Rat) / 10 ^ (s - n) = m / 10 ^ s := by
      rw [div_eq_div_iff (by positivity) (by positivity)]
      exact_mod_cast hMul
    simp only [Decimal96.toRat, hMagnitude]
  mantissa := Nat.div_le_self _ _
  scale := Nat.sub_le _ _

/- Some zeros are taken off, or none. -/
theorem shortens_dropZeros
    (count : Nat)
    (d : Decimal96) :
    Shortens d (d.dropZeros count) := by
  unfold dropZeros
  simp only [Nat.pow_eq]
  split
  · rename_i h
    rw [Bool.and_eq_true, decide_eq_true_iff, decide_eq_true_iff] at h
    exact shortens_of_dvd d.negative h.1 h.2
  · exact .refl d

/- Eight zeros are taken off, or none. -/
theorem shortens_dropEightZeros
    (d : Decimal96) :
    Shortens d d.dropEightZeros := by
  unfold dropEightZeros
  split
  · exact shortens_dropZeros 8 d
  · exact .refl d

/- A trimmed decimal has the same value. -/
theorem shortens_trim
    (d : Decimal96) :
    Shortens d d.trim := by
  unfold trim
  exact (shortens_dropEightZeros _).trans <|
    (shortens_dropEightZeros _).trans <|
    (shortens_dropEightZeros _).trans <|
    (shortens_dropZeros 4 _).trans <|
    (shortens_dropZeros 2 _).trans (shortens_dropZeros 1 _)

/- A stripped decimal has the same value. -/
theorem shortens_stripZeros
    (negative : Bool)
    (m s : Nat) :
    Shortens ⟨negative, m, s⟩ (stripZeros negative m s) := by
  induction s generalizing m with
  | zero => exact .refl _
  | succ s ih =>
      rw [stripZeros]
      split
      · rename_i h
        have hOne :
            Shortens ⟨negative, m, s + 1⟩ ⟨negative, m / 10, s⟩ :=
          shortens_of_dvd (n := 1) negative (Nat.succ_pos s) h
        exact hOne.trans (ih _)
      · exact .refl _

/- Zero is stripped of its whole fraction. -/
theorem scale_stripZeros
    {m s : Nat}
    {negative : Bool}
    (h : (stripZeros negative m s).mantissa = 0) :
    (stripZeros negative m s).scale = 0 := by
  induction s generalizing m with
  | zero => rfl
  | succ s ih =>
      rw [stripZeros] at h ⊢
      split
      · rename_i hZero
        rw [if_pos hZero] at h
        exact ih h
      · rename_i hDigit
        rw [if_neg hDigit] at h
        exact absurd (congrArg (· % 10) h) hDigit

------------------------------------------------------------
-- From Floating-Point Numbers
------------------------------------------------------------

/- A mantissa stays below the bound while halves are cleared. -/
theorem clearHalves_lt
    {m : Nat}
    (twos : Nat)
    (ten : Int)
    (h : m < bound) :
    (clearHalves twos m ten).1 < bound := by
  induction twos generalizing m ten with
  | zero => exact h
  | succ twos ih =>
      rw [clearHalves]
      split
      · exact ih _ (lt_of_le_of_lt (Nat.div_le_self _ _) h)
      · split
        · rename_i hFits
          exact ih _ hFits
        · exact ih _ (lt_of_le_of_lt (Nat.div_le_self _ _) h)

/- It stays below the bound while factors of two are cleared. -/
theorem clearTwos?_lt
    {twos m : Nat}
    {ten : Int}
    {r : Nat × Int}
    (h : m < bound)
    (hr : clearTwos? twos m ten = some r) :
    r.1 < bound := by
  induction twos generalizing m ten with
  | zero =>
      cases hr
      exact h
  | succ twos ih =>
      rw [clearTwos?] at hr
      split at hr
      · rename_i hFits
        exact ih hFits hr
      · split at hr
        · cases hr
        · exact ih (lt_of_le_of_lt (Nat.div_le_self _ _) h) hr

/- It stays below the bound while powers of ten are cleared. -/
theorem clearTens?_lt
    {tens m r : Nat}
    (h : m < bound)
    (hr : clearTens? tens m = some r) :
    r < bound := by
  induction tens generalizing m with
  | zero =>
      cases hr
      exact h
  | succ tens ih =>
      rw [clearTens?] at hr
      split at hr
      · rename_i hFits
        exact ih hFits hr
      · cases hr

/- A tenth is not more than the whole. -/
theorem tenth_le
    (m : Nat) :
    tenth m ≤ m := by
  unfold tenth
  split <;> omega

/- Digits that are dropped leave a smaller mantissa and scale. -/
theorem dropDigits_le
    (excess m scale : Nat) :
    (dropDigits excess m scale).1 ≤ m ∧
      (dropDigits excess m scale).2 ≤ scale - excess := by
  induction excess generalizing m scale with
  | zero => exact ⟨le_rfl, le_rfl⟩
  | succ excess ih =>
      rw [dropDigits]
      split
      · exact ⟨Nat.zero_le _, Nat.zero_le _⟩
      · have h := ih (tenth m) (scale - 1)
        have hTenth := tenth_le m
        omega

/- So do the digits beyond fifty-two bits. -/
theorem dropPrecision_le
    (m scale : Nat) :
    (dropPrecision m scale).1 ≤ m ∧
      (dropPrecision m scale).2 ≤ scale := by
  induction scale generalizing m with
  | zero => exact ⟨le_rfl, le_rfl⟩
  | succ scale ih =>
      rw [dropPrecision]
      split
      · have h := ih (tenth m)
        have hTenth := tenth_le m
        omega
      · exact ⟨le_rfl, le_rfl⟩

/- The last steps take off what is out of range. -/
theorem bounded_drop
    {m : Nat}
    (negative : Bool)
    (scale : Nat)
    (h : m < bound) :
    let digits := dropDigits (scale - maxScale) m scale
    let precise := dropPrecision digits.1 digits.2
    (stripZeros negative precise.1 precise.2).Bounded := by
  intro digits precise
  have hDigits := dropDigits_le (scale - maxScale) m scale
  have hPrecise := dropPrecision_le digits.1 digits.2
  refine Bounded.shortens ⟨?_, ?_⟩ (shortens_stripZeros _ _ _)
  · exact lt_of_le_of_lt (hPrecise.1.trans hDigits.1) h
  · refine (hPrecise.2.trans hDigits.2).trans ?_
    omega

/- A decimal made of a power of two is in range. -/
theorem bounded_of_ofDyadic?
    {negative : Bool}
    {significand : Nat}
    {exponent : Int}
    {d : Decimal96}
    (hSmall : significand < bound)
    (h : ofDyadic? negative significand exponent = some d) :
    d.Bounded ∧ (d.mantissa = 0 → d.scale = 0) := by
  simp only [ofDyadic?, Option.bind_eq_bind, Option.pure_def] at h
  split at h <;>
    simp only [Option.bind_eq_some_iff, Option.some.injEq] at h <;>
    rcases h with ⟨⟨m, ten⟩, hTwos, n, hTens, rfl⟩
  · have hm := clearHalves_lt (-exponent).toNat exponent hSmall
    rw [hTwos] at hm
    exact ⟨bounded_drop _ _ (clearTens?_lt hm hTens),
      scale_stripZeros⟩
  · have hm := clearTwos?_lt hSmall hTwos
    exact ⟨bounded_drop _ _ (clearTens?_lt hm hTens),
      scale_stripZeros⟩

/-
  The decimal of a floating-point number is in range, and zero
  has no fraction.
-/
theorem bounded_of_ofBinary64?
    {x : Binary64}
    {d : Decimal96}
    (h : ofBinary64? x = some d) :
    d.Bounded ∧ (d.mantissa = 0 → d.scale = 0) := by
  rcases x with _ | _ | ⟨negative, significand, exponent, hCanonical⟩
  · cases h
  · cases h
  · rw [ofBinary64?] at h
    split at h
    · cases h
      exact ⟨⟨Nat.zero_lt_succ _, Nat.zero_le _⟩, fun _ => rfl⟩
    · have hSmall : significand < bound :=
        hCanonical.1.trans (by decide)
      exact bounded_of_ofDyadic? hSmall h

end Decimal96

end PageExpr
