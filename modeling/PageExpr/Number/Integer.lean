/-
  Whole numbers of sixty-four bits: exact construction from an
  unbounded integer, and saturation.

  Main declarations:
    * `Integer.ofInt?`
    * `Integer.clamp`
    * `Integer.ofInt?_eq_some_iff`
-/

namespace PageExpr

namespace Integer

/- Does the number fit sixty-four bits with a sign? -/
def Fits
    (n : Int) : Prop :=
  -0x8000000000000000 ≤ n ∧ n < 0x8000000000000000

instance
    (n : Int) :
    Decidable (Fits n) := by
  unfold Fits
  infer_instance

/- The number itself, if it fits. -/
def ofInt?
    (n : Int) : Option Int64 :=
  if Fits n then some (Int64.ofInt n) else none

/- The nearest number that fits. -/
def clamp
    (n : Int) : Int64 :=
  Int64.ofInt
    (max (-0x8000000000000000) (min n 0x7fffffffffffffff))

/- Every word fits. -/
theorem fits_toInt
    (w : Int64) :
    Fits w.toInt :=
  ⟨w.le_toInt, w.toInt_lt⟩

/- The word that is found has the wanted value. -/
theorem ofInt?_eq_some_iff
    {n : Int}
    {w : Int64} :
    ofInt? n = some w ↔ w.toInt = n := by
  unfold ofInt?
  by_cases h : Fits n
  · simp only [h, if_true, Option.some.injEq]
    constructor
    · rintro rfl
      exact Int64.toInt_ofInt_of_le h.1 h.2
    · rintro rfl
      exact Int64.ofInt_toInt w
  · simp only [h, if_false, reduceCtorEq, false_iff]
    rintro rfl
    exact h (fits_toInt w)

/- There is a word exactly for the numbers that fit. -/
theorem ofInt?_eq_none_iff
    {n : Int} :
    ofInt? n = none ↔ ¬ Fits n := by
  unfold ofInt?
  by_cases h : Fits n <;> simp [h]

end Integer

end PageExpr
