import PageExpr.Host.PageContext
import PageExpr.Proofs.Evaluation.Visits
import PageExpr.Proofs.Number.Rounding

/-
  Which results of arithmetic are whole numbers.

  The result on two words is a word if the exact result is one,
  and a floating-point number if not.  There is one exception:
  the remainder of the least word by minus one is zero, but the
  quotient is no word, and so this remainder is not formed.

  Main declarations:
    * `Arithmetic.Exact`
    * `Arithmetic.exact_eq_some_iff`
    * `Arithmetic.Meets`, `Arithmetic.MeetsNegation`
    * `Expr.run_arithmetic`
-/

namespace PageExpr

------------------------------------------------------------
-- Exact Results
------------------------------------------------------------

namespace Arithmetic

/-
  The exact result of an operation on two integers.  There is a
  quotient only if nothing remains.  A remainder is smaller than
  the divisor and has the sign of the dividend.
-/
def Exact
    (op : ArithmeticOp)
    (x y n : Int) : Prop :=
  match op with
  | .add => n = x + y
  | .subtract => n = x - y
  | .multiply => n = x * y
  | .divide => x = n * y
  | .modulo =>
      (∃ q, x = q * y + n) ∧ n.natAbs < y.natAbs ∧
        (0 ≤ x → 0 ≤ n) ∧ (x ≤ 0 → n ≤ 0)

/- Does the operation divide by its right operand? -/
def Divides
    (op : ArithmeticOp) : Prop :=
  op = .divide ∨ op = .modulo

/- The operation that leaves out its result. -/
def Omits
    (op : ArithmeticOp)
    (x y : Int64) : Prop :=
  op = .modulo ∧ x = Int64.minValue ∧ y = -1

/- The truncated division gives the exact quotient. -/
theorem exact_divide_iff
    {x y n : Int}
    (hy : y ≠ 0) :
    Exact .divide x y n ↔ x.tmod y = 0 ∧ x.tdiv y = n := by
  constructor
  · intro h
    change x = n * y at h
    rw [h]
    exact ⟨Int.mul_tmod_left n y, Int.mul_tdiv_cancel n hy⟩
  · rintro ⟨hRemainder, rfl⟩
    exact (Int.tdiv_mul_cancel
      (Int.dvd_of_tmod_eq_zero hRemainder)).symm

/- The truncated division leaves the exact remainder. -/
theorem exact_modulo_tmod
    {y : Int}
    (x : Int)
    (hy : y ≠ 0) :
    Exact .modulo x y (x.tmod y) := by
  refine ⟨⟨x.tdiv y, ?_⟩, ?_, ?_, ?_⟩
  · rw [Int.mul_comm]
    exact (Int.mul_tdiv_add_tmod x y).symm
  · rw [Int.natAbs_tmod]
    exact Nat.mod_lt _ (Int.natAbs_pos.2 hy)
  · exact fun h => Int.tmod_nonneg y h
  · intro h
    have hOpposite := Int.tmod_nonneg y (Int.neg_nonneg_of_nonpos h)
    rw [Int.neg_tmod] at hOpposite
    omega

/- There is only one remainder. -/
theorem exact_modulo_unique
    {x y m n : Int}
    (hm : Exact .modulo x y m)
    (hn : Exact .modulo x y n) :
    m = n := by
  rcases hm with ⟨⟨p, hp⟩, hmSmall, hmPos, hmNeg⟩
  rcases hn with ⟨⟨q, hq⟩, hnSmall, hnPos, hnNeg⟩
  have hDivides : y ∣ m - n := by
    refine ⟨q - p, ?_⟩
    rw [Int.mul_sub, Int.mul_comm y q, Int.mul_comm y p]
    omega
  -- Both lie on the same side of zero, less than a divisor apart.
  have hSmall : (m - n).natAbs < y.natAbs := by
    rcases Int.le_total 0 x with h | h
    · have := hmPos h
      have := hnPos h
      omega
    · have := hmNeg h
      have := hnNeg h
      omega
  have hZero := Int.eq_zero_of_dvd_of_natAbs_lt_natAbs hDivides hSmall
  omega

/- So it is the one that the truncated division leaves. -/
theorem exact_modulo_iff
    {x y n : Int}
    (hy : y ≠ 0) :
    Exact .modulo x y n ↔ x.tmod y = n := by
  constructor
  · exact exact_modulo_unique (exact_modulo_tmod x hy)
  · rintro rfl
    exact exact_modulo_tmod x hy

------------------------------------------------------------
-- Words
------------------------------------------------------------

/- A division by two or more gives at most a half. -/
theorem fits_tdiv_of_two_le
    {x y : Int}
    (hx : Integer.Fits x)
    (hy : 2 ≤ y.natAbs) :
    Integer.Fits (x.tdiv y) := by
  have hHalf : (x.tdiv y).natAbs ≤ x.natAbs / 2 := by
    rw [Int.natAbs_tdiv]
    exact Nat.div_le_div_left hy (by decide)
  unfold Integer.Fits at hx ⊢
  omega

/- Only the least word by minus one has no word for a quotient. -/
theorem fits_tdiv_iff
    {x y : Int64}
    (hy : y.toInt ≠ 0) :
    Integer.Fits (x.toInt.tdiv y.toInt) ↔
      ¬ (x = Int64.minValue ∧ y = -1) := by
  have hx := Integer.fits_toInt x
  have hLeast :
      x = Int64.minValue ↔ x.toInt = -0x8000000000000000 :=
    Int64.toInt_inj.symm
  have hMinusOne : y = -1 ↔ y.toInt = -1 :=
    Int64.toInt_inj.symm
  rw [hLeast, hMinusOne]
  by_cases hLarge : 2 ≤ y.toInt.natAbs
  · have hFits := fits_tdiv_of_two_le hx hLarge
    have hNot : y.toInt ≠ -1 := by omega
    simp only [hFits, hNot, and_false, not_false_eq_true]
  · have hUnit : y.toInt = 1 ∨ y.toInt = -1 := by omega
    rcases hUnit with hOne | hMinus
    · rw [hOne, Int.tdiv_one]
      simp [hx]
    · rw [hMinus, Int.tdiv_neg, Int.tdiv_one]
      unfold Integer.Fits at hx ⊢
      omega

/-
  The operation on integers gives the exact result, but no
  remainder beside a quotient that is no word.
-/
theorem integral?_eq_some_iff
    {op : ArithmeticOp}
    {x y n : Int}
    (hy : Divides op → y ≠ 0) :
    integral? x y op = some n ↔
      Exact op x y n ∧
        (op = .modulo → Integer.Fits (x.tdiv y)) := by
  cases op with
  | add => simp [integral?, Exact, eq_comm]
  | subtract => simp [integral?, Exact, eq_comm]
  | multiply => simp [integral?, Exact, eq_comm]
  | divide =>
      rw [exact_divide_iff (hy (.inl rfl))]
      simp [integral?]
  | modulo =>
      rw [exact_modulo_iff (hy (.inr rfl))]
      simp [integral?, and_comm]

/-
  The operation on words gives the exact result if it is a
  word, apart from the one that is left out.
-/
theorem exact_eq_some_iff
    {op : ArithmeticOp}
    {x y n : Int64}
    (hy : Divides op → y.toInt ≠ 0) :
    exact op x y = some n ↔
      Exact op x.toInt y.toInt n.toInt ∧ ¬ Omits op x y := by
  have hWord :
      exact op x y = some n ↔
        integral? x.toInt y.toInt op = some n.toInt := by
    simp [exact, Option.bind_eq_some_iff,
      Integer.ofInt?_eq_some_iff]
  have hQuotient :
      (op = .modulo → Integer.Fits (x.toInt.tdiv y.toInt)) ↔
        ¬ Omits op x y := by
    rw [Omits, not_and]
    refine imp_congr_right fun hModulo => ?_
    exact fits_tdiv_iff (hy (.inr hModulo))
  rw [hWord, integral?_eq_some_iff hy, hQuotient]

------------------------------------------------------------
-- Operators
------------------------------------------------------------

end Arithmetic

/- The kind of the report of a visit, if there is one. -/
def Visit.kinds
    (visit : Visit) : List FailureKind :=
  (diagnostics [visit]).map Diagnostic.kind

/- Is the number zero? -/
def Number.isZero : Number → Bool
  | .integer n => n = 0
  | .float x => x.isZero

/- A number is zero if the nearest floating-point number is. -/
theorem Number.isZero_toBinary64
    (n : Number) :
    n.toBinary64.isZero = n.isZero := by
  cases n with
  | integer n =>
      rw [Bool.eq_iff_iff, toBinary64, Binary64.isZero_ofInt,
        isZero, decide_eq_true_iff]
      exact Int64.toInt_inj (y := 0)
  | float x => rfl

namespace Arithmetic

/- Is an operation a division by zero? -/
def DividesByZero
    (op : ArithmeticOp)
    (b : Number) : Prop :=
  Divides op ∧ b.isZero = true

/-
  What an operation on two values should give and report:
    * null and a failed coercion, if one of them is no number
    * null and a failure of arithmetic, if it divides by zero
    * a floating-point number, if one of them is one
    * on words, the exact result if it is a word, unless it is
      left out, and a floating-point number otherwise
-/
structure Meets
    (op : ArithmeticOp)
    (a b result : Value)
    (kinds : List FailureKind) : Prop where
  coercion :
    (∃ e, a.toNumber = .error e ∨ b.toNumber = .error e) →
      result = .null ∧ kinds = [.coercion]
  division : ∀ m n, a.toNumber = .ok m → b.toNumber = .ok n →
    DividesByZero op n →
      result = .null ∧ kinds = [.arithmetic]
  floating : ∀ m n, a.toNumber = .ok m → b.toNumber = .ok n →
    ¬ DividesByZero op n → (m.isFloat = true ∨ n.isFloat = true) →
      (∃ x, result = .float x) ∧ kinds = []
  integral : ∀ x y, a.toNumber = .ok (.integer x) →
    b.toNumber = .ok (.integer y) →
    ¬ DividesByZero op (.integer y) →
      (∀ k : Int64, result = .integer k ↔
        Exact op x.toInt y.toInt k.toInt ∧ ¬ Omits op x y) ∧
      ((∃ k, result = .integer k) ∨ ∃ f, result = .float f) ∧
      kinds = []

/-
  What a minus sign should give and report.  The opposite of a
  word is a word, unless it is that of the least one.
-/
structure MeetsNegation
    (a result : Value)
    (kinds : List FailureKind) : Prop where
  coercion : ∀ e, a.toNumber = .error e →
    result = .null ∧ kinds = [.coercion]
  floating : ∀ x, a.toNumber = .ok (.float x) →
    (∃ f, result = .float f) ∧ kinds = []
  integral : ∀ n, a.toNumber = .ok (.integer n) →
    (∀ k : Int64, result = .integer k ↔ k.toInt = -n.toInt) ∧
    ((∃ f, result = .float f) ↔ n = Int64.minValue) ∧
    kinds = []

------------------------------------------------------------
-- Results
------------------------------------------------------------

/- An operand that is no number is a failed coercion. -/
theorem apply_of_error
    {a b : Value}
    (op : ArithmeticOp)
    (h : ∃ e, a.toNumber = .error e ∨ b.toNumber = .error e) :
    ∃ failure,
      apply op a b = .error failure ∧ failure.kind = .coercion := by
  rcases h with ⟨e, h | h⟩
  · exact ⟨.operand op.symbol e, by simp only [apply, h], rfl⟩
  · cases ha : a.toNumber with
    | error other =>
        exact ⟨.operand op.symbol other,
          by simp only [apply, ha], rfl⟩
    | ok m =>
        exact ⟨.operand op.symbol e,
          by simp only [apply, ha, h], rfl⟩

/- There is a failure for every division by zero. -/
theorem zeroDivisor?_of_dividesByZero
    {op : ArithmeticOp}
    {b : Number}
    (h : DividesByZero op b) :
    ∃ operation, zeroDivisor? op b = some (.zeroDivisor operation) := by
  rcases h with ⟨hDivides, hZero⟩
  have hFailure :
      zeroDivisor? op b = (division? op).map .zeroDivisor := by
    rw [zeroDivisor?, b.isZero_toBinary64, if_pos hZero]
  rcases hDivides with rfl | rfl
  · exact ⟨"division", hFailure⟩
  · exact ⟨"modulo", hFailure⟩

/- There is none for the other operations. -/
theorem zeroDivisor?_eq_none
    {op : ArithmeticOp}
    {b : Number}
    (h : ¬ DividesByZero op b) :
    zeroDivisor? op b = none := by
  rw [zeroDivisor?, b.isZero_toBinary64]
  split
  · rename_i hZero
    cases op with
    | divide => exact absurd ⟨.inl rfl, hZero⟩ h
    | modulo => exact absurd ⟨.inr rfl, hZero⟩ h
    | _ => rfl
  · rfl

/- The other operations have the result on numbers. -/
theorem apply_of_ok
    {op : ArithmeticOp}
    {a b : Value}
    {m n : Number}
    (ha : a.toNumber = .ok m)
    (hb : b.toNumber = .ok n)
    (h : ¬ DividesByZero op n) :
    apply op a b = .ok (.ofNumber (onNumbers op m n)) := by
  simp only [apply, ha, hb, zeroDivisor?_eq_none h]

/- A floating-point operand gives a floating-point result. -/
theorem onNumbers_of_isFloat
    {op : ArithmeticOp}
    {m n : Number}
    (h : m.isFloat = true ∨ n.isFloat = true) :
    ∃ x, onNumbers op m n = .float x := by
  cases m with
  | float x => exact ⟨_, rfl⟩
  | integer x =>
      cases n with
      | float y => exact ⟨_, rfl⟩
      | integer y => rcases h with h | h <;> cases h

/- Two words give the exact result, or else no word. -/
theorem onNumbers_integer
    (op : ArithmeticOp)
    (x y : Int64) :
    (∃ k, exact op x y = some k ∧
      onNumbers op (.integer x) (.integer y) = .integer k) ∨
    (exact op x y = none ∧
      ∃ f, onNumbers op (.integer x) (.integer y) = .float f) := by
  cases hExact : exact op x y with
  | some k => exact .inl ⟨k, rfl, by simp only [onNumbers, hExact]⟩
  | none => exact .inr ⟨rfl, _, by simp only [onNumbers, hExact]; rfl⟩

/- The opposite of a word is a word, apart from the least one. -/
theorem opposite_integer
    (n : Int64) :
    (∃ m : Int64, m.toInt = -n.toInt ∧ n ≠ Int64.minValue ∧
      opposite (.integer n) = .integer m) ∨
    (n = Int64.minValue ∧ ¬ Integer.Fits (-n.toInt) ∧
      ∃ f, opposite (.integer n) = .float f) := by
  have hLeast :
      n = Int64.minValue ↔ ¬ Integer.Fits (-n.toInt) := by
    have hn := Integer.fits_toInt n
    rw [← Int64.toInt_inj]
    change n.toInt = -0x8000000000000000 ↔ _
    unfold Integer.Fits at hn ⊢
    omega
  cases hOpposite : Integer.ofInt? (-n.toInt) with
  | some m =>
      have hWord := Integer.ofInt?_eq_some_iff.1 hOpposite
      refine .inl ⟨m, hWord, ?_, by simp only [opposite, hOpposite]⟩
      rw [Ne, hLeast, not_not, ← hWord]
      exact Integer.fits_toInt m
  | none =>
      have hNot := Integer.ofInt?_eq_none_iff.1 hOpposite
      refine .inr ⟨hLeast.2 hNot, hNot,
        (Binary64.ofInt n.toInt).neg, ?_⟩
      simp only [opposite, hOpposite]

/- Arithmetic gives and reports what it should. -/
theorem meets_apply
    (node : Expr)
    (op : ArithmeticOp)
    (a b : Value) :
    Meets op a b (Visit.settled node .null (apply op a b)).value
      (Visit.kinds (.settled node .null (apply op a b))) where
  coercion := by
    intro h
    rcases apply_of_error op h with ⟨failure, hApply, hKind⟩
    rw [hApply, ← hKind]
    exact ⟨rfl, rfl⟩
  division := by
    intro m n ha hb hZero
    rcases zeroDivisor?_of_dividesByZero hZero with
      ⟨operation, hFailure⟩
    simp only [apply, ha, hb, hFailure]
    exact ⟨rfl, rfl⟩
  floating := by
    intro m n ha hb hDivisor hFloat
    rcases onNumbers_of_isFloat hFloat with ⟨x, hResult⟩
    rw [apply_of_ok ha hb hDivisor, hResult]
    exact ⟨⟨x, rfl⟩, rfl⟩
  integral := by
    intro x y ha hb hDivisor
    have hNonzero : Divides op → y.toInt ≠ 0 := by
      intro hDivides hZero
      refine hDivisor ⟨hDivides, decide_eq_true ?_⟩
      exact Int64.toInt_inj.1 hZero
    simp only [← exact_eq_some_iff hNonzero]
    rw [apply_of_ok ha hb hDivisor]
    rcases onNumbers_integer op x y with
      ⟨n, hExact, hResult⟩ | ⟨hExact, f, hResult⟩
    · rw [hResult, hExact]
      refine ⟨fun k => ?_, .inl ⟨n, rfl⟩, rfl⟩
      change Value.integer n = .integer k ↔ some n = some k
      rw [Value.integer.injEq, Option.some.injEq]
    · rw [hResult, hExact]
      exact ⟨fun k => ⟨nofun, nofun⟩, .inr ⟨f, rfl⟩, rfl⟩

/- A minus sign gives and reports what it should. -/
theorem meetsNegation_negate
    (node : Expr)
    (a : Value) :
    MeetsNegation a (Visit.settled node .null (negate a)).value
      (Visit.kinds (.settled node .null (negate a))) where
  coercion := by
    intro e h
    simp only [negate, h]
    exact ⟨rfl, rfl⟩
  floating := by
    intro x h
    simp only [negate, h]
    exact ⟨⟨_, rfl⟩, rfl⟩
  integral := by
    intro n h
    simp only [negate, h]
    rcases opposite_integer n with
      ⟨m, hWord, hOther, hResult⟩ | ⟨hLeast, hNot, f, hResult⟩
    · rw [hResult]
      refine ⟨fun k => ?_, iff_of_false ?_ hOther, rfl⟩
      · change Value.integer m = .integer k ↔ _
        rw [Value.integer.injEq, ← hWord, Int64.toInt_inj, eq_comm]
      · rintro ⟨f, hFloat⟩
        cases hFloat
    · rw [hResult]
      refine ⟨fun k => iff_of_false nofun ?_,
        iff_of_true ⟨f, rfl⟩ hLeast, rfl⟩
      intro hWord
      rw [← hWord] at hNot
      exact hNot (Integer.fits_toInt k)

end Arithmetic

------------------------------------------------------------
-- Evaluation
------------------------------------------------------------

namespace Expr

/-
  The lenient evaluation of arithmetic evaluates the operands
  from left to right.  It gives what it should, and adds what it
  should to the reports of the operands and to what is logged.
-/
theorem run_arithmetic
    (env : Environment)
    (before : Progress) :
    (∀ (op : ArithmeticOp) (left right : Expr),
      ∃ a between b after result own,
        (left.eval .lenient env).run before = (.ok a, between) ∧
        (right.eval .lenient env).run between = (.ok b, after) ∧
        ((binary (.arithmetic op) left right).eval .lenient env).run
            before =
          (.ok result,
            { after with
              reports := after.reports ++ own
              log := after.log ++ own.map Diagnostic.logLine }) ∧
        Arithmetic.Meets op a b result (own.map Diagnostic.kind)) ∧
    (∀ operand : Expr,
      ∃ a after result own,
        (operand.eval .lenient env).run before = (.ok a, after) ∧
        ((unary .negate operand).eval .lenient env).run before =
          (.ok result,
            { after with
              reports := after.reports ++ own
              log := after.log ++ own.map Diagnostic.logLine }) ∧
        Arithmetic.MeetsNegation a result
          (own.map Diagnostic.kind)) := by
  constructor
  · intro op left right
    rcases exists_evaluates env left before.nextBean with
      ⟨a, next, visits, hLeft⟩
    rcases exists_evaluates env right next with
      ⟨b, last, others, hRight⟩
    have hOpen : (BinaryOp.arithmetic op).isDecidedBy a = false :=
      rfl
    refine ⟨a, _, b, _, _, _, hLeft.run rfl, hRight.run rfl, ?_,
      Arithmetic.meets_apply (binary (.arithmetic op) left right) op
        a b⟩
    rw [eval_binary, Evaluating.run_bind_ok (hLeft.run rfl),
      if_neg (Bool.eq_false_iff.1 hOpen),
      Evaluating.run_bind_ok (hRight.run rfl)]
    exact run_settle _ _ _ _
  · intro operand
    rcases exists_evaluates env operand before.nextBean with
      ⟨a, next, visits, hOperand⟩
    refine ⟨a, _, _, _, hOperand.run rfl, ?_,
      Arithmetic.meetsNegation_negate (unary .negate operand) a⟩
    rw [eval, Evaluating.run_bind_ok (hOperand.run rfl)]
    exact run_settle _ _ _ _

/-
  The remainder of the least word by minus one is zero, which is
  a word, but the result is a floating-point number.
-/
theorem run_arithmetic_omitted :
    Arithmetic.Exact .modulo Int64.minValue.toInt (-1) 0 ∧
      Integer.Fits 0 ∧
      ∃ f,
        (evaluate .lenient (PageContext.environment {})
          (binary (.arithmetic .modulo)
            (binary (.arithmetic .subtract)
              (unary .negate
                (.literal (.integer 9223372036854775807)))
              (.literal (.integer 1)))
            (unary .negate (.literal (.integer 1))))).result =
          .ok ⟨.float f, []⟩ := by
  refine ⟨⟨⟨-Int64.minValue.toInt, by decide⟩, by decide⟩,
    by decide, _, rfl⟩

end Expr

end PageExpr
