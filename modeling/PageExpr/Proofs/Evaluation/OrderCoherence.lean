import PageExpr.Proofs.Evaluation.Attribution
import PageExpr.Proofs.Number.NumericOrder

/-
  The operators of order and equality fit together.

  Two values that are not null are compared as strings, compared
  as numbers, or have no order, which is a failure.  In the first
  two cases all operators follow one order of the values, which
  is missing only beside `nan`.  So the operators can be turned
  round with their operands, one of less, equal and greater
  holds, and less is transitive.

  Main declarations:
    * `OrderingOp.flip`
    * `Comparison.holds`, `Comparison.failure?`
    * `Comparison.Compares`, `Comparison.Unordered`
    * `Comparison.compares_or_unordered`
    * `Comparison.Coherent`
    * `Comparison.coherent_operators`
-/

namespace PageExpr

namespace OrderingOp

/- The operator that says the same of the operands exchanged. -/
def flip : OrderingOp → OrderingOp
  | .less => .greater
  | .greater => .less
  | .lessEqual => .greaterEqual
  | .greaterEqual => .lessEqual

/- It holds of the opposite order. -/
theorem holds_flip
    (op : OrderingOp)
    (order : Ordering) :
    op.flip.holds order.swap = op.holds order := by
  cases op <;> cases order <;> rfl

end OrderingOp

namespace Comparison

------------------------------------------------------------
-- Results
------------------------------------------------------------

/- Is the result of the operator true? -/
def holds
    (op : OrderingOp)
    (a b : Value) : Bool :=
  match apply op a b with
  | .ok value => value.toBoolean
  | .error _ => false

/- The failure that the operator reports, if any. -/
def failure?
    (op : OrderingOp)
    (a b : Value) : Option Failure :=
  match apply op a b with
  | .ok _ => none
  | .error failure => some failure

/- A settled comparison has its truth value and its failure. -/
theorem settled_apply
    (node : Expr)
    (op : OrderingOp)
    (a b : Value) :
    Visit.settled node (.boolean false) (apply op a b) =
      ⟨node, .boolean (holds op a b), failure? op a b⟩ := by
  unfold holds failure?
  cases hApply : apply op a b with
  | error failure => rfl
  | ok value =>
      rcases exists_of_apply hApply with ⟨truth, rfl⟩
      rfl

------------------------------------------------------------
-- Strings
------------------------------------------------------------

/- Strings that are exchanged have the opposite order. -/
theorem ofStrings_swap
    (s t : String) :
    (ofStrings s t).swap = ofStrings t s :=
  (compareOfLessAndEq_eq_swap String.le_antisymm String.le_total
    String.not_le).symm

/- The order of two strings is less if they are. -/
theorem ofStrings_eq_lt_iff
    {s t : String} :
    ofStrings s t = .lt ↔ s < t :=
  compareOfLessAndEq_eq_lt

/- The order of two strings is equality if they are equal. -/
theorem ofStrings_eq_eq_iff
    {s t : String} :
    ofStrings s t = .eq ↔ s = t :=
  compareOfLessAndEq_eq_eq String.le_refl String.not_le

------------------------------------------------------------
-- Pairs of Values
------------------------------------------------------------

/-
  Two values are compared, and have the order that is given.
  There is none beside `nan`.
-/
inductive Compares : Value → Value → Option Ordering → Prop where
  | strings (s t : String) :
      Compares (.string s) (.string t) (some (ofStrings s t))
  | numbers
      {a b : Value} {x y : Number}
      (hLeft : a.isNull = false)
      (hRight : b.isNull = false)
      (hNumber : a.isNumber = true ∨ b.isNumber = true)
      (ha : a.toNumber = .ok x)
      (hb : b.toNumber = .ok y) :
      Compares a b (x.compare? y)

/-
  Two values cannot be compared: neither is null, they are not
  two strings, and either there is no number among them, or one
  of them cannot be taken for a number.
-/
structure Unordered
    (a b : Value) : Prop where
  left : a.isNull = false
  right : b.isNull = false
  notStrings : ¬ ∃ s t, a = .string s ∧ b = .string t
  notNumbers :
    (a.isNumber = false ∧ b.isNumber = false) ∨
      (∃ e, a.toNumber = .error e) ∨ ∃ e, b.toNumber = .error e

/- Values that are not null are compared, or cannot be. -/
theorem compares_or_unordered
    {a b : Value}
    (hLeft : a.isNull = false)
    (hRight : b.isNull = false) :
    (∃ order, Compares a b order) ∨ Unordered a b := by
  by_cases hStrings : ∃ s t, a = .string s ∧ b = .string t
  · rcases hStrings with ⟨s, t, rfl, rfl⟩
    exact .inl ⟨_, .strings s t⟩
  · by_cases hNumber : a.isNumber = true ∨ b.isNumber = true
    · cases ha : a.toNumber with
      | error e =>
          exact .inr
            ⟨hLeft, hRight, hStrings, .inr (.inl ⟨e, ha⟩)⟩
      | ok x =>
          cases hb : b.toNumber with
          | error e =>
              exact .inr
                ⟨hLeft, hRight, hStrings, .inr (.inr ⟨e, hb⟩)⟩
          | ok y =>
              exact .inl
                ⟨_, .numbers hLeft hRight hNumber ha hb⟩
    · rw [not_or, Bool.not_eq_true, Bool.not_eq_true] at hNumber
      exact .inr ⟨hLeft, hRight, hStrings, .inl hNumber⟩

/- Values are compared in both directions. -/
theorem Compares.swap
    {a b : Value}
    {order : Option Ordering}
    (h : Compares a b order) :
    Compares b a (order.map Ordering.swap) := by
  cases h with
  | strings s t =>
      rw [Option.map_some, ofStrings_swap]
      exact .strings t s
  | numbers hLeft hRight hNumber ha hb =>
      rw [Number.compare?_swap]
      exact .numbers hRight hLeft hNumber.symm hb ha

/- Values that cannot be compared cannot be in either direction. -/
theorem Unordered.symm
    {a b : Value}
    (h : Unordered a b) :
    Unordered b a where
  left := h.right
  right := h.left
  notStrings := fun ⟨t, s, hb, ha⟩ => h.notStrings ⟨s, t, ha, hb⟩
  notNumbers := h.notNumbers.imp And.symm Or.symm

------------------------------------------------------------
-- Operators
------------------------------------------------------------

/- Beside null no operator of order holds. -/
theorem apply_of_isNull
    (op : OrderingOp)
    {a b : Value}
    (h : a.isNull = true ∨ b.isNull = true) :
    apply op a b = .ok (.boolean false) := by
  rw [apply, if_pos (Bool.or_eq_true _ _ ▸ h)]

/- Values that are not null have the operator on their order. -/
theorem apply_of_order
    (op : OrderingOp)
    {a b : Value}
    (hLeft : a.isNull = false)
    (hRight : b.isNull = false) :
    apply op a b =
      (order op a b).map fun result =>
        .boolean (result.any op.holds) := by
  rw [apply, hLeft, hRight]
  rfl

/- Values that are not two strings have the order of numbers. -/
theorem order_of_notStrings
    (op : OrderingOp)
    {a b : Value}
    (h : ¬ ∃ s t, a = .string s ∧ b = .string t) :
    order op a b =
      if a.isNumber || b.isNumber then
        match a.toNumber, b.toNumber with
        | .error e, _ => .error (.operand op.symbol e)
        | _, .error e => .error (.operand op.symbol e)
        | .ok x, .ok y => .ok (x.compare? y)
      else .error (.unordered a.typeName op b.typeName) := by
  unfold order
  split
  · rename_i s t
    exact absurd ⟨s, t, rfl, rfl⟩ h
  · rfl

/- A number or something beside it is not two strings. -/
theorem not_strings_of_isNumber
    {a b : Value}
    (h : a.isNumber = true ∨ b.isNumber = true) :
    ¬ ∃ s t, a = .string s ∧ b = .string t := by
  rintro ⟨s, t, rfl, rfl⟩
  rcases h with h | h <;> cases h

/- On values that are compared the operator is that on the order. -/
theorem Compares.apply_eq
    {a b : Value}
    {order : Option Ordering}
    (op : OrderingOp)
    (h : Compares a b order) :
    apply op a b = .ok (.boolean (order.any op.holds)) := by
  cases h with
  | strings s t => rfl
  | numbers hLeft hRight hNumber ha hb =>
      rw [apply_of_order op hLeft hRight,
        order_of_notStrings op (not_strings_of_isNumber hNumber),
        if_pos (Bool.or_eq_true _ _ ▸ hNumber), ha, hb]
      rfl

/- Values that cannot be compared are a failure. -/
theorem Unordered.apply_eq
    {a b : Value}
    (op : OrderingOp)
    (h : Unordered a b) :
    ∃ failure, apply op a b = .error failure := by
  rw [apply_of_order op h.left h.right,
    order_of_notStrings op h.notStrings]
  split
  · rename_i hNumber
    rcases h.notNumbers with ⟨ha, hb⟩ | ⟨e, ha⟩ | ⟨e, hb⟩
    · rw [ha, hb] at hNumber
      cases hNumber
    · rw [ha]
      exact ⟨_, rfl⟩
    · rw [hb]
      cases a.toNumber <;> exact ⟨_, rfl⟩
  · exact ⟨_, rfl⟩

/- Beside a number equality is that of numbers, if it can be. -/
theorem loosely_of_isNumber
    {a b : Value}
    (hLeft : a.isNull = false)
    (hRight : b.isNull = false)
    (hNumber : a.isNumber = true ∨ b.isNumber = true) :
    loosely a b =
      match a.toNumber, b.toNumber with
      | .ok x, .ok y => x.compare? y == some .eq
      | _, _ => a.equals b := by
  rcases hNumber with hNumber | hNumber
  · cases a with
    | integer m => cases b <;> first | rfl | cases hRight
    | float x => cases b <;> first | rfl | cases hRight
    | _ => cases hNumber
  · cases b with
    | integer n => cases a <;> first | rfl | cases hLeft
    | float y => cases a <;> first | rfl | cases hLeft
    | _ => cases hNumber

/- Values that are compared are equal if their order is equality. -/
theorem Compares.loosely_eq
    {a b : Value}
    {order : Option Ordering}
    (h : Compares a b order) :
    loosely a b = (order == some .eq) := by
  cases h with
  | strings s t =>
      have hSame :
          loosely (.string s) (.string t) = (s == t) := by
        simp [loosely, Value.isNumber, Value.equals]
      rw [hSame, Bool.eq_iff_iff, beq_iff_eq, beq_iff_eq,
        Option.some.injEq, ofStrings_eq_eq_iff]
  | numbers hLeft hRight hNumber ha hb =>
      rw [loosely_of_isNumber hLeft hRight hNumber, ha, hb]

/- The truth value of an operator on values that are compared. -/
theorem Compares.holds_eq
    {a b : Value}
    {order : Option Ordering}
    (op : OrderingOp)
    (h : Compares a b order) :
    holds op a b = order.any op.holds := by
  rw [holds, h.apply_eq op]
  rfl

/- There is no failure on values that are compared. -/
theorem Compares.failure?_eq
    {a b : Value}
    {order : Option Ordering}
    (op : OrderingOp)
    (h : Compares a b order) :
    failure? op a b = none := by
  rw [failure?, h.apply_eq op]

/- There is a failure just on values that cannot be compared. -/
theorem isSome_failure?_iff
    (op : OrderingOp)
    (a b : Value) :
    (failure? op a b).isSome = true ↔ Unordered a b := by
  constructor
  · intro hSome
    have hNotNull : ¬ (a.isNull = true ∨ b.isNull = true) := by
      intro hNull
      rw [failure?, apply_of_isNull op hNull] at hSome
      cases hSome
    rw [not_or, Bool.not_eq_true, Bool.not_eq_true] at hNotNull
    rcases compares_or_unordered hNotNull.1 hNotNull.2 with
      ⟨order, h⟩ | h
    · rw [h.failure?_eq op] at hSome
      cases hSome
    · exact h
  · intro h
    rcases h.apply_eq op with ⟨failure, hApply⟩
    rw [failure?, hApply]
    rfl

/- No operator holds of values that cannot be compared. -/
theorem Unordered.holds_eq
    {a b : Value}
    (op : OrderingOp)
    (h : Unordered a b) :
    holds op a b = false := by
  rcases h.apply_eq op with ⟨failure, hApply⟩
  rw [holds, hApply]

/- An operator that holds has values that are compared. -/
theorem exists_of_holds
    {op : OrderingOp}
    {a b : Value}
    (h : holds op a b = true) :
    ∃ order, Compares a b (some order) ∧ op.holds order = true := by
  have hNotNull : ¬ (a.isNull = true ∨ b.isNull = true) := by
    intro hNull
    rw [holds, apply_of_isNull op hNull] at h
    cases h
  rw [not_or, Bool.not_eq_true, Bool.not_eq_true] at hNotNull
  rcases compares_or_unordered hNotNull.1 hNotNull.2 with
    ⟨order, hCompares⟩ | hUnordered
  · rw [hCompares.holds_eq, Option.any_eq_true] at h
    rcases h with ⟨found, rfl, hHolds⟩
    exact ⟨found, hCompares, hHolds⟩
  · rw [hUnordered.holds_eq] at h
    cases h

------------------------------------------------------------
-- Laws
------------------------------------------------------------

/- The operand is taken for what is no number. -/
def TakenForNan
    (v : Value) : Prop :=
  v.toNumber = .ok (.float .nan)

/- An operator says the same of the operands exchanged. -/
theorem holds_flip
    (op : OrderingOp)
    (a b : Value) :
    holds op.flip b a = holds op a b := by
  by_cases hNull : a.isNull = true ∨ b.isNull = true
  · rw [holds, holds, apply_of_isNull op hNull,
      apply_of_isNull op.flip hNull.symm]
  · rw [not_or, Bool.not_eq_true, Bool.not_eq_true] at hNull
    rcases compares_or_unordered hNull.1 hNull.2 with
      ⟨order, h⟩ | h
    · rw [h.holds_eq, h.swap.holds_eq]
      cases order with
      | none => rfl
      | some found => exact op.holds_flip found
    · rw [h.holds_eq, h.symm.holds_eq]

/- Numbers that are compared, one of which is a number value. -/
theorem Compares.exists_numbers
    {a b : Value}
    {order : Option Ordering}
    (h : Compares a b order)
    (hNumber : a.isNumber = true ∨ b.isNumber = true) :
    ∃ x y, a.toNumber = .ok x ∧ b.toNumber = .ok y ∧
      order = x.compare? y := by
  cases h with
  | strings s t => rcases hNumber with h | h <;> cases h
  | numbers _ _ _ ha hb => exact ⟨_, _, ha, hb, rfl⟩

/- Values that are compared are not null. -/
theorem Compares.isNull_eq
    {a b : Value}
    {order : Option Ordering}
    (h : Compares a b order) :
    a.isNull = false ∧ b.isNull = false := by
  cases h with
  | strings s t => exact ⟨rfl, rfl⟩
  | numbers hLeft hRight _ _ _ => exact ⟨hLeft, hRight⟩

/- Values that are not taken for `nan` have an order. -/
theorem Compares.exists_order
    {a b : Value}
    {order : Option Ordering}
    (h : Compares a b order)
    (ha : ¬ TakenForNan a)
    (hb : ¬ TakenForNan b) :
    ∃ found, order = some found := by
  cases h with
  | strings s t => exact ⟨_, rfl⟩
  | @numbers _ _ x y _ _ _ hx hy =>
      have hNan :
          ∀ {v : Value} {z : Number}, v.toNumber = .ok z →
            ¬ TakenForNan v → z.isNan = false := by
        intro v z hz hv
        cases z with
        | integer n => rfl
        | float f =>
            cases f with
            | nan => exact absurd hz hv
            | _ => rfl
      rw [← Option.ne_none_iff_exists', Ne,
        Number.compare?_eq_none_iff, hNan hx ha, hNan hy hb]
      decide

/- Nothing is less than itself. -/
theorem less_irrefl
    (a : Value) :
    holds .less a a = false := by
  rw [Bool.eq_false_iff]
  intro hLess
  rcases exists_of_holds hLess with ⟨order, hCompares, hOrder⟩
  have hFlip : holds .greater a a = true := by
    rw [← hLess]
    exact holds_flip .less a a
  rw [hCompares.holds_eq, Option.any_some] at hFlip
  cases order with
  | lt => cases hFlip
  | eq => cases hOrder
  | gt => cases hOrder

/- Of three numbers in order the first is less than the last. -/
theorem less_trans_of_isNumber
    {a b c : Value}
    (hab : a.isNumber = true ∨ b.isNumber = true)
    (hbc : b.isNumber = true ∨ c.isNumber = true)
    (hac : a.isNumber = true ∨ c.isNumber = true)
    (hLess : holds .less a b = true)
    (hNext : holds .less b c = true) :
    holds .less a c = true := by
  rcases exists_of_holds hLess with ⟨order, hLeft, hOrder⟩
  rcases exists_of_holds hNext with ⟨order', hRight, hOrder'⟩
  obtain rfl := beq_iff_eq.1 hOrder
  obtain rfl := beq_iff_eq.1 hOrder'
  rcases hLeft.exists_numbers hab with ⟨x, y, hx, hy, hxy⟩
  rcases hRight.exists_numbers hbc with ⟨y', z, hy', hz, hyz⟩
  rw [hy] at hy'
  cases hy'
  have hCompares : Compares a c (x.compare? z) :=
    .numbers hLeft.isNull_eq.1 hRight.isNull_eq.2 hac hx hz
  rw [hCompares.holds_eq, Number.compare?_trans hxy.symm hyz.symm]
  rfl

/- Strings are less as they are in their own order. -/
theorem holds_less_strings
    (s t : String) :
    holds .less (.string s) (.string t) = true ↔ s < t := by
  rw [(Compares.strings s t).holds_eq, ← ofStrings_eq_lt_iff]
  exact beq_iff_eq

/-
  The laws of order and equality on two values.
    * `flipped`: an operator can be turned round with its operands
    * `fails`: which values are reported
    * `trichotomy`: exactly one of less, equal and greater holds
    * `negated`: the other two operators are negations
-/
structure Coherent
    (a b : Value) : Prop where
  flipped : ∀ op : OrderingOp,
    holds op a b = holds op.flip b a ∧
      (failure? op a b).isSome = (failure? op.flip b a).isSome
  fails : ∀ op : OrderingOp,
    (failure? op a b).isSome = true ↔ Unordered a b
  trichotomy :
    a.isNull = false → b.isNull = false →
    (∃ op, failure? op a b = none) →
    ¬ TakenForNan a → ¬ TakenForNan b →
      (holds .less a b).toNat + (loosely a b).toNat +
        (holds .greater a b).toNat = 1
  negated :
    a.isNull = false → b.isNull = false →
    (∃ op, failure? op a b = none) →
    ¬ TakenForNan a → ¬ TakenForNan b →
      holds .lessEqual a b = !holds .greater a b ∧
        holds .greaterEqual a b = !holds .less a b

/- Values that are not reported are compared and have an order. -/
theorem exists_compares
    {a b : Value}
    (hLeft : a.isNull = false)
    (hRight : b.isNull = false)
    (hPassed : ∃ op, failure? op a b = none)
    (ha : ¬ TakenForNan a)
    (hb : ¬ TakenForNan b) :
    ∃ order, Compares a b (some order) := by
  rcases hPassed with ⟨op, hNone⟩
  have hOrdered : ¬ Unordered a b := by
    rw [← isSome_failure?_iff op, hNone]
    exact nofun
  rcases compares_or_unordered hLeft hRight with ⟨order, h⟩ | h
  · rcases h.exists_order ha hb with ⟨found, rfl⟩
    exact ⟨found, h⟩
  · exact absurd h hOrdered

/- The laws hold of all values. -/
theorem coherent
    (a b : Value) :
    Coherent a b where
  flipped := by
    intro op
    refine ⟨(holds_flip op a b).symm, ?_⟩
    rw [Bool.eq_iff_iff, isSome_failure?_iff, isSome_failure?_iff]
    exact ⟨Unordered.symm, Unordered.symm⟩
  fails := fun op => isSome_failure?_iff op a b
  trichotomy := by
    intro hLeft hRight hPassed ha hb
    rcases exists_compares hLeft hRight hPassed ha hb with
      ⟨order, h⟩
    rw [h.holds_eq, h.holds_eq, h.loosely_eq]
    cases order <;> rfl
  negated := by
    intro hLeft hRight hPassed ha hb
    rcases exists_compares hLeft hRight hPassed ha hb with
      ⟨order, h⟩
    rw [h.holds_eq, h.holds_eq, h.holds_eq, h.holds_eq]
    cases order <;> exact ⟨rfl, rfl⟩

------------------------------------------------------------
-- Evaluation
------------------------------------------------------------

/-
  A comparison of two expressions evaluates them from left to
  right, and gives the truth value and the failure of the values
  that they have.
-/
theorem run_ordering
    (env : Environment)
    (before : Progress)
    (op : OrderingOp)
    (left right : Expr) :
    ∃ a between b after,
      (left.eval .lenient env).run before = (.ok a, between) ∧
      (right.eval .lenient env).run between = (.ok b, after) ∧
      ((Expr.binary (.ordering op) left right).eval .lenient env).run
          before =
        (.ok (.boolean (holds op a b)),
          { after with
            reports := after.reports ++
              (failure? op a b).toList.map fun failure =>
                ⟨failure, .binary (.ordering op) left right⟩
            log := after.log ++
              (failure? op a b).toList.map fun failure =>
                Diagnostic.logLine
                  ⟨failure, .binary (.ordering op) left right⟩ }) := by
  rcases left.exists_evaluates env before.nextBean with
    ⟨a, next, visits, hLeft⟩
  rcases right.exists_evaluates env next with
    ⟨b, last, others, hRight⟩
  have hOpen : (BinaryOp.ordering op).isDecidedBy a = false := rfl
  refine ⟨a, _, b, _, hLeft.run rfl, hRight.run rfl, ?_⟩
  rw [Expr.eval_binary, Evaluating.run_bind_ok (hLeft.run rfl),
    if_neg (Bool.eq_false_iff.1 hOpen),
    Evaluating.run_bind_ok (hRight.run rfl)]
  change (Evaluating.settle .lenient _ (.boolean false)
    (apply op a b)).run _ = _
  rw [Expr.run_settle, settled_apply]
  cases failure? op a b <;> rfl

/-
  An equality of two expressions evaluates them from left to
  right, and reports nothing of its own.
-/
theorem run_equal
    (env : Environment)
    (before : Progress)
    (left right : Expr) :
    ∃ a between b after,
      (left.eval .lenient env).run before = (.ok a, between) ∧
      (right.eval .lenient env).run between = (.ok b, after) ∧
      ((Expr.binary (.equality .equal) left right).eval .lenient
          env).run before =
        (.ok (.boolean (loosely a b)), after) := by
  rcases left.exists_evaluates env before.nextBean with
    ⟨a, next, visits, hLeft⟩
  rcases right.exists_evaluates env next with
    ⟨b, last, others, hRight⟩
  refine ⟨a, _, b, _, hLeft.run rfl, hRight.run rfl, ?_⟩
  rw [Expr.eval, Evaluating.run_bind_ok (hLeft.run rfl),
    Evaluating.run_bind_ok (hRight.run rfl)]
  rfl

/-
  The operators of order and of equality depend on the values of
  their operands alone, and obey the laws.  Less is irreflexive,
  and transitive on strings and on values of which at least one
  in each comparison is a number.
-/
theorem coherent_operators :
    (∀ (env : Environment) (before : Progress) (op : OrderingOp)
        (left right : Expr),
      ∃ a between b after,
        (left.eval .lenient env).run before = (.ok a, between) ∧
        (right.eval .lenient env).run between = (.ok b, after) ∧
        ((Expr.binary (.ordering op) left right).eval .lenient
            env).run before =
          (.ok (.boolean (holds op a b)),
            { after with
              reports := after.reports ++
                (failure? op a b).toList.map fun failure =>
                  ⟨failure, .binary (.ordering op) left right⟩
              log := after.log ++
                (failure? op a b).toList.map fun failure =>
                  Diagnostic.logLine
                    ⟨failure,
                      .binary (.ordering op) left right⟩ })) ∧
    (∀ (env : Environment) (before : Progress) (left right : Expr),
      ∃ a between b after,
        (left.eval .lenient env).run before = (.ok a, between) ∧
        (right.eval .lenient env).run between = (.ok b, after) ∧
        ((Expr.binary (.equality .equal) left right).eval .lenient
            env).run before =
          (.ok (.boolean (loosely a b)), after)) ∧
    (∀ a b : Value, Coherent a b) ∧
    (∀ a : Value, holds .less a a = false) ∧
    (∀ a b c : Value,
      a.isNumber = true ∨ b.isNumber = true →
      b.isNumber = true ∨ c.isNumber = true →
      a.isNumber = true ∨ c.isNumber = true →
      holds .less a b = true → holds .less b c = true →
        holds .less a c = true) ∧
    (∀ s t u : String,
      holds .less (.string s) (.string t) = true →
      holds .less (.string t) (.string u) = true →
        holds .less (.string s) (.string u) = true) := by
  refine ⟨run_ordering, run_equal, coherent, less_irrefl,
    fun _ _ _ => less_trans_of_isNumber, ?_⟩
  intro s t u
  simp only [holds_less_strings]
  exact String.lt_trans

/-
  Two integers that are rounded to one number are still in order,
  and so is a string that spells a greater number.  Beside a
  string that spells this number they are equal to it.
-/
theorem coherent_operators_rounded :
    (holds .less (.integer 9007199254740992)
        (.integer 9007199254740993) = true ∧
      holds .less (.integer 9007199254740993)
        (.string "9007199254740994.0") = true ∧
      holds .less (.integer 9007199254740992)
        (.string "9007199254740994.0") = true) ∧
    failure? .less (.integer 9007199254740993)
        (.string "9007199254740992.0") = none ∧
    (holds .less (.integer 9007199254740993)
        (.string "9007199254740992.0")).toNat +
      (loosely (.integer 9007199254740993)
        (.string "9007199254740992.0")).toNat +
      (holds .greater (.integer 9007199254740993)
        (.string "9007199254740992.0")).toNat = 1 ∧
    loosely (.integer 9007199254740993)
      (.string "9007199254740992.0") = true := by
  rcases coherent_operators with
    ⟨-, -, hCoherent, -, hNumbers, -⟩
  have hFirst :
      holds .less (.integer 9007199254740992)
        (.integer 9007199254740993) = true := by
    decide +kernel
  have hSecond :
      holds .less (.integer 9007199254740993)
        (.string "9007199254740994.0") = true := by
    decide +kernel
  have hPassed :
      failure? .less (.integer 9007199254740993)
        (.string "9007199254740992.0") = none := by
    decide +kernel
  have hNan :
      ¬ TakenForNan (.string "9007199254740992.0") := by
    unfold TakenForNan
    decide +kernel
  refine ⟨⟨hFirst, hSecond, ?_⟩, hPassed, ?_, by decide +kernel⟩
  · exact hNumbers _ _ _ (.inl rfl) (.inl rfl) (.inl rfl)
      hFirst hSecond
  · exact (hCoherent _ _).trichotomy rfl rfl ⟨.less, hPassed⟩
      nofun hNan

end Comparison

end PageExpr
