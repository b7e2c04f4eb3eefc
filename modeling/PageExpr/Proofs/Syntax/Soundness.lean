import PageExpr.Proofs.Syntax.Completeness

/-
  Whatever the parser reads, the grammar derives.

  The invariant of a state: the tokens that have been read
  split into the openings, the pending operators of the
  innermost level, and the operand.  Each part derives what the
  state keeps of it, and each pending operator waits for an
  operand of a level that its own rule allows.

  Main declarations:
    * `Parser.operandLevel`
    * `Parser.ReadPending`
    * `Parser.ReadOpenings`
    * `Parser.Reads`
    * `Parser.reads_step`
    * `Parser.derives_of_whole`
-/

namespace PageExpr

namespace Parser

open Grammar

------------------------------------------------------------
-- The Invariant
------------------------------------------------------------

/- The level of the operand that pending operators wait for. -/
def operandLevel : List Pending → Level
  | [] => .conditional
  | .binary op _ :: _ => (levelOf op).next
  | .unary _ :: _ => .prefixed
  | .elseBranch .. :: _ => .conditional

/- The tokens of pending operators and of what they keep. -/
inductive ReadPending : List Pending → List Token → Prop where
  | nil : ReadPending [] []
  | binary
      {pending : List Pending}
      {op : BinaryOp}
      {left : Expr}
      {ts us : List Token}
      (hBelow : ReadPending pending ts)
      (hRank : (operandLevel pending).rank ≤ (levelOf op).rank)
      (hLeft : Derives (levelOf op) us left) :
      ReadPending (.binary op left :: pending)
        (ts ++ us ++ [.operator op])
  | unary
      {pending : List Pending}
      {op : UnaryOp}
      {ts : List Token}
      (hBelow : ReadPending pending ts) :
      ReadPending (.unary op :: pending) (ts ++ [prefixToken op])
  | elseBranch
      {pending : List Pending}
      {condition thenBranch : Expr}
      {ts us vs : List Token}
      (hBelow : ReadPending pending ts)
      (hRank : (operandLevel pending).rank = 0)
      (hCondition : Derives .disjunction us condition)
      (hThen : Derives .conditional vs thenBranch) :
      ReadPending (.elseBranch condition thenBranch :: pending)
        (ts ++ us ++ .question :: (vs ++ [.colon]))

/-
  The tokens of what has been opened, and of the operators that
  are pending around each opening.
-/
inductive ReadOpenings :
    List (Opening × List Pending) → List Token → Prop where
  | nil : ReadOpenings [] []
  | group
      {openings : List (Opening × List Pending)}
      {pending : List Pending}
      {ts us : List Token}
      (hOuter : ReadOpenings openings ts)
      (hPending : ReadPending pending us) :
      ReadOpenings ((.group, pending) :: openings)
        (ts ++ us ++ [.leftParen])
  | subscript
      {openings : List (Opening × List Pending)}
      {pending : List Pending}
      {object : Expr}
      {ts us vs : List Token}
      (hOuter : ReadOpenings openings ts)
      (hPending : ReadPending pending us)
      (hObject : Derives .access vs object) :
      ReadOpenings ((.subscript object, pending) :: openings)
        (ts ++ us ++ vs ++ [.leftBracket])
  | thenBranch
      {openings : List (Opening × List Pending)}
      {pending : List Pending}
      {condition : Expr}
      {ts us vs : List Token}
      (hOuter : ReadOpenings openings ts)
      (hPending : ReadPending pending us)
      (hRank : (operandLevel pending).rank = 0)
      (hCondition : Derives .disjunction vs condition) :
      ReadOpenings ((.thenBranch condition, pending) :: openings)
        (ts ++ us ++ vs ++ [.question])

/- The tokens that have been read on the way to a state. -/
inductive Reads : State → List Token → Prop where
  | operand
      {pending : List Pending}
      {openings : List (Opening × List Pending)}
      {ts us : List Token}
      (hOuter : ReadOpenings openings ts)
      (hPending : ReadPending pending us) :
      Reads (.operand ⟨pending, openings⟩) (ts ++ us)
  | property
      {pending : List Pending}
      {openings : List (Opening × List Pending)}
      {object : Expr}
      {ts us vs : List Token}
      (hOuter : ReadOpenings openings ts)
      (hPending : ReadPending pending us)
      (hObject : Derives .access vs object) :
      Reads (.property object ⟨pending, openings⟩)
        (ts ++ us ++ vs ++ [.dot])
  | complete
      {pending : List Pending}
      {openings : List (Opening × List Pending)}
      {value : Expr}
      {ts us vs : List Token}
      (hOuter : ReadOpenings openings ts)
      (hPending : ReadPending pending us)
      (hValue : Derives .access vs value) :
      Reads (.complete value ⟨pending, openings⟩) (ts ++ us ++ vs)

/- Any operand of a level of operators may be an access. -/
theorem rank_operandLevel
    (pending : List Pending) :
    (operandLevel pending).rank ≤ 7 := by
  cases pending with
  | nil => exact Nat.zero_le 7
  | cons operator rest =>
      cases operator with
      | binary op left =>
          have hRank := (rank_levelOf op).2
          have hNext := rank_next_levelOf op
          simp only [operandLevel]
          omega
      | unary op => exact Nat.le_refl 7
      | elseBranch condition thenBranch => exact Nat.zero_le 7

------------------------------------------------------------
-- Settling
------------------------------------------------------------

/-
  Settling moves tokens from the pending operators to the
  operand.  The operand becomes a phrase of the level that
  settles it, and what stays pending waits for such a phrase.
-/
theorem settle_sound
    (bound : Level)
    {pending : List Pending}
    {us : List Token}
    (hPending : ReadPending pending us)
    (hBound : bound.rank ≤ 6) :
    ∀ {level : Level} {vs : List Token} {value : Expr},
      Derives level vs value →
      (operandLevel pending).rank ≤ level.rank →
      bound.rank ≤ level.rank →
      ∃ e lower us' vs',
        settle bound.rank value pending = (e, lower) ∧
          us ++ vs = us' ++ vs' ∧
          ReadPending lower us' ∧
          Derives bound vs' e ∧
          (∀ operator ∈ lower.head?,
            operator.strength < bound.rank) := by
  induction hPending with
  | nil =>
      intro level vs value hValue _ hLevel
      exact ⟨value, [], [], vs, rfl, rfl, .nil,
        hValue.loosen _ hLevel, by simp⟩
  | @binary pending op left ts us hBelow hRank hLeft ih =>
      intro level vs value hValue hOperand hLevel
      have hStrength := strength_eq_rank op
      have hNext := rank_next_levelOf op
      by_cases hSettle : bound.rank ≤ op.strength
      · have hPhrase :
            Derives (levelOf op) (us ++ .operator op :: vs)
              (.binary op left value) :=
          .binary op rfl hLeft (hValue.loosen _ hOperand)
        rcases ih hPhrase hRank (by omega) with
          ⟨e, lower, us', vs', hEq, hTokens, hRest⟩
        refine ⟨e, lower, us', vs', ?_, ?_, hRest⟩
        · rw [settle, Pending.strength, if_pos hSettle]
          exact hEq
        · rw [← hTokens]
          simp
      · refine ⟨value, _, _, vs, ?_, rfl,
          .binary hBelow hRank hLeft, hValue.loosen _ hLevel, ?_⟩
        · rw [settle, Pending.strength, if_neg hSettle]
        · simpa [Pending.strength] using hSettle
  | @unary pending op ts hBelow ih =>
      intro level vs value hValue hOperand hLevel
      have hPhrase :
          Derives .prefixed (prefixToken op :: vs)
            (.unary op value) :=
        .unary op (hValue.loosen _ hOperand)
      have hSettle : bound.rank ≤ (Pending.unary op).strength := by
        simp only [Pending.strength]
        omega
      rcases ih hPhrase (rank_operandLevel pending) hSettle with
        ⟨e, lower, us', vs', hEq, hTokens, hRest⟩
      refine ⟨e, lower, us', vs', ?_, ?_, hRest⟩
      · rw [settle, if_pos hSettle]
        exact hEq
      · rw [← hTokens]
        simp
  | @elseBranch pending condition thenBranch ts us ws hBelow hRank
      hCondition hThen ih =>
      intro level vs value hValue hOperand hLevel
      by_cases hSettle : bound.rank ≤ 0
      · have hPhrase :
            Derives .conditional
              (us ++ .question :: (ws ++ .colon :: vs))
              (.conditional condition thenBranch value) :=
          .conditional hCondition hThen (hValue.loosen _ hOperand)
        rcases ih hPhrase (Nat.le_of_eq hRank) hSettle with
          ⟨e, lower, us', vs', hEq, hTokens, hRest⟩
        refine ⟨e, lower, us', vs', ?_, ?_, hRest⟩
        · rw [settle, Pending.strength, if_pos hSettle]
          exact hEq
        · rw [← hTokens]
          simp
      · refine ⟨value, _, _, vs, ?_, rfl,
          .elseBranch hBelow hRank hCondition hThen,
          hValue.loosen _ hLevel, ?_⟩
        · rw [settle, Pending.strength, if_neg hSettle]
        · simpa [Pending.strength] using Nat.not_le.1 hSettle

/- To settle at the loosest bound is to settle all. -/
theorem settle_zero
    (value : Expr)
    (pending : List Pending) :
    settle 0 value pending = (settleAll value pending, []) := by
  induction pending generalizing value with
  | nil => rfl
  | cons operator rest ih =>
      rw [settle, if_pos (Nat.zero_le _), ih]
      rfl

/- All pending operators give a phrase of the loosest level. -/
theorem derives_settleAll
    {pending : List Pending}
    {us vs : List Token}
    {value : Expr}
    (hPending : ReadPending pending us)
    (hValue : Derives .access vs value) :
    Derives .conditional (us ++ vs) (settleAll value pending) := by
  have hRank := rank_operandLevel pending
  rcases
      settle_sound .conditional hPending (by decide)
        hValue (Nat.le_succ_of_le hRank) (Nat.zero_le _) with
    ⟨e, lower, us', vs', hEq, hTokens, hLower, hPhrase, hTop⟩
  rw [Level.rank, settle_zero] at hEq
  rcases Prod.mk.inj hEq with ⟨rfl, rfl⟩
  cases hLower
  rw [hTokens]
  exact hPhrase

/- What stays below a settled operand waits for its level. -/
theorem rank_operandLevel_le
    {pending : List Pending}
    {bound : Nat}
    (h : ∀ operator ∈ pending.head?, operator.strength < bound) :
    (operandLevel pending).rank ≤ bound := by
  cases pending with
  | nil => exact Nat.zero_le bound
  | cons operator rest =>
      have hStrength := h operator rfl
      cases operator with
      | binary op left =>
          have hRank := strength_eq_rank op
          have hNext := rank_next_levelOf op
          simp only [Pending.strength] at hStrength
          simp only [operandLevel]
          omega
      | unary op => exact Nat.le_of_lt hStrength
      | elseBranch condition thenBranch => exact Nat.zero_le bound

/- Below a settled condition only branches are pending. -/
theorem rank_operandLevel_eq_zero
    {pending : List Pending}
    (h : ∀ operator ∈ pending.head?, operator.strength < 1) :
    (operandLevel pending).rank = 0 := by
  cases pending with
  | nil => rfl
  | cons operator rest =>
      have hStrength := h operator rfl
      cases operator with
      | binary op left =>
          have hRank := (rank_levelOf op).1
          have hEq := strength_eq_rank op
          simp only [Pending.strength] at hStrength
          omega
      | unary op => exact absurd hStrength (by simp [Pending.strength])
      | elseBranch condition thenBranch => rfl

------------------------------------------------------------
-- Steps
------------------------------------------------------------

/- The expression of a name is what the name stands for. -/
theorem derives_reference
    (name : String) :
    Derives .primary [.identifier name] (reference name) := by
  by_cases hName : ∃ object : ImplicitObject, object.name = name
  · rcases hName with ⟨object, rfl⟩
    rw [reference_eq_implicit]
    exact .implicit
  · have hNone := not_exists.1 hName
    rw [reference_eq_var hNone]
    exact .var hNone

/- A token that is an operand of its own completes one. -/
theorem reads_primary
    {stack : Stack}
    {ts : List Token}
    {token : Token}
    {value : Expr}
    (h : Reads (.operand stack) ts)
    (hValue : Derives .primary [token] value) :
    Reads (.complete value stack) (ts ++ [token]) := by
  cases h with
  | operand hOuter hPending =>
      exact .complete hOuter hPending (hValue.loosen _ (by decide))

/- An operator before its operand becomes pending. -/
theorem reads_unary
    {stack : Stack}
    {ts : List Token}
    (op : UnaryOp)
    (h : Reads (.operand stack) ts) :
    Reads (.operand (stack.push (.unary op)))
      (ts ++ [prefixToken op]) := by
  cases h with
  | operand hOuter hPending =>
      rw [List.append_assoc]
      exact .operand hOuter (.unary hPending)

/- A token where an operand is expected keeps the invariant. -/
theorem reads_stepOperand
    {stack : Stack}
    {token : Token}
    {next : State}
    {ts : List Token}
    (h : Reads (.operand stack) ts)
    (hStep : stepOperand stack token = .next next) :
    Reads next (ts ++ [token]) := by
  cases token with
  | identifier name =>
      cases hStep
      exact reads_primary h (derives_reference name)
  | leftParen =>
      cases hStep
      cases h with
      | operand hOuter hPending =>
          have hGroup := ReadOpenings.group hOuter hPending
          simpa [Stack.enter] using Reads.operand hGroup .nil
  | not =>
      cases hStep
      exact reads_unary .not h
  | empty =>
      cases hStep
      exact reads_unary .empty h
  | operator op =>
      rcases op with op | op | op | op <;> cases op <;>
        cases hStep
      exact reads_unary .negate h
  | _ =>
      cases hStep <;> exact reads_primary h (.literal rfl)

/- A name behind a dot keeps the invariant. -/
theorem reads_stepProperty
    {object : Expr}
    {stack : Stack}
    {token : Token}
    {next : State}
    {ts : List Token}
    (h : Reads (.property object stack) ts)
    (hStep : stepProperty object stack token = .next next) :
    Reads next (ts ++ [token]) := by
  unfold stepProperty at hStep
  split at hStep <;> cases hStep
  rename_i name
  cases h with
  | property hOuter hPending hObject =>
      have hAccess :
          Derives .access _
            (.access object (.literal (.string name))) :=
        .property hObject
      simpa using Reads.complete hOuter hPending hAccess

/- A token that closes a level keeps the invariant. -/
theorem reads_stepClose
    {value : Expr}
    {stack : Stack}
    {token : Token}
    {next : State}
    {ts : List Token}
    (h : Reads (.complete value stack) ts)
    (hStep : stepClose value stack token = .next next) :
    Reads next (ts ++ [token]) := by
  cases h with
  | @complete pending openings _ ts us vs hOuter hPending hValue =>
      have hInner := derives_settleAll hPending hValue
      unfold stepClose at hStep
      cases hOuter with
      | nil => cases hStep
      | group hBefore hAround =>
          cases token <;> cases hStep
          have hGroup := (Derives.group hInner).loosen .access
            (by decide)
          simpa using Reads.complete hBefore hAround hGroup
      | subscript hBefore hAround hObject =>
          cases token <;> cases hStep
          have hAccess := Derives.subscript hObject hInner
          simpa using Reads.complete hBefore hAround hAccess
      | thenBranch hBefore hAround hRank hCondition =>
          cases token <;> cases hStep
          have hBranch :=
            ReadPending.elseBranch hAround hRank hCondition hInner
          simpa [Stack.push] using Reads.operand hBefore hBranch

/- A token behind an operand keeps the invariant. -/
theorem reads_stepComplete
    {value : Expr}
    {stack : Stack}
    {token : Token}
    {next : State}
    {ts : List Token}
    (h : Reads (.complete value stack) ts)
    (hStep : stepComplete value stack token = .next next) :
    Reads next (ts ++ [token]) := by
  have hClose :
      stepClose value stack token = .next next →
        Reads next (ts ++ [token]) :=
    reads_stepClose h
  cases h with
  | @complete pending openings _ ts us vs hOuter hPending hValue =>
      have hRank := rank_operandLevel pending
      unfold stepComplete at hStep
      split at hStep
      · cases hStep
        exact .property hOuter hPending hValue
      · cases hStep
        have hSubscript :=
          ReadOpenings.subscript hOuter hPending hValue
        simpa [Stack.enter] using Reads.operand hSubscript .nil
      · rcases
            settle_sound .disjunction hPending (by decide)
              hValue (Nat.le_succ_of_le hRank) (by decide) with
          ⟨e, lower, us', vs', hEq, hTokens, hLower, hPhrase, hTop⟩
        rw [Level.rank] at hEq
        simp only [hEq] at hStep
        cases hStep
        have hBranch := ReadOpenings.thenBranch hOuter hLower
          (rank_operandLevel_eq_zero hTop) hPhrase
        rw [List.append_assoc ts us vs, hTokens]
        simpa [Stack.enter] using Reads.operand hBranch .nil
      · rename_i op
        have hOp := rank_levelOf op
        rcases
            settle_sound (levelOf op) hPending hOp.2
              hValue (Nat.le_succ_of_le hRank)
              (Nat.le_trans hOp.2 (by decide)) with
          ⟨e, lower, us', vs', hEq, hTokens, hLower, hPhrase, hTop⟩
        rw [← strength_eq_rank] at hEq
        simp only [hEq] at hStep
        cases hStep
        have hBinary := ReadPending.binary hLower
          (rank_operandLevel_le hTop) hPhrase
        rw [List.append_assoc ts us vs, hTokens]
        simpa [Stack.push] using Reads.operand hOuter hBinary
      · exact hClose hStep

/- Every token that is taken keeps the invariant. -/
theorem reads_step
    {state next : State}
    {token : Token}
    {ts : List Token}
    (h : Reads state ts)
    (hStep : step state token = .next next) :
    Reads next (ts ++ [token]) := by
  cases state with
  | operand stack => exact reads_stepOperand h hStep
  | property object stack => exact reads_stepProperty h hStep
  | complete value stack => exact reads_stepComplete h hStep

------------------------------------------------------------
-- Soundness
------------------------------------------------------------

/- The invariant holds all along the tokens. -/
theorem reads_advance?
    {state next : State}
    {ts us : List Token}
    (h : Reads state ts)
    (hAdvance : advance? state us = some next) :
    Reads next (ts ++ us) := by
  induction us generalizing state ts with
  | nil =>
      rw [advance?, Option.some.injEq] at hAdvance
      rw [List.append_nil, ← hAdvance]
      exact h
  | cons token rest ih =>
      rw [advance?] at hAdvance
      split at hAdvance
      · rename_i middle hStep
        have hRest := ih (reads_step h hStep) hAdvance
        simpa using hRest
      · cases hAdvance

/- Where the parser may stop, a whole phrase has been read. -/
theorem derives_of_finish?
    {state : State}
    {ts : List Token}
    {e : Expr}
    (h : Reads state ts)
    (hFinish : finish? state = some e) :
    Derives .conditional ts e := by
  cases h with
  | operand hOuter hPending => cases hFinish
  | property hOuter hPending hObject => cases hFinish
  | complete hOuter hPending hValue =>
      cases hOuter with
      | nil =>
          rw [finish?, Option.some.injEq] at hFinish
          rw [← hFinish, List.nil_append]
          exact derives_settleAll hPending hValue
      | group => cases hFinish
      | subscript => cases hFinish
      | thenBranch => cases hFinish

/- A stream that is read has tokens that the grammar derives. -/
theorem derives_of_whole
    {tokens : List SpannedToken}
    {position : Nat}
    {e : Expr}
    (h : whole ⟨tokens, .complete position⟩ = .ok e) :
    Derives .conditional (kinds tokens) e := by
  rcases (whole_eq_ok_iff tokens position e).1 h with
    ⟨state, hAdvance, hFinish⟩
  have hStart : Reads (.operand .bottom) ([] ++ []) :=
    .operand .nil .nil
  exact derives_of_finish? (reads_advance? hStart hAdvance) hFinish

end Parser

end PageExpr
