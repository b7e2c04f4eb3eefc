import PageExpr.Proofs.Syntax.Grammar

/-
  Whatever the grammar derives, the parser reads.

  The invariant of a derivation at a level: reading its tokens
  leaves some operators pending on top of those that were
  pending before.  They bind at least as tightly as the level,
  and applying them gives the derived expression.

  Main declarations:
    * `Parser.advance?`
    * `Parser.whole_eq_ok_iff`
    * `Parser.Leaves`
    * `Parser.leaves_of_derives`
    * `Parser.whole_of_derives`
-/

namespace PageExpr

namespace Parser

open Grammar

------------------------------------------------------------
-- Reading Tokens
------------------------------------------------------------

/- The state behind tokens, if the parser takes all of them. -/
def advance? : State → List Token → Option State
  | state, [] => some state
  | state, token :: rest =>
      match step state token with
      | .next state => advance? state rest
      | _ => none

/- The tokens of a stream without texts and positions. -/
def kinds
    (tokens : List SpannedToken) : List Token :=
  tokens.map SpannedToken.token

/- A token that is taken leads to the next state. -/
theorem advance?_cons
    {state state' : State}
    {token : Token}
    (rest : List Token)
    (h : step state token = .next state') :
    advance? state (token :: rest) = advance? state' rest := by
  simp [advance?, h]

/- Tokens are read one part after the other. -/
theorem advance?_append
    {state state' : State}
    {ts : List Token}
    (us : List Token)
    (h : advance? state ts = some state') :
    advance? state (ts ++ us) = advance? state' us := by
  induction ts generalizing state with
  | nil =>
      rw [advance?, Option.some.injEq] at h
      rw [List.nil_append, h]
  | cons token rest ih =>
      rw [advance?] at h
      split at h
      · rename_i next hStep
        rw [List.cons_append, advance?_cons _ hStep]
        exact ih h
      · cases h

/-
  A complete stream is read as a whole exactly if the parser
  takes all of its tokens and may stop behind them.
-/
theorem whole_eq_ok_iff
    (tokens : List SpannedToken)
    (position : Nat)
    (e : Expr) :
    whole ⟨tokens, .complete position⟩ = .ok e ↔
      ∃ state,
        advance? (.operand .bottom) (kinds tokens) = some state ∧
          finish? state = some e := by
  unfold whole expression
  generalize State.operand .bottom = start
  induction tokens generalizing start with
  | nil =>
      simp only [run, kinds, List.map_nil, advance?,
        Option.some.injEq, exists_eq_left']
      cases finish? start <;> simp
  | cons spanned rest ih =>
      simp only [run, kinds, List.map_cons, advance?]
      cases hStep : step start spanned.token with
      | next state => exact ih state
      | finished value => simp
      | refused expected => simp

------------------------------------------------------------
-- Pending Operators
------------------------------------------------------------

/-
  A phrase of the level may follow the pending operators: none
  of its own operators applies them too early.  Phrases from
  the operators before an operand on apply none at all.
-/
def Fits
    (level : Level)
    (pending : List Pending) : Prop :=
  7 ≤ level.rank ∨
    ∀ operator ∈ pending.head?,
      operator.strength < max 1 level.rank

/- A phrase fits at the start of a level of pending operators. -/
theorem fits_nil
    (level : Level) :
    Fits level [] :=
  Or.inr (by simp)

/- What fits a level fits all tighter ones. -/
theorem Fits.tighten
    {loose tight : Level}
    {pending : List Pending}
    (h : Fits loose pending)
    (hRank : loose.rank ≤ tight.rank) :
    Fits tight pending := by
  rcases h with h | h
  · exact Or.inl (by omega)
  · refine Or.inr ?_
    intro operator hMem
    have hStrength := h operator hMem
    omega

/- The right operand of a binary operator fits behind it. -/
theorem fits_binary
    (op : BinaryOp)
    (left : Expr)
    (pending : List Pending) :
    Fits (levelOf op).next (.binary op left :: pending) := by
  refine Or.inr ?_
  intro operator hMem
  rw [List.head?_cons, Option.mem_some_iff] at hMem
  subst hMem
  have hStrength := strength_eq_rank op
  have hNext := rank_next_levelOf op
  simp only [Pending.strength]
  omega

/- Settling stops at an operator that binds looser. -/
theorem settle_append
    {bound : Nat}
    {upper lower : List Pending}
    (value : Expr)
    (hUpper : ∀ operator ∈ upper, bound ≤ operator.strength)
    (hLower : ∀ operator ∈ lower.head?, operator.strength < bound) :
    settle bound value (upper ++ lower) =
      (settleAll value upper, lower) := by
  induction upper generalizing value with
  | nil =>
      cases lower with
      | nil => rfl
      | cons operator rest =>
          have hStrength := hLower operator rfl
          have hNot : ¬ bound ≤ operator.strength := by omega
          simp [settle, settleAll, hNot]
  | cons operator rest ih =>
      have hHead := hUpper operator List.mem_cons_self
      have hRest := ih (operator.apply value)
        fun other hMem =>
          hUpper other (List.mem_cons_of_mem _ hMem)
      rw [List.cons_append, settle, if_pos hHead, hRest]
      rfl

/- A question mark settles the condition before it. -/
theorem step_question
    {value condition : Expr}
    {pending lower : List Pending}
    {openings : List (Opening × List Pending)}
    (h : settle 1 value pending = (condition, lower)) :
    step (.complete value ⟨pending, openings⟩) .question =
      .next (.operand
        (.enter (.thenBranch condition) ⟨lower, openings⟩)) := by
  simp [step, stepComplete, h]

/- A binary operator settles its left operand. -/
theorem step_operator
    {value left : Expr}
    {pending lower : List Pending}
    {openings : List (Opening × List Pending)}
    {op : BinaryOp}
    (h : settle op.strength value pending = (left, lower)) :
    step (.complete value ⟨pending, openings⟩) (.operator op) =
      .next (.operand
        (.push (.binary op left) ⟨lower, openings⟩)) := by
  simp [step, stepComplete, h]

/- The operators above one are applied before it. -/
theorem settleAll_append_singleton
    (value : Expr)
    (upper : List Pending)
    (operator : Pending) :
    settleAll value (upper ++ [operator]) =
      operator.apply (settleAll value upper) := by
  simp [settleAll]

/- No operator binds as tightly as an access. -/
theorem strength_le
    (operator : Pending) :
    operator.strength ≤ 7 := by
  cases operator with
  | binary op left =>
      have hRank := (rank_levelOf op).2
      have hStrength := strength_eq_rank op
      simp only [Pending.strength]
      omega
  | unary op => exact Nat.le_refl 7
  | elseBranch condition thenBranch => exact Nat.zero_le 7

------------------------------------------------------------
-- Completeness
------------------------------------------------------------

/-
  Reading the tokens where an operand is expected leaves
  operators that bind at least as tightly as the level, and
  that give the expression when they are applied.
-/
def Leaves
    (level : Level)
    (ts : List Token)
    (e : Expr)
    (stack : Stack) : Prop :=
  ∃ value upper,
    advance? (.operand stack) ts =
        some (.complete value
          ⟨upper ++ stack.pending, stack.openings⟩) ∧
      (∀ operator ∈ upper, level.rank ≤ operator.strength) ∧
        settleAll value upper = e

/- A phrase as tight as an access leaves nothing pending. -/
theorem Leaves.advance?_eq
    {level : Level}
    {ts : List Token}
    {e : Expr}
    {stack : Stack}
    (h : Leaves level ts e stack)
    (hRank : 8 ≤ level.rank) :
    advance? (.operand stack) ts = some (.complete e stack) := by
  rcases h with ⟨value, upper, hRead, hUpper, rfl⟩
  cases upper with
  | nil => exact hRead
  | cons operator rest =>
      have hTight := hUpper operator List.mem_cons_self
      have hLoose := strength_le operator
      omega

/- A phrase that is read at once leaves nothing pending. -/
theorem leaves_of_advance?_eq
    {level : Level}
    {ts : List Token}
    {e : Expr}
    {stack : Stack}
    (h : advance? (.operand stack) ts = some (.complete e stack)) :
    Leaves level ts e stack :=
  ⟨e, [], h, by simp, rfl⟩

/-
  An operator whose last operand is a phrase on top of it gives
  a phrase on top of what was pending below.
-/
theorem Leaves.under
    {outer inner : Level}
    {ts us : List Token}
    {e : Expr}
    {stack : Stack}
    {operator : Pending}
    (h : Leaves inner us e (stack.push operator))
    (hRead :
      advance? (.operand stack) (ts ++ us) =
        advance? (.operand (stack.push operator)) us)
    (hOuter : outer.rank ≤ operator.strength)
    (hInner : outer.rank ≤ inner.rank) :
    Leaves outer (ts ++ us) (operator.apply e) stack := by
  rcases h with ⟨value, upper, hUs, hUpper, rfl⟩
  refine ⟨value, upper ++ [operator], ?_, ?_, ?_⟩
  · rw [hRead, hUs]
    simp [Stack.push]
  · intro other hMem
    rcases List.mem_append.1 hMem with hMem | hMem
    · exact Nat.le_trans hInner (hUpper other hMem)
    · rw [List.mem_singleton.1 hMem]
      exact hOuter
  · exact settleAll_append_singleton value upper operator

/- The strength of a binary operator stops at looser ones. -/
theorem Fits.lt_bound
    {level : Level}
    {pending : List Pending}
    {bound : Nat}
    (h : Fits level pending)
    (hLevel : level.rank ≤ 6)
    (hBound : max 1 level.rank = bound) :
    ∀ operator ∈ pending.head?, operator.strength < bound := by
  intro operator hMem
  rcases h with h | h
  · omega
  · exact hBound ▸ h operator hMem

/- A conditional is read if its three operands are. -/
theorem leaves_conditional
    {cs ts es : List Token}
    {c t e : Expr}
    {stack : Stack}
    (hFits : Fits .conditional stack.pending)
    (hCondition : Leaves .disjunction cs c stack)
    (hThen :
      ∀ stack : Stack, Fits .conditional stack.pending →
        Leaves .conditional ts t stack)
    (hElse :
      ∀ stack : Stack, Fits .conditional stack.pending →
        Leaves .conditional es e stack) :
    Leaves .conditional
      (cs ++ .question :: (ts ++ .colon :: es))
      (.conditional c t e) stack := by
  rcases hCondition with ⟨value, upper, hRead, hUpper, rfl⟩
  have hSettle :
      settle 1 value (upper ++ stack.pending) =
        (settleAll value upper, stack.pending) :=
    settle_append value hUpper (hFits.lt_bound (by decide) rfl)
  generalize settleAll value upper = c at hSettle
  rcases hThen (stack.enter (.thenBranch c)) (fits_nil _) with
    ⟨inner, above, hInner, -, rfl⟩
  have hLast := hElse
    (stack.push (.elseBranch c (settleAll inner above)))
    (Or.inr (by simp [Stack.push, Pending.strength, Level.rank]))
  have hTokens :
      cs ++ .question :: (ts ++ .colon :: es) =
        (cs ++ .question :: (ts ++ [.colon])) ++ es := by
    simp
  rw [hTokens]
  refine hLast.under ?_ (Nat.zero_le _) (Nat.zero_le _)
  rw [← hTokens, advance?_append _ hRead,
    advance?_cons _ (step_question hSettle),
    advance?_append _ hInner]
  exact advance?_cons _
    (by simp [step, stepComplete, stepClose, Stack.enter])

/- A binary operation is read if both operands are. -/
theorem leaves_binary
    {ls rs : List Token}
    {l r : Expr}
    {stack : Stack}
    (op : BinaryOp)
    (hFits : Fits (levelOf op) stack.pending)
    (hLeft : Leaves (levelOf op) ls l stack)
    (hRight :
      ∀ stack : Stack, Fits (levelOf op).next stack.pending →
        Leaves (levelOf op).next rs r stack) :
    Leaves (levelOf op) (ls ++ .operator op :: rs)
      (.binary op l r) stack := by
  have hRank := rank_levelOf op
  have hNext := rank_next_levelOf op
  have hStrength := strength_eq_rank op
  rcases hLeft with ⟨value, upper, hRead, hUpper, rfl⟩
  have hSettle :
      settle op.strength value (upper ++ stack.pending) =
        (settleAll value upper, stack.pending) :=
    settle_append value
      (fun operator hMem => hStrength ▸ hUpper operator hMem)
      (hFits.lt_bound hRank.2 (by omega))
  generalize settleAll value upper = l at hSettle
  have hLast := hRight (stack.push (.binary op l))
    (fits_binary op l stack.pending)
  have hTokens :
      ls ++ .operator op :: rs = (ls ++ [.operator op]) ++ rs := by
    simp
  rw [hTokens]
  refine hLast.under ?_ (Nat.le_of_eq hStrength.symm) (by omega)
  rw [← hTokens, advance?_append _ hRead]
  exact advance?_cons _ (step_operator hSettle)

/- A name is read as what it refers to. -/
theorem leaves_reference
    (level : Level)
    (name : String)
    (stack : Stack) :
    Leaves level [.identifier name] (reference name) stack :=
  leaves_of_advance?_eq rfl

/- A name that no implicit object bears refers to a variable. -/
theorem reference_eq_var
    {name : String}
    (h : ∀ object : ImplicitObject, object.name ≠ name) :
    reference name = .var name := by
  unfold reference
  cases hSome : ImplicitObject.ofName? name with
  | none => rfl
  | some object =>
      rw [ImplicitObject.ofName?_eq_some_iff] at hSome
      exact absurd hSome (h object)

/- The name of an implicit object refers to the object. -/
theorem reference_eq_implicit
    (object : ImplicitObject) :
    reference object.name = .implicit object := by
  rw [reference, ImplicitObject.ofName?_name]

/- Every phrase of a level is read where it fits. -/
theorem leaves_of_derives
    {level : Level}
    {ts : List Token}
    {e : Expr}
    (h : Derives level ts e) :
    ∀ stack : Stack, Fits level stack.pending →
      Leaves level ts e stack := by
  induction h with
  | conditional _ _ _ ihCondition ihThen ihElse =>
      intro stack hFits
      have hCondition :=
        ihCondition stack (hFits.tighten (Nat.zero_le 1))
      exact leaves_conditional hFits hCondition ihThen ihElse
  | binary op hLevel _ _ ihLeft ihRight =>
      intro stack hFits
      subst hLevel
      exact leaves_binary op hFits (ihLeft stack hFits) ihRight
  | @unary ts e op _ ih =>
      intro stack _
      have hOperand := ih (stack.push (.unary op))
        (Or.inl (Nat.le_refl 7))
      have hRead :
          advance? (.operand stack) ([prefixToken op] ++ ts) =
            advance? (.operand (stack.push (.unary op))) ts := by
        apply advance?_cons
        cases op <;> rfl
      exact hOperand.under hRead (Nat.le_refl 7) (Nat.le_refl 7)
  | @subscript os ks o k _ _ ihObject ihKey =>
      intro stack _
      apply leaves_of_advance?_eq
      have hObject :=
        (ihObject stack (Or.inl (by decide))).advance?_eq
          (by decide)
      rcases ihKey (stack.enter (.subscript o)) (fits_nil _) with
        ⟨value, upper, hRead, -, rfl⟩
      rw [advance?_append _ hObject, advance?_cons _ rfl,
        advance?_append _ hRead]
      simp [advance?, step, stepComplete, stepClose, Stack.enter]
  | @property os o name _ ihObject =>
      intro stack _
      apply leaves_of_advance?_eq
      have hObject :=
        (ihObject stack (Or.inl (by decide))).advance?_eq
          (by decide)
      rw [advance?_append _ hObject]
      rfl
  | @literal token value hConstant =>
      intro stack _
      apply leaves_of_advance?_eq
      cases token <;> cases hConstant <;> rfl
  | @implicit object =>
      intro stack _
      rw [← reference_eq_implicit object]
      exact leaves_reference _ object.name stack
  | @var name hName =>
      intro stack _
      rw [← reference_eq_var hName]
      exact leaves_reference _ name stack
  | @group ts e _ ih =>
      intro stack _
      apply leaves_of_advance?_eq
      rcases ih (stack.enter .group) (fits_nil _) with
        ⟨value, upper, hRead, -, rfl⟩
      rw [advance?_cons _ rfl, advance?_append _ hRead]
      simp [advance?, step, stepComplete, stepClose, Stack.enter]
  | @tighter level ts e hLevel _ ih =>
      intro stack hFits
      have hRank := Level.rank_next hLevel
      rcases ih stack (hFits.tighten (by omega)) with
        ⟨value, upper, hRead, hUpper, hValue⟩
      refine ⟨value, upper, hRead, ?_, hValue⟩
      intro operator hMem
      have hTight := hUpper operator hMem
      omega

/- A stream whose tokens the grammar derives is read. -/
theorem whole_of_derives
    {tokens : List SpannedToken}
    {e : Expr}
    (position : Nat)
    (h : Derives .conditional (kinds tokens) e) :
    whole ⟨tokens, .complete position⟩ = .ok e := by
  rcases leaves_of_derives h .bottom (fits_nil _) with
    ⟨value, upper, hRead, -, rfl⟩
  rw [whole_eq_ok_iff]
  refine ⟨_, hRead, ?_⟩
  simp [finish?, Stack.bottom]

end Parser

end PageExpr
