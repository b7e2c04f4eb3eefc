import PageExpr.Proofs.Syntax.Descent

/-
  What a reading takes, and how deep it goes.

  A routine that gives an expression has taken tokens, and so
  has each round of a loop.  A routine is started by another
  one either further on or, at the same token, at a tighter
  level.  So its need, which weighs the tokens ahead by the
  number of levels, is smaller than that of the routine that
  starts it, and no bound as large as the need of the first
  routine is ever exhausted.

  Main declarations:
    * `Descent.Activation.need`, `Descent.Steep`
    * `Descent.Onward`, `Descent.Halts`
    * `Descent.meets_routine`
    * `Descent.meets_descend`
    * `Descent.Frugal`, `Descent.meets_whole`
-/

namespace PageExpr

namespace Descent

open Grammar

------------------------------------------------------------
-- Needs
------------------------------------------------------------

/-
  How deep the calls within an activation can be nested: there
  are ten levels for each token that lies ahead.
-/
def Activation.need
    (a : Activation) : Nat :=
  10 * a.ahead + (10 - a.level.rank)

/- From the outermost activation to the innermost, needs fall. -/
def Steep
    (stack : List Activation) : Prop :=
  stack.IsChain fun inner outer => inner.need < outer.need

/- The last level has rank nine. -/
theorem rank_le
    (level : Level) :
    level.rank ≤ 9 := by
  cases level <;> decide

/- Further on, every level needs less. -/
theorem need_lt_of_ahead_lt
    {inner outer : Activation}
    (h : inner.ahead < outer.ahead) :
    inner.need < outer.need := by
  have hRank := rank_le outer.level
  unfold Activation.need
  omega

/- At the same token, tighter levels need less. -/
theorem need_lt_of_rank_lt
    {inner outer : Activation}
    (hAhead : inner.ahead = outer.ahead)
    (hRank : outer.level.rank < inner.level.rank) :
    inner.need < outer.need := by
  have hLast := rank_le inner.level
  unfold Activation.need
  omega

/-
  Of two nested activations of one level, the inner one has
  fewer tokens ahead.
-/
theorem Steep.pairwise
    {stack : List Activation}
    (h : Steep stack) :
    stack.Pairwise fun inner outer =>
      inner.level = outer.level → inner.ahead < outer.ahead := by
  have hNeeds : (stack.map Activation.need).Pairwise (· < ·) :=
    List.isChain_iff_pairwise.1 ((List.isChain_map _).2 h)
  refine (List.pairwise_map.1 hNeeds).imp ?_
  intro inner outer hNeed hLevel
  rw [Activation.need, Activation.need, hLevel] at hNeed
  omega

------------------------------------------------------------
-- From State to State
------------------------------------------------------------

/-
  The way from one state to another within running activations:
    * tokens are taken from the front
    * the lexer is called once for each of them
    * the activations that are started in between need less and
      less
-/
structure Onward
    (stack : List Activation)
    (s s' : State) : Prop where
  suffix : s'.ahead <:+ s.ahead
  calls :
    s'.calls + s'.ahead.length = s.calls + s.ahead.length
  running : Steep stack →
    ∀ other ∈ s'.running, other ∈ s.running ∨ Steep other

/-
  A reading that stops on its way from a state, within an
  activation that has been started with the bound:
    * the lexer has been called at most once for each token
    * the activations that were started need less and less
    * the bound is exhausted only if it is below the need
-/
structure Halts
    (bound : Nat)
    (me : Activation)
    (outer : List Activation)
    (s : State)
    (stop : Stop)
    (s' : State) : Prop where
  calls : s'.calls ≤ s.calls + s.ahead.length
  running : Steep (me :: outer) →
    ∀ other ∈ s'.running, other ∈ s.running ∨ Steep other
  exhausted : stop = .exhausted → bound < me.need

namespace Onward

/- No step is a way, too. -/
theorem refl
    (stack : List Activation)
    (s : State) :
    Onward stack s s :=
  ⟨List.suffix_refl _, rfl, fun _ _ hMem => Or.inl hMem⟩

/- On the way there are never more tokens ahead. -/
theorem length_le
    {stack : List Activation}
    {s s' : State}
    (h : Onward stack s s') :
    s'.ahead.length ≤ s.ahead.length :=
  h.suffix.length_le

/- One way behind the other. -/
theorem trans
    {stack : List Activation}
    {s s' s'' : State}
    (h : Onward stack s s')
    (h' : Onward stack s' s'') :
    Onward stack s s'' := by
  refine ⟨h'.suffix.trans h.suffix, h'.calls.trans h.calls, ?_⟩
  intro hSteep other hMem
  rcases h'.running hSteep other hMem with hMem | hOther
  · exact h.running hSteep other hMem
  · exact Or.inr hOther

/- A way that ends where the reading stops. -/
theorem halts
    {bound : Nat}
    {me : Activation}
    {outer : List Activation}
    {s s' s'' : State}
    {stop : Stop}
    (h : Onward (me :: outer) s s')
    (h' : Halts bound me outer s' stop s'') :
    Halts bound me outer s stop s'' := by
  refine ⟨h.calls ▸ h'.calls, ?_, h'.exhausted⟩
  intro hSteep other hMem
  rcases h'.running hSteep other hMem with hMem | hOther
  · exact h.running hSteep other hMem
  · exact Or.inr hOther

end Onward

------------------------------------------------------------
-- Single Tokens
------------------------------------------------------------

section Activations

variable {α : Type} {bound : Nat}
variable {me : Activation} {outer : List Activation}
variable {s₀ s : State}

/- Further on the way, with tokens taken since the second state. -/
def Takes
    (stack : List Activation)
    (s₀ s s' : State) : Prop :=
  Onward stack s₀ s' ∧ s'.ahead.length < s.ahead.length

/- What has been taken since a state on the way. -/
theorem Takes.since
    {stack : List Activation}
    {s' : State}
    (h : Takes stack s₀ s s')
    (hWay : Onward stack s₀ s) :
    Takes stack s₀ s₀ s' :=
  ⟨h.1, Nat.lt_of_lt_of_le h.2 hWay.length_le⟩

/- What has been taken since a state, step by step. -/
theorem Takes.trans
    {stack : List Activation}
    {s' s'' : State}
    (h : Takes stack s₀ s s')
    (h' : Takes stack s₀ s' s'') :
    Takes stack s₀ s s'' :=
  ⟨h'.1, Nat.lt_trans h'.2 h.2⟩

/- A token in hand is taken by calling the lexer. -/
theorem meets_take
    {token : Token}
    (h : Onward (me :: outer) s₀ s)
    (hToken : s.token? = some token) :
    Meets advance s (fun _ => Takes (me :: outer) s₀ s)
      (Halts bound me outer s₀) := by
  rcases s.stream_of_token? hToken with ⟨spanned, -, -, hStream⟩
  have hAhead : s.ahead = spanned :: s.cursor.stream.tokens := by
    rw [State.ahead, hStream]
    rfl
  refine (meets_advance s).imp ?_ ?_
  · rintro - s' ⟨hNext, hCalls, hRunning⟩
    have hTail : s.ahead = spanned :: s'.ahead := by
      rw [hAhead, State.ahead, hNext]
    refine ⟨h.trans ⟨?_, ?_, ?_⟩, ?_⟩
    · rw [hTail]
      exact List.suffix_cons _ _
    · rw [hCalls, hTail, List.length_cons]
      omega
    · rw [hRunning]
      exact fun _ _ hMem => Or.inl hMem
    · rw [hTail]
      exact Nat.lt_succ_self _
  · rintro stop s' ⟨⟨e, rfl, -⟩, hCalls, hRunning⟩
    refine h.halts ⟨?_, ?_, fun hStop => by cases hStop⟩
    · rw [hCalls, hAhead, List.length_cons]
      omega
    · rw [hRunning]
      exact fun _ _ hMem => Or.inl hMem

/- A reading may stop for an error anywhere. -/
theorem meets_reject
    {P : α → State → Prop}
    (expected : Expectation)
    (h : Onward (me :: outer) s₀ s) :
    Meets (reject expected) s P (Halts bound me outer s₀) :=
  h.halts ⟨Nat.le_add_right _ _, fun _ _ hMem => Or.inl hMem,
    fun hStop => by cases hStop⟩

/- A certain token is taken if it is in hand. -/
theorem meets_expect
    (token : Token)
    (expected : Expectation)
    (h : Onward (me :: outer) s₀ s) :
    Meets (expect token expected) s
      (fun _ => Takes (me :: outer) s₀ s)
      (Halts bound me outer s₀) := by
  refine meets_peek ?_
  split
  · rename_i hToken
    exact meets_take h hToken
  · exact meets_reject expected h

------------------------------------------------------------
-- Routines
------------------------------------------------------------

/-
  The routines that an activation calls: those that need less
  take tokens, and stop as the activation itself may.
-/
def Serves
    (bound : Nat)
    (me : Activation)
    (outer : List Activation)
    (s₀ : State)
    (call : Level → Reading Expr) : Prop :=
  ∀ {level : Level} {s : State},
    Onward (me :: outer) s₀ s → (s.activation level).need < me.need →
      Meets (call level) s (fun _ => Takes (me :: outer) s₀ s)
        (Halts bound me outer s₀)

variable {call : Level → Reading Expr}

/- Any level may be called once a token has been taken. -/
theorem Serves.behind
    (level : Level)
    (hCall : Serves bound me outer s₀ call)
    (hAhead : me.ahead = s₀.ahead.length)
    (h : Takes (me :: outer) s₀ s₀ s) :
    Meets (call level) s (fun _ => Takes (me :: outer) s₀ s)
      (Halts bound me outer s₀) :=
  hCall h.1 (need_lt_of_ahead_lt (hAhead ▸ h.2))

/- Only tighter levels may be called before that. -/
theorem Serves.tighter
    {level : Level}
    (hCall : Serves bound me outer s₀ call)
    (hAhead : me.ahead = s₀.ahead.length)
    (hRank : me.level.rank < level.rank) :
    Meets (call level) s₀ (fun _ => Takes (me :: outer) s₀ s₀)
      (Halts bound me outer s₀) :=
  hCall (.refl _ _) (need_lt_of_rank_lt hAhead.symm hRank)

/- A constant, a name or an expression in parentheses. -/
theorem meets_primary
    (hCall : Serves bound me outer s₀ call)
    (hAhead : me.ahead = s₀.ahead.length) :
    Meets (primary call) s₀ (fun _ => Takes (me :: outer) s₀ s₀)
      (Halts bound me outer s₀) := by
  have hStart := Onward.refl (me :: outer) s₀
  refine meets_peek ?_
  split
  · rename_i hToken
    refine (meets_take hStart hToken).bind fun _ s₁ h₁ => ?_
    refine (hCall.behind _ hAhead h₁).bind fun inner s₂ h₂ => ?_
    refine (meets_expect _ _ h₂.1).bind fun _ s₃ h₃ => ?_
    exact meets_pure (h₁.trans (h₂.trans h₃))
  · rename_i token _ hToken
    split
    · refine (meets_take hStart hToken).bind fun _ s₁ h₁ => ?_
      exact meets_pure h₁
    · exact meets_reject _ hStart
  · exact meets_reject _ hStart

/- Operators before an operand. -/
theorem meets_prefixed
    (hCall : Serves bound me outer s₀ call)
    (hAhead : me.ahead = s₀.ahead.length)
    (hLevel : me.level = .prefixed) :
    Meets (prefixed call) s₀ (fun _ => Takes (me :: outer) s₀ s₀)
      (Halts bound me outer s₀) := by
  refine meets_peek ?_
  split
  · rename_i op hOperator
    rcases Option.bind_eq_some_iff.1 hOperator with
      ⟨token, hToken, -⟩
    refine (meets_take (.refl _ _) hToken).bind fun _ s₁ h₁ => ?_
    refine (hCall.behind _ hAhead h₁).bind fun operand s₂ h₂ => ?_
    exact meets_pure (h₁.trans h₂)
  · exact hCall.tighter hAhead (by rw [hLevel]; decide)

/- A condition, and its branches if there are any. -/
theorem meets_conditional
    (hCall : Serves bound me outer s₀ call)
    (hAhead : me.ahead = s₀.ahead.length)
    (hLevel : me.level = .conditional) :
    Meets (conditional call) s₀
      (fun _ => Takes (me :: outer) s₀ s₀)
      (Halts bound me outer s₀) := by
  have hTighter :
      me.level.rank < Level.disjunction.rank := by
    rw [hLevel]
    decide
  refine (hCall.tighter hAhead hTighter).bind
    fun condition s₁ h₁ => ?_
  refine meets_peek ?_
  split
  · rename_i hToken
    refine (meets_take h₁.1 hToken).bind fun _ s₂ h₂ => ?_
    have hTaken := h₁.trans h₂
    refine (hCall.behind _ hAhead hTaken).bind
      fun thenBranch s₃ h₃ => ?_
    refine (meets_expect _ _ h₃.1).bind fun _ s₄ h₄ => ?_
    have hBranch := hTaken.trans (h₃.trans h₄)
    refine (hCall.behind _ hAhead hBranch).bind
      fun elseBranch s₅ h₅ => ?_
    exact meets_pure (hBranch.trans h₅)
  · exact meets_pure h₁

------------------------------------------------------------
-- Rounds
------------------------------------------------------------

/-
  A round has taken tokens if it finds something, and else it
  has done nothing.
-/
def Finds
    (stack : List Activation)
    (s₀ s : State) : Option Expr → State → Prop
  | some _, s' => Takes stack s₀ s s'
  | none, s' => s' = s

/- A subscript or a name behind an object. -/
theorem meets_accessRound
    (hCall : Serves bound me outer s₀ call)
    (hAhead : me.ahead = s₀.ahead.length)
    (h : Onward (me :: outer) s₀ s)
    (object : Expr) :
    Meets (accessRound call object) s (Finds (me :: outer) s₀ s)
      (Halts bound me outer s₀) := by
  refine meets_peek ?_
  split
  · rename_i hToken
    refine (meets_take h hToken).bind fun _ s₁ h₁ => ?_
    refine (hCall.behind _ hAhead (h₁.since h)).bind
      fun key s₂ h₂ => ?_
    refine (meets_expect _ _ h₂.1).bind fun _ s₃ h₃ => ?_
    exact meets_pure (h₁.trans (h₂.trans h₃))
  · rename_i hToken
    refine (meets_take h hToken).bind fun _ s₁ h₁ => ?_
    refine meets_peek ?_
    split
    · rename_i name hName
      refine (meets_take h₁.1 hName).bind fun _ s₂ h₂ => ?_
      exact meets_pure (h₁.trans h₂)
    · exact meets_reject _ h₁.1
  · exact meets_pure rfl

/- An operator of the level and its right operand. -/
theorem meets_binaryRound
    (hCall : Serves bound me outer s₀ call)
    (hAhead : me.ahead = s₀.ahead.length)
    (h : Onward (me :: outer) s₀ s)
    (level : Level)
    (left : Expr) :
    Meets (binaryRound call level left) s
      (Finds (me :: outer) s₀ s) (Halts bound me outer s₀) := by
  refine meets_peek ?_
  split
  · rename_i op hOperator
    rcases Option.bind_eq_some_iff.1 hOperator with
      ⟨token, hToken, -⟩
    refine (meets_take h hToken).bind fun _ s₁ h₁ => ?_
    refine (hCall.behind _ hAhead (h₁.since h)).bind
      fun right s₂ h₂ => ?_
    exact meets_pure (h₁.trans h₂)
  · exact meets_pure rfl

/- A round of any level. -/
theorem meets_round
    (hCall : Serves bound me outer s₀ call)
    (hAhead : me.ahead = s₀.ahead.length)
    (h : Onward (me :: outer) s₀ s)
    (level : Level)
    (left : Expr) :
    Meets (round call level left) s (Finds (me :: outer) s₀ s)
      (Halts bound me outer s₀) := by
  unfold round
  split
  · exact meets_accessRound hCall hAhead h left
  · exact meets_binaryRound hCall hAhead h level left

/- A first operand and all rounds behind it. -/
theorem meets_loop
    (hCall : Serves (bound + 1) me outer s₀ call)
    (hAhead : me.ahead = s₀.ahead.length)
    (hLevel : me.level ≠ .primary) :
    Meets
      (do
        let first ← call me.level.next
        rounds (round call me.level) bound first)
      s₀ (fun _ => Takes (me :: outer) s₀ s₀)
      (Halts (bound + 1) me outer s₀) := by
  have hTighter : me.level.rank < me.level.next.rank := by
    rw [Level.rank_next hLevel]
    exact Nat.lt_succ_self _
  refine (hCall.tighter hAhead hTighter).bind fun first s₁ h₁ => ?_
  -- Every round takes a token, so some are left with the rounds.
  have hStart :
      Takes (me :: outer) s₀ s₀ s₁ ∧
        s₁.ahead.length + bound ≤ s₁.ahead.length + bound :=
    ⟨h₁, Nat.le_refl _⟩
  refine meets_rounds (I := fun n _ s => Takes (me :: outer) s₀ s₀ s ∧
    s.ahead.length + bound ≤ s₁.ahead.length + n) ?_ ?_ hStart
  · rintro left s n ⟨h, hLeft⟩
    refine (meets_round hCall hAhead h.1 me.level left).imp
      (fun found s' hFound => ?_) fun _ _ hStop => hStop
    cases found with
    | none =>
        cases hFound
        exact h
    | some next =>
        have hLess := hFound.2
        exact ⟨h.trans hFound, by omega⟩
  · rintro left s ⟨h, hLeft⟩
    have hNeed : bound + 1 < me.need := by
      have hRank := rank_le me.level
      have hFirst := h₁.2
      rw [Activation.need, hAhead]
      omega
    exact h.1.halts ⟨Nat.le_add_right _ _,
      fun _ _ hMem => Or.inl hMem, fun _ => hNeed⟩

/- The routine of a level, with any other routines at hand. -/
theorem meets_routine
    (hCall : Serves (bound + 1) me outer s₀ call)
    (hAhead : me.ahead = s₀.ahead.length) :
    Meets (routine call bound me.level) s₀
      (fun _ => Takes (me :: outer) s₀ s₀)
      (Halts (bound + 1) me outer s₀) := by
  cases hLevel : me.level with
  | conditional => exact meets_conditional hCall hAhead hLevel
  | prefixed => exact meets_prefixed hCall hAhead hLevel
  | primary => exact meets_primary hCall hAhead
  | _ =>
      have hLoop := meets_loop hCall hAhead (by rw [hLevel]; decide)
      rw [hLevel] at hLoop
      exact hLoop

end Activations

------------------------------------------------------------
-- Nested Calls
------------------------------------------------------------

/- What a routine that needs less does is done on the way. -/
theorem Onward.within
    {stack : List Activation}
    {callee me : Activation}
    {s s' : State}
    (h : Onward (callee :: me :: stack) s s')
    (hNeed : callee.need < me.need) :
    Onward (me :: stack) s s' :=
  ⟨h.suffix, h.calls, fun hSteep =>
    h.running (List.isChain_cons_cons.2 ⟨hNeed, hSteep⟩)⟩

/- Where a routine that needs less stops, its caller stops. -/
theorem Halts.within
    {bound : Nat}
    {outer : List Activation}
    {callee me : Activation}
    {s s' : State}
    {stop : Stop}
    (h : Halts bound callee (me :: outer) s stop s')
    (hNeed : callee.need < me.need) :
    Halts (bound + 1) me outer s stop s' := by
  refine ⟨h.calls, fun hSteep => ?_, fun hStop => ?_⟩
  · exact h.running (List.isChain_cons_cons.2 ⟨hNeed, hSteep⟩)
  · have hBound := h.exhausted hStop
    omega

/- To be started within falling needs is a step on the way. -/
theorem onward_enter
    (stack : List Activation)
    (s : State) :
    Onward stack s { s with running := stack :: s.running } := by
  refine ⟨List.suffix_refl _, rfl, fun hSteep other hMem => ?_⟩
  rcases List.mem_cons.1 hMem with rfl | hMem
  · exact Or.inr hSteep
  · exact Or.inl hMem

/-
  A routine that gives an expression has taken tokens, and one
  that stops has called the lexer at most once for each token.
  The activations that were started in between need less and
  less, and the bound is exhausted only if it is below the need.
-/
theorem meets_descend
    (bound : Nat)
    (outer : List Activation)
    (level : Level)
    (s : State) :
    Meets (descend bound outer level) s
      (fun _ => Takes (s.activation level :: outer) s s)
      (Halts bound (s.activation level) outer s) := by
  induction bound generalizing outer level s with
  | zero =>
      have hRank := rank_le level
      have hNeed : 0 < (s.activation level).need := by
        simp only [Activation.need, State.activation]
        omega
      exact ⟨Nat.le_add_right _ _, fun _ _ hMem => Or.inl hMem,
        fun _ => hNeed⟩
  | succ bound ih =>
      let stack := s.activation level :: outer
      have hEnter := onward_enter stack s
      have hCall :
          Serves (bound + 1) (s.activation level) outer
            { s with running := stack :: s.running }
            (descend bound stack) := by
        intro inner s' hWay hNeed
        refine (ih stack inner s').imp ?_ ?_
        · intro _ s'' h
          exact ⟨hWay.trans (h.1.within hNeed), h.2⟩
        · intro stop s'' h
          exact hWay.halts (h.within hNeed)
      refine (meets_routine hCall rfl).imp ?_ ?_
      · intro _ s' h
        exact ⟨hEnter.trans h.1, h.2⟩
      · intro stop s' h
        exact hEnter.halts h

------------------------------------------------------------
-- Whole Texts
------------------------------------------------------------

/-
  What reading a text may cost: one call of the lexer for each
  character and one more, and activations that need less the
  deeper they are nested.
-/
structure Frugal
    (source : List Char)
    (s : State) : Prop where
  calls : s.calls ≤ source.length + 1
  running : ∀ stack ∈ s.running, Steep stack

/-
  No text costs more, and a bound of ten for each character and
  ten more is not exhausted.
-/
theorem meets_whole
    (bound offset : Nat)
    (source : List Char) :
    Meets (whole bound) (.start source offset)
      (fun _ => Frugal source)
      (fun stop s' => Frugal source s' ∧
        (stop = .exhausted → bound < 10 * (source.length + 1))) := by
  have hTokens :
      (Lexer.Cursor.start source offset).stream.tokens.length ≤
        source.length :=
    Lexer.Cursor.length_tokens_stream _
  have hFrugal :
      ∀ s : State, s.calls ≤ 1 → s.running = [] → Frugal source s :=
    fun s hCalls hRunning => ⟨by omega, by simp [hRunning]⟩
  refine ((meets_advance (.start source offset)).imp
    (fun _ s₁ h₁ => h₁) ?_).bind fun _ s₁ h₁ => ?_
  · rintro stop s' ⟨⟨e, rfl, -⟩, hCalls, hRunning⟩
    exact ⟨hFrugal s' hCalls.le hRunning, fun hStop => by cases hStop⟩
  · rcases h₁ with ⟨hStream, hCalls, hRunning⟩
    have hAhead : s₁.ahead.length ≤ source.length := by
      rw [State.ahead, hStream]
      exact hTokens
    have hFirst : s₁.calls = 1 := hCalls
    have hSteep : Steep [s₁.activation .conditional] :=
      List.IsChain.singleton _
    have hNone : ∀ stack, stack ∉ s₁.running := by
      rw [hRunning]
      exact fun _ => List.not_mem_nil
    refine Meets.bind (P := fun _ => Frugal source)
      ((meets_descend bound [] .conditional s₁).imp ?_ ?_)
      fun value s₂ h₂ => ?_
    · rintro value s₂ ⟨hOnward, -⟩
      have hSame := hOnward.calls
      refine ⟨by omega, fun stack hMem => ?_⟩
      exact (hOnward.running hSteep stack hMem).resolve_left
        (hNone stack)
    · intro stop s₂ h
      have hMost := h.calls
      refine ⟨⟨by omega, fun stack hMem => ?_⟩, fun hStop => ?_⟩
      · exact (h.running hSteep stack hMem).resolve_left
          (hNone stack)
      · have hNeed := h.exhausted hStop
        simp only [Activation.need, State.activation, Level.rank]
          at hNeed
        omega
    · refine meets_peek ?_
      split
      · exact meets_pure h₂
      · exact ⟨h₂, fun hStop => by cases hStop⟩

end Descent

end PageExpr
