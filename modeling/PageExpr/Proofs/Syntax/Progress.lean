import PageExpr.Proofs.Syntax.TemplateScan

/-
  Reading makes progress, and comes to an end.

  A call of the lexer that gives a token passes over characters
  of the text.  A routine that gives an expression, and a round
  of its loop, takes tokens.  A round that goes through a
  template moves its index forward.  So whatever a text has in
  it, a bound that is ten times as large as the number of its
  characters, and ten more, is enough to read it, and what is
  found within that bound is what the text has.

  Main declarations:
    * `Lexer.Cursor.MovesOn`
    * `Descent.Consumes`, `Descent.MovesOn`, `Descent.Ends`
    * `Template.MovesOn`, `Template.Ends`
    * `Template.reading_terminates`
-/

namespace PageExpr

------------------------------------------------------------
-- The Lexer
------------------------------------------------------------

namespace Lexer

namespace Cursor

/-
  A call that gives a token has moved forward within the text.
  One that finds the end has not moved beyond it.
-/
structure MovesOn : Prop where
  token :
    ∀ {cursor behind : Cursor} {spanned : SpannedToken},
      cursor.next = .ok (.token spanned, behind) →
        behind.input = cursor.input ∧
          cursor.position < behind.position ∧
          behind.position ≤ cursor.input.length
  finish :
    ∀ {cursor behind : Cursor} {position : Nat},
      cursor.next = .ok (.finish position, behind) →
        behind.input = cursor.input ∧
          cursor.position ≤ behind.position ∧
          behind.position ≤ max cursor.position cursor.input.length

/- Every call does so. -/
theorem movesOn : MovesOn := by
  constructor
  · intro cursor behind spanned hNext
    have hReads := cursor.reads_next
    rw [hNext] at hReads
    cases hReads with
    | token _ hForward hWithin hInput =>
        exact ⟨hInput, hForward, hWithin⟩
  · intro cursor behind position hNext
    have hReads := cursor.reads_next
    rw [hNext] at hReads
    cases hReads with
    | finish _ hForward hWithin hInput =>
        exact ⟨hInput, hForward, hWithin⟩

/- One call more than there are characters finds all tokens. -/
theorem drain_start
    (source : List Char)
    (offset : Nat) :
    drain (source.length + 1) (.start source offset) =
      some (tokenize source offset) :=
  drain_eq_stream (Nat.lt_succ_self _)

end Cursor

end Lexer

------------------------------------------------------------
-- Recursive Descent
------------------------------------------------------------

namespace Descent

open Grammar

/-
  From one state to another, at least one token is taken, and
  the lexer is called once for each token that is.
-/
def Consumes
    (s s' : State) : Prop :=
  ∃ taken, taken ≠ [] ∧ s.ahead = taken ++ s'.ahead ∧
    s'.calls = s.calls + taken.length

/-
  In any state and within any activations:
    * a routine that gives an expression consumes tokens
    * a round of a loop that goes on consumes tokens
    * a routine is given up only for a bound that is less than
      ten times the number of tokens ahead, and ten more
-/
structure MovesOn : Prop where
  routine :
    ∀ {bound : Nat} {outer : List Activation} {level : Level}
      {value : Expr} {s s' : State},
      descend bound outer level s = .ok value s' → Consumes s s'
  round :
    ∀ {bound : Nat} {running : List Activation} {level : Level}
      {left next : Expr} {s s' : State},
      round (descend bound running) level left s =
          .ok (some next) s' →
        Consumes s s'
  exhausted :
    ∀ {bound : Nat} {outer : List Activation} {level : Level}
      {s s' : State},
      descend bound outer level s = .error .exhausted s' →
        bound < 10 * (s.ahead.length + 1)

/- What has been taken on the way has been consumed. -/
theorem Takes.consumes
    {stack : List Activation}
    {s s' : State}
    (h : Takes stack s s s') :
    Consumes s s' := by
  rcases h with ⟨hWay, hLess⟩
  rcases hWay.suffix with ⟨taken, hTaken⟩
  have hLength :
      s.ahead.length = taken.length + s'.ahead.length := by
    rw [← hTaken, List.length_append]
  have hCalls := hWay.calls
  refine ⟨taken, ?_, hTaken.symm, by omega⟩
  rintro rfl
  simp only [List.length_nil] at hLength
  omega

/- Whatever is running, a round that goes on takes tokens. -/
theorem takes_of_round
    {bound : Nat}
    {running : List Activation}
    {level : Level}
    {left next : Expr}
    {s s' : State}
    (h : round (descend bound running) level left s =
      .ok (some next) s') :
    ∃ stack, Takes stack s s s' := by
  -- Nothing is asked of what runs within needs that do not fall.
  let me := s.activation level
  have hFlat : ¬ Steep [me, me] := by
    simp [Steep]
  have hCall :
      Serves (bound + 1) me [me] s (descend bound running) := by
    intro inner s₁ hWay hNeed
    refine (meets_descend bound running inner s₁).imp ?_ ?_
    · intro _ s₂ h₂
      exact ⟨hWay.trans ⟨h₂.1.suffix, h₂.1.calls,
        fun hSteep => absurd hSteep hFlat⟩, h₂.2⟩
    · intro stop s₂ h₂
      refine hWay.halts ⟨h₂.calls,
        fun hSteep => absurd hSteep hFlat, fun hStop => ?_⟩
      have hBound := h₂.exhausted hStop
      omega
  exact ⟨_, (meets_round hCall rfl (.refl _ _) level left).of_ok h⟩

/- Every routine and every round does so. -/
theorem movesOn : MovesOn := by
  refine ⟨fun h => ?_, fun h => ?_, fun h => ?_⟩
  · exact ((meets_descend _ _ _ _).of_ok h).consumes
  · rcases takes_of_round h with ⟨stack, hTakes⟩
    exact hTakes.consumes
  · have hBound := ((meets_descend _ _ _ _).of_error h).exhausted rfl
    simp only [Activation.need, State.activation] at hBound
    omega

/-
  Reading an expression of so many characters:
    * the lexer is called at most once for each of them and once
      more
    * between two activations of one routine, the one within the
      other, tokens are taken
    * a bound of ten for each character and ten more is enough
      to find what the text has
-/
structure Ends
    (offset : Nat)
    (source : List Char) : Prop where
  calls :
    ∀ bound,
      (final (parse bound offset source)).calls ≤ source.length + 1
  nested :
    ∀ bound, ∀ stack ∈ (final (parse bound offset source)).running,
      stack.Pairwise fun inner outer =>
        inner.level = outer.level → inner.ahead < outer.ahead
  outcome :
    ∀ bound, 10 * (source.length + 1) ≤ bound →
      outcome (parse bound offset source) =
        (Expr.parseAt offset source).mapError .rejected

/- Every text is read so. -/
theorem ends
    (offset : Nat)
    (source : List Char) :
    Ends offset source := by
  have hFrugal :
      ∀ bound, Frugal source (final (parse bound offset source)) :=
    fun bound => ((meets_whole bound offset source).imp
      (fun _ _ h => h) fun _ _ h => h.1).final
  refine
    { calls := fun bound => (hFrugal bound).calls
      nested := fun bound stack hMem =>
        ((hFrugal bound).running stack hMem).pairwise
      outcome := fun bound hBound => ?_ }
  refine (((meets_whole bound offset source).and
    (agrees_whole bound offset source)).imp
    (fun _ _ h => h.2) fun stop s h => ?_).outcome_eq
  refine ⟨h.2, fun hStop => ?_⟩
  have hLess := h.1.2 hStop
  omega

end Descent

------------------------------------------------------------
-- Templates
------------------------------------------------------------

namespace Template

open Descent Grammar

/-
  Each round of the search for a brace moves its index forward,
  and so does each round that goes through a template, within
  the text.
-/
structure MovesOn : Prop where
  search :
    ∀ {c : Char} {search next : BraceSearch},
      search.round c = some next → search.index < next.index
  scan :
    ∀ {bound : Nat} {text : List Char} {c : Char}
      {scan scan' : Scan},
      text[scan.index]? = some c →
      Scan.round bound text c scan = .ok () scan' →
        scan.index < scan'.index ∧ scan'.index ≤ text.length

/- Every round does so. -/
theorem movesOn : MovesOn := by
  refine ⟨BraceSearch.index_lt_of_round, fun hChar h => ?_⟩
  have hMoves := (Scan.meets_round hChar).of_ok h
  exact ⟨hMoves.forward, hMoves.within⟩

/-
  Reading a template of so many characters:
    * one round for each of them and one more are enough to find
      the closing brace from anywhere, if there is one
    * for each expression, the lexer is called at most once for
      each character and once more
    * a bound of ten for each character and ten more is enough
      to find the template
-/
structure Ends
    (text : String) : Prop where
  search :
    ∀ index,
      BraceSearch.run text.toList (text.length + 1) ⟨index, none⟩ =
        some ((closingBrace? none (text.toList.drop index)).map
          (index + ·))
  calls :
    ∀ bound,
      ∀ calls ∈ (final (Scan.template bound text.toList .start)).calls,
        calls ≤ text.length + 1
  outcome :
    ∀ bound, 10 * (text.length + 1) ≤ bound →
      outcome (Scan.template bound text.toList .start) =
        (parse text).mapError .rejected

/- Every template is read so. -/
theorem ends
    (text : String) :
    Ends text := by
  have hLength : text.toList.length = text.length :=
    String.length_toList
  refine
    { search := fun index => ?_
      calls := fun bound calls hMem => ?_
      outcome := fun bound hBound => ?_ }
  · rcases BraceSearch.run_cases text.toList (text.length + 1)
      ⟨index, none⟩ with hFound | ⟨-, hShort⟩
    · exact hFound
    · omega
  · have hWithin :=
      ((Scan.meets_template bound text.toList).imp
        (fun _ _ h => h.2) fun _ _ h => h.2.1).final
    have hNone : calls ∉ Scan.start.calls := List.not_mem_nil
    rw [← hLength]
    exact (hWithin calls hMem).resolve_left hNone
  · refine ((Scan.meets_template bound text.toList).imp
      (fun _ _ h => h.1) fun stop scan h => ?_).outcome_eq
    refine ⟨h.1, fun hStop => ?_⟩
    have hLess := h.2.2 hStop
    omega

/-
  Lexing, recursive descent and going through a template make
  progress with each call and in each round.  On any text, well
  formed or not, they come to their end within bounds that grow
  linearly with the text, and find what it has.
-/
theorem reading_terminates
    (text : String)
    (offset : Nat) :
    Lexer.Cursor.MovesOn ∧ Descent.MovesOn ∧ Template.MovesOn ∧
      Lexer.Cursor.drain (text.length + 1)
          (.start text.toList offset) =
        some (Lexer.tokenize text.toList offset) ∧
      Descent.Ends offset text.toList ∧
      Template.Ends text := by
  refine ⟨Lexer.Cursor.movesOn, Descent.movesOn, Template.movesOn,
    ?_, Descent.ends offset text.toList, Template.ends text⟩
  rw [← String.length_toList]
  exact Lexer.Cursor.drain_start text.toList offset

/-
  A text that ends inside a parenthesis inside a subscript: the
  routine of conditions runs within itself twice, further on
  each time.
-/
theorem reading_terminates_open :
    (∃ s s' : State,
        descend 20 [] .access s =
            .ok (.access (.var "a") (.literal (.string "b"))) s' ∧
          s.ahead.length = 3 ∧ Consumes s s') ∧
      outcome (Descent.parse 40 0 "a[(".toList) =
        .error (.rejected (.unexpectedEnd 3)) ∧
      (∃ stack ∈ (final (Descent.parse 40 0 "a[(".toList)).running,
        (stack.filter (·.level = .conditional)).map (·.ahead) =
            [0, 1, 3] ∧
          stack.Pairwise fun inner outer =>
            inner.level = outer.level → inner.ahead < outer.ahead) ∧
      outcome (Scan.template 50 "$\x7ba[".toList .start) =
        .error (.rejected (.unterminated 0)) := by
  rcases reading_terminates "a[(" 0 with
    ⟨-, hMovesOn, -, -, hDescent, -⟩
  rcases reading_terminates "$\x7ba[" 0 with
    ⟨-, -, -, -, -, hTemplate⟩
  refine ⟨?_, ?_, ?_, ?_⟩
  · let s : State :=
      ⟨⟨"a.b".toList, 1, 0⟩, .token ⟨.identifier "a", "a", 0⟩, 1, []⟩
    have hRun :
        ∃ s', descend 20 [] .access s =
          .ok (.access (.var "a") (.literal (.string "b"))) s' :=
      ⟨_, rfl⟩
    rcases hRun with ⟨s', hRun⟩
    exact ⟨s, s', hRun, rfl, hMovesOn.routine hRun⟩
  · have hTokens :
        Lexer.tokenize "a[(".toList 0 =
          ⟨[⟨.identifier "a", "a", 0⟩, ⟨.leftBracket, "[", 1⟩,
            ⟨.leftParen, "(", 2⟩], .complete 3⟩ := by
      decide +kernel
    rw [hDescent.outcome 40 (by decide), Expr.parseAt, hTokens]
    rfl
  · have hStack :
        ∃ stack ∈ (final (Descent.parse 40 0 "a[(".toList)).running,
          (stack.filter (·.level = .conditional)).map (·.ahead) =
            [0, 1, 3] := by
      decide +kernel
    rcases hStack with ⟨stack, hMem, hAhead⟩
    exact ⟨stack, hMem, hAhead, hDescent.nested 40 stack hMem⟩
  · rw [hTemplate.outcome 50 (by decide)]
    rfl

end Template

end PageExpr
