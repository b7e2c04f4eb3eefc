import PageExpr.Proofs.Syntax.Scanning

/-
  Tokens and the gaps between them.

  The tokens of a text stand in it one behind the other, and
  between them there is nothing but white space.  Each of them
  stands on its own, so with other gaps between them the same
  tokens are found again.

  Main declarations:
    * `Lexer.Blank`
    * `Lexer.Laid`, `Lexer.laid_tokenizeFrom`
    * `Lexer.woven`, `Lexer.tokenizeFrom_woven`
    * `Lexer.Lossless`
    * `Lexer.lossless_tokenize`
-/

namespace PageExpr

/- A token and its text, wherever it stands. -/
def SpannedToken.spelling
    (spanned : SpannedToken) : Token × String :=
  (spanned.token, spanned.text)

namespace Lexer

------------------------------------------------------------
-- Tokens in Place
------------------------------------------------------------

/- Are all characters white space? -/
def Blank
    (cs : List Char) : Prop :=
  ∀ c ∈ cs, Text.isBlank c = true

instance
    (cs : List Char) :
    Decidable (Blank cs) :=
  List.decidableBAll _ cs

/-
  From the position on, the text consists of the tokens, each
  behind a gap, and of what comes last.
-/
inductive Laid :
    Nat → List Char → List SpannedToken → List Char → Prop where
  | nil
      {position : Nat}
      {last : List Char} :
      Laid position last [] last
  | cons
      {position : Nat}
      {gap text rest last : List Char}
      {token : Token}
      {tokens : List SpannedToken}
      (hGap : Blank gap)
      (hText : Stands token text)
      (hRest :
        Laid (position + gap.length + text.length) rest tokens
          last) :
      Laid position (gap ++ (text ++ rest))
        (⟨token, String.ofList text, position + gap.length⟩ ::
          tokens)
        last

/-
  How a stream ends that has reached a place in a text and has
  read what comes last: the text is at its end behind a gap, or
  a fault lies ahead.
-/
def Ends
    (place stop : Nat)
    (last : List Char) : StreamEnd → Prop
  | .complete position => position = stop ∧ Blank last
  | .broken error => place ≤ error.position ∧ error.position < stop

/- What ends behind a place ends behind an earlier one, too. -/
theorem Ends.sooner
    {place stop earlier : Nat}
    {last : List Char}
    {ending : StreamEnd}
    (h : Ends place stop last ending)
    (hEarlier : earlier ≤ place) :
    Ends earlier stop last ending := by
  cases ending with
  | complete position => exact h
  | broken error => exact ⟨Nat.le_trans hEarlier h.1, h.2⟩

/- The text of a token is not empty. -/
theorem Stands.ne_nil
    {token : Token}
    {text : List Char}
    (h : Stands token text) :
    text ≠ [] := by
  rintro rfl
  exact h

/- A blank in front makes the first gap longer. -/
theorem Laid.blank
    {position stop : Nat}
    {c : Char}
    {cs last : List Char}
    {tokens : List SpannedToken}
    {ending : StreamEnd}
    (hBlank : Text.isBlank c = true)
    (h : Laid (position + 1) cs tokens last)
    (hEnds : Ends (position + 1) stop last ending) :
    ∃ last, Laid position (c :: cs) tokens last ∧
      Ends position stop last ending := by
  have hSooner := hEnds.sooner (Nat.le_succ position)
  cases h with
  | nil =>
      refine ⟨c :: cs, .nil, ?_⟩
      cases ending with
      | complete position =>
          exact ⟨hSooner.1, List.forall_mem_cons.2 ⟨hBlank, hSooner.2⟩⟩
      | broken error => exact hSooner
  | @cons _ gap text rest _ token tokens hGap hText hRest =>
      have hLonger : Blank (c :: gap) :=
        List.forall_mem_cons.2 ⟨hBlank, hGap⟩
      have hPlace :
          position + 1 + gap.length = position + (c :: gap).length := by
        rw [List.length_cons]
        omega
      rw [hPlace] at hRest ⊢
      exact ⟨last, .cons hLonger hText hRest, hSooner⟩

/- What is scanned comes first among the tokens. -/
theorem tokenizeFrom_scan
    {c : Char}
    {cs rest : List Char}
    {token : Token}
    (position : Nat)
    (hBlank : Text.isBlank c = false)
    (hScan : scan c (cs ++ rest) = .ok (token, cs.length + 1)) :
    tokenizeFrom 0 position (c :: cs ++ rest) =
      (tokenizeFrom 0 (position + (c :: cs).length) rest).cons
        ⟨token, String.ofList (c :: cs), position⟩ := by
  have hText :
      (c :: (cs ++ rest)).take (cs.length + 1) = c :: cs := by
    simp
  rw [List.cons_append, tokenizeFrom]
  simp only [hBlank, hScan, hText, Bool.false_eq_true, if_false,
    Nat.add_sub_cancel]
  rw [tokenizeFrom_owed, List.length_cons, Nat.add_assoc,
    Nat.add_comm 1]

/- Where nothing can be scanned, there is a fault. -/
theorem laid_of_scan_error
    {c : Char}
    {cs : List Char}
    {e : LexError}
    (position : Nat)
    (hBlank : Text.isBlank c = false)
    (hScan : scan c cs = .error e) :
    ∃ last,
      Laid position (c :: cs)
          (tokenizeFrom 0 position (c :: cs)).tokens last ∧
        Ends position (position + (c :: cs).length) last
          (tokenizeFrom 0 position (c :: cs)).ending := by
  have hWithin := position_of_scan_error hScan
  rw [tokenizeFrom]
  simp only [hBlank, hScan]
  refine ⟨c :: cs, .nil, Nat.le_add_right position e.position, ?_⟩
  exact Nat.add_lt_add_left hWithin position

/- A token stands in front of those behind it. -/
theorem laid_of_scan
    {c : Char}
    {cs rest last : List Char}
    {token : Token}
    {position stop : Nat}
    (hBlank : Text.isBlank c = false)
    (hScan : scan c (cs ++ rest) = .ok (token, cs.length + 1))
    (hStands : Stands token (c :: cs))
    (hLaid :
      Laid (position + (c :: cs).length) rest
        (tokenizeFrom 0 (position + (c :: cs).length) rest).tokens
        last)
    (hEnds :
      Ends (position + (c :: cs).length) stop last
        (tokenizeFrom 0 (position + (c :: cs).length) rest).ending) :
    Laid position (c :: cs ++ rest)
        (tokenizeFrom 0 position (c :: cs ++ rest)).tokens last ∧
      Ends position stop last
        (tokenizeFrom 0 position (c :: cs ++ rest)).ending := by
  have hGap : Blank [] := by simp [Blank]
  rw [tokenizeFrom_scan position hBlank hScan]
  exact ⟨.cons hGap hStands hLaid,
    hEnds.sooner (Nat.le_add_right _ _)⟩

/-
  Behind what is owed, the tokens of a text stand in it, up to
  its end or to its first fault.
-/
theorem laid_tokenizeFrom
    (owed position : Nat)
    (cs : List Char) :
    ∃ last,
      Laid (position + owed) (cs.drop owed)
          (tokenizeFrom owed position cs).tokens last ∧
        Ends (position + owed) (position + cs.length) last
          (tokenizeFrom owed position cs).ending := by
  induction cs generalizing owed position with
  | nil =>
      rw [List.drop_nil]
      exact ⟨[], .nil, rfl, by simp [Blank]⟩
  | cons c cs ih =>
      have hNext :
          ∀ n, position + (n + 1) = position + 1 + n := by
        omega
      cases owed with
      | succ owed =>
          rw [List.length_cons, hNext cs.length, hNext owed]
          exact ih owed (position + 1)
      | zero =>
          cases hBlank : Text.isBlank c with
          | true =>
              rcases ih 0 (position + 1) with ⟨last, hLaid, hEnds⟩
              rw [tokenizeFrom, List.length_cons, hNext cs.length]
              simp only [hBlank, if_true]
              exact hLaid.blank hBlank hEnds
          | false =>
              cases hScan : scan c cs with
              | error e =>
                  exact laid_of_scan_error position hBlank hScan
              | ok found =>
                  rcases found with ⟨token, length⟩
                  rcases stands_of_scan hBlank hScan with
                    ⟨ds, rest, rfl, rfl, hStands⟩
                  rcases ih ds.length (position + 1) with
                    ⟨last, hLaid, hEnds⟩
                  rw [List.drop_left, tokenizeFrom_owed, ← hNext]
                    at hLaid
                  rw [tokenizeFrom_owed, ← hNext, ← hNext] at hEnds
                  exact ⟨last,
                    laid_of_scan hBlank hScan hStands hLaid hEnds⟩

------------------------------------------------------------
-- Places of Tokens
------------------------------------------------------------

/- A token stands in the text at its position, as its text. -/
theorem Laid.found
    {position : Nat}
    {source last : List Char}
    {tokens : List SpannedToken}
    (h : Laid position source tokens last) :
    ∀ spanned ∈ tokens, ∃ before after,
      source = before ++ (spanned.text.toList ++ after) ∧
        spanned.position = position + before.length ∧
        Stands spanned.token spanned.text.toList := by
  induction h with
  | nil => simp
  | @cons position gap text rest last token tokens hGap hText hRest
      ih =>
      rw [List.forall_mem_cons]
      refine ⟨⟨gap, rest, ?_, rfl, ?_⟩, ?_⟩
      · rw [String.toList_ofList]
      · rwa [String.toList_ofList]
      · intro spanned hMem
        rcases ih spanned hMem with
          ⟨before, after, rfl, hPosition, hStands⟩
        refine ⟨gap ++ text ++ before, after, ?_, ?_, hStands⟩
        · simp only [List.append_assoc]
        · rw [hPosition]
          simp only [List.length_append]
          omega

/- A token that stands somewhere is a slice of the text. -/
theorem slice_of_found
    {position : Nat}
    {source before after : List Char}
    {spanned : SpannedToken}
    (hSource :
      source = before ++ (spanned.text.toList ++ after))
    (hPosition : spanned.position = position + before.length) :
    (source.drop (spanned.position - position)).take
        spanned.text.length =
      spanned.text.toList := by
  rw [hPosition, Nat.add_sub_cancel_left, hSource, List.drop_left,
    ← String.length_toList, List.take_left]

/- Each token stands behind those before it. -/
theorem Laid.ordered
    {position : Nat}
    {source last : List Char}
    {tokens : List SpannedToken}
    (h : Laid position source tokens last) :
    tokens.Pairwise fun s t =>
      s.position < t.position ∧
        s.position + s.text.length ≤ t.position := by
  induction h with
  | nil => exact .nil
  | @cons position gap text rest last token tokens hGap hText hRest
      ih =>
      refine .cons (fun spanned hMem => ?_) ih
      rcases hRest.found spanned hMem with
        ⟨before, after, -, hPosition, -⟩
      have hLength := List.length_pos_of_ne_nil hText.ne_nil
      simp only [String.length_ofList, hPosition]
      omega

------------------------------------------------------------
-- Tokens and Gaps
------------------------------------------------------------

/- The texts of tokens, each behind a gap. -/
def woven
    (gaps : List (List Char))
    (tokens : List SpannedToken) : List Char :=
  (gaps.zipWith (fun gap spanned => gap ++ spanned.text.toList)
    tokens).flatten

/- The first token comes behind the first gap. -/
theorem woven_cons
    (gap : List Char)
    (gaps : List (List Char))
    (spanned : SpannedToken)
    (tokens : List SpannedToken)
    (last : List Char) :
    woven (gap :: gaps) (spanned :: tokens) ++ last =
      gap ++ (spanned.text.toList ++ (woven gaps tokens ++ last)) := by
  simp [woven]

/- The text consists of its tokens and gaps. -/
theorem Laid.exists_gaps
    {position : Nat}
    {source last : List Char}
    {tokens : List SpannedToken}
    (h : Laid position source tokens last) :
    ∃ gaps : List (List Char), gaps.length = tokens.length ∧
      (∀ gap ∈ gaps, Blank gap) ∧
      source = woven gaps tokens ++ last := by
  induction h with
  | nil => exact ⟨[], rfl, by simp, rfl⟩
  | @cons position gap text rest last token tokens hGap hText hRest
      ih =>
      rcases ih with ⟨gaps, hLength, hGaps, rfl⟩
      refine ⟨gap :: gaps, ?_, ?_, ?_⟩
      · rw [List.length_cons, List.length_cons, hLength]
      · exact List.forall_mem_cons.2 ⟨hGap, hGaps⟩
      · rw [woven_cons, String.toList_ofList]

/- White space has no tokens. -/
theorem tokenizeFrom_blank
    {gap : List Char}
    (rest : List Char)
    (position : Nat)
    (h : Blank gap) :
    tokenizeFrom 0 position (gap ++ rest) =
      tokenizeFrom 0 (position + gap.length) rest := by
  induction gap generalizing position with
  | nil => rfl
  | cons c gap ih =>
      rcases List.forall_mem_cons.1 h with ⟨hBlank, hGap⟩
      rw [List.cons_append, tokenizeFrom]
      simp only [hBlank, if_true]
      rw [ih _ hGap, List.length_cons, Nat.add_assoc, Nat.add_comm 1]

/- A token in front of a gap is found as it stands. -/
theorem tokenizeFrom_stands
    {token : Token}
    {text rest : List Char}
    (position : Nat)
    (hText : Stands token text)
    (hRest : Spaced rest) :
    tokenizeFrom 0 position (text ++ rest) =
      (tokenizeFrom 0 (position + text.length) rest).cons
        ⟨token, String.ofList text, position⟩ := by
  cases text with
  | nil => exact absurd rfl hText.ne_nil
  | cons c cs =>
      exact tokenizeFrom_scan position hText.1 (hText.2 rest hRest)

/- White space in front of a text is a gap, if there is any. -/
theorem spaced_append
    {gap rest : List Char}
    (hGap : Blank gap)
    (hNonempty : gap ≠ []) :
    Spaced (gap ++ rest) := by
  rcases List.exists_cons_of_ne_nil hNonempty with ⟨c, cs, rfl⟩
  intro d hMem
  rw [List.cons_append, List.head?_cons, Option.mem_some_iff]
    at hMem
  exact hMem ▸ hGap c List.mem_cons_self

/- Tokens whose gaps are not empty come behind a gap. -/
theorem spaced_woven
    {gaps : List (List Char)}
    {last : List Char}
    (tokens : List SpannedToken)
    (hGaps : ∀ gap ∈ gaps, Blank gap)
    (hNonempty : ∀ gap ∈ gaps, gap ≠ [])
    (hLast : Blank last) :
    Spaced (woven gaps tokens ++ last) := by
  have hEnd : Spaced last := fun c hMem =>
    hLast c (List.mem_of_mem_head? hMem)
  cases gaps with
  | nil => exact hEnd
  | cons gap gaps =>
      cases tokens with
      | nil => exact hEnd
      | cons spanned tokens =>
          have hFirst := hGaps gap List.mem_cons_self
          have hSome := hNonempty gap List.mem_cons_self
          rw [woven_cons]
          exact spaced_append hFirst hSome

/-
  Tokens that stand on their own are found again behind other
  gaps, if only the gaps between them are not empty.
-/
theorem tokenizeFrom_woven
    {tokens : List SpannedToken}
    {gaps : List (List Char)}
    {last : List Char}
    (position : Nat)
    (hTokens :
      ∀ spanned ∈ tokens,
        Stands spanned.token spanned.text.toList)
    (hLength : gaps.length = tokens.length)
    (hGaps : ∀ gap ∈ gaps, Blank gap)
    (hNonempty : ∀ gap ∈ gaps.tail, gap ≠ [])
    (hLast : Blank last) :
    ∃ found,
      tokenizeFrom 0 position (woven gaps tokens ++ last) =
          ⟨found, .complete
            (position + (woven gaps tokens ++ last).length)⟩ ∧
        found.map SpannedToken.spelling =
          tokens.map SpannedToken.spelling := by
  induction tokens generalizing gaps position with
  | nil =>
      rw [List.length_nil, List.length_eq_zero_iff] at hLength
      subst hLength
      have hBlank := tokenizeFrom_blank [] position hLast
      rw [List.append_nil] at hBlank
      exact ⟨[], hBlank, rfl⟩
  | cons spanned tokens ih =>
      cases gaps with
      | nil => cases hLength
      | cons gap gaps =>
          rcases List.forall_mem_cons.1 hTokens with
            ⟨hFirst, hOthers⟩
          rcases List.forall_mem_cons.1 hGaps with ⟨hGap, hRest⟩
          have hInner : ∀ gap ∈ gaps.tail, gap ≠ [] :=
            fun gap hMem => hNonempty gap (List.mem_of_mem_tail hMem)
          have hSpaced := spaced_woven tokens hRest hNonempty hLast
          have hText :=
            tokenizeFrom_stands (position + gap.length) hFirst hSpaced
          rcases ih (position + gap.length + spanned.text.toList.length)
              hOthers (Nat.succ.inj hLength) hRest hInner with
            ⟨found, hFound, hSame⟩
          rw [hFound, String.ofList_toList] at hText
          refine ⟨⟨spanned.token, spanned.text, position + gap.length⟩ ::
            found, ?_, congrArg (spanned.spelling :: ·) hSame⟩
          rw [woven_cons]
          generalize woven gaps tokens ++ last = behind at hText ⊢
          rw [tokenizeFrom_blank _ _ hGap, hText, List.length_append,
            List.length_append, ← Nat.add_assoc, ← Nat.add_assoc]
          rfl

/- Tokens that stand on their own are the tokens of a text. -/
theorem exists_text
    {tokens : List SpannedToken}
    (hTokens :
      ∀ spanned ∈ tokens,
        Stands spanned.token spanned.text.toList) :
    ∃ (source : String) (found : List SpannedToken) (stop : Nat),
      tokenize source.toList 0 = ⟨found, .complete stop⟩ ∧
        Parser.kinds found = Parser.kinds tokens := by
  let gaps := List.replicate tokens.length [' ']
  have hGap : ∀ gap ∈ gaps, gap = [' '] :=
    fun gap hMem => List.eq_of_mem_replicate hMem
  have hBlank : ∀ gap ∈ gaps, Blank gap := by
    intro gap hMem
    rw [hGap gap hMem]
    decide
  have hNonempty : ∀ gap ∈ gaps.tail, gap ≠ [] := by
    intro gap hMem
    rw [hGap gap (List.mem_of_mem_tail hMem)]
    decide
  rcases tokenizeFrom_woven 0 hTokens List.length_replicate hBlank
      hNonempty (by decide : Blank []) with
    ⟨found, hFound, hSame⟩
  let source := woven gaps tokens ++ []
  refine ⟨String.ofList source, found, 0 + source.length, ?_, ?_⟩
  · rw [String.toList_ofList]
    exact hFound
  · have hKinds := congrArg (List.map Prod.fst) hSame
    rwa [List.map_map, List.map_map] at hKinds

------------------------------------------------------------
-- Nothing Is Lost
------------------------------------------------------------

/-
  What the tokens of a text keep of it:
    * each is a slice of the text at its position, not an empty
      one
    * they stand one behind the other
    * with gaps of white space they make up the text
    * behind other gaps they are found again
-/
structure Lossless
    (source : List Char)
    (offset : Nat)
    (tokens : List SpannedToken) : Prop where
  slices : ∀ spanned ∈ tokens,
    spanned.text ≠ "" ∧ offset ≤ spanned.position ∧
      (source.drop (spanned.position - offset)).take
          spanned.text.length =
        spanned.text.toList
  ordered : tokens.Pairwise fun s t =>
    s.position < t.position ∧
      s.position + s.text.length ≤ t.position
  gaps : ∃ (gaps : List (List Char)) (last : List Char),
    gaps.length = tokens.length ∧
      (∀ gap ∈ gaps, Blank gap) ∧ Blank last ∧
      source = woven gaps tokens ++ last
  respaced : ∀ (gaps : List (List Char)) (last : List Char)
      (position : Nat),
    gaps.length = tokens.length →
      (∀ gap ∈ gaps, Blank gap) →
      (∀ gap ∈ gaps.tail, gap ≠ []) → Blank last →
      ∃ found,
        tokenize (woven gaps tokens ++ last) position =
            ⟨found, .complete
              (position + (woven gaps tokens ++ last).length)⟩ ∧
          found.map SpannedToken.spelling =
            tokens.map SpannedToken.spelling

/- The tokens of a text, up to its end or its first fault. -/
theorem laid_tokenize
    (source : List Char)
    (offset : Nat) :
    ∃ last,
      Laid offset source (tokenize source offset).tokens last ∧
        Ends offset (offset + source.length) last
          (tokenize source offset).ending :=
  laid_tokenizeFrom 0 offset source

/- The tokens of a text stand on their own. -/
theorem stands_of_mem_tokenize
    (source : List Char)
    (offset : Nat) :
    ∀ spanned ∈ (tokenize source offset).tokens,
      Stands spanned.token spanned.text.toList := by
  intro spanned hMem
  rcases laid_tokenize source offset with ⟨last, hLaid, -⟩
  rcases hLaid.found spanned hMem with ⟨-, -, -, -, hStands⟩
  exact hStands

/-
  Splitting a text into tokens loses nothing, and a fault is
  within the text.  Where the text begins only shifts positions.
-/
theorem lossless_tokenize
    (source : List Char)
    (offset : Nat) :
    (∀ tokens stop,
      tokenize source offset = ⟨tokens, .complete stop⟩ →
        stop = offset + source.length ∧
          Lossless source offset tokens) ∧
    (∀ tokens e,
      tokenize source offset = ⟨tokens, .broken e⟩ →
        offset ≤ e.position ∧
          e.position < offset + source.length) ∧
    (∀ n,
      tokenize source (n + offset) =
        (tokenize source offset).shift n) := by
  rcases laid_tokenize source offset with ⟨last, hLaid, hEnds⟩
  refine ⟨?_, ?_, fun n => tokenizeFrom_shift n 0 offset source⟩
  · intro tokens stop h
    rw [h] at hLaid hEnds
    refine ⟨hEnds.1, ?_, hLaid.ordered, ?_, ?_⟩
    · intro spanned hMem
      rcases hLaid.found spanned hMem with
        ⟨before, after, hSource, hPosition, hStands⟩
      refine ⟨?_, ?_, slice_of_found hSource hPosition⟩
      · intro hEmpty
        exact hStands.ne_nil (by rw [hEmpty]; rfl)
      · exact hPosition ▸ Nat.le_add_right _ _
    · rcases hLaid.exists_gaps with
        ⟨gaps, hLength, hGaps, hSource⟩
      exact ⟨gaps, last, hLength, hGaps, hEnds.2, hSource⟩
    · intro gaps rest position hLength hGaps hNonempty hRest
      have hStands := stands_of_mem_tokenize source offset
      rw [h] at hStands
      exact tokenizeFrom_woven position hStands hLength hGaps
        hNonempty hRest
  · intro tokens e h
    rw [h] at hEnds
    exact hEnds

/-
  Points, names and an escaped quote without gaps, and the same
  with gaps, and a fault within a string.
-/
theorem lossless_tokenize_points :
    tokenize "x.5.y!='\\''".toList 3 =
        ⟨[⟨.identifier "x", "x", 3⟩,
          ⟨.float (Binary64.ofDecimal false 5 (-1)), ".5", 4⟩,
          ⟨.dot, ".", 6⟩, ⟨.identifier "y", "y", 7⟩,
          ⟨.operator (.equality .notEqual), "!=", 8⟩,
          ⟨.string "'", "'\\''", 10⟩], .complete 14⟩ ∧
      (∃ found,
        tokenize "\tx .5  . y\n!= '\\'' ".toList 0 =
            ⟨found, .complete 19⟩ ∧
          found.map SpannedToken.spelling =
            [(.identifier "x", "x"),
              (.float (Binary64.ofDecimal false 5 (-1)), ".5"),
              (.dot, "."), (.identifier "y", "y"),
              (.operator (.equality .notEqual), "!="),
              (.string "'", "'\\''")]) ∧
      tokenize "x 'a\\b'".toList 3 =
          ⟨[⟨.identifier "x", "x", 3⟩],
            .broken ⟨.invalidEscape 'b', 7⟩⟩ ∧
        7 < 3 + "x 'a\\b'".toList.length := by
  have hTokens :
      tokenize "x.5.y!='\\''".toList 3 =
        ⟨[⟨.identifier "x", "x", 3⟩,
          ⟨.float (Binary64.ofDecimal false 5 (-1)), ".5", 4⟩,
          ⟨.dot, ".", 6⟩, ⟨.identifier "y", "y", 7⟩,
          ⟨.operator (.equality .notEqual), "!=", 8⟩,
          ⟨.string "'", "'\\''", 10⟩], .complete 14⟩ := by
    decide +kernel
  have hFault :
      tokenize "x 'a\\b'".toList 3 =
        ⟨[⟨.identifier "x", "x", 3⟩],
          .broken ⟨.invalidEscape 'b', 7⟩⟩ := by
    decide +kernel
  have hLossless :=
    ((lossless_tokenize _ 3).1 _ _ hTokens).2
  have hRespaced :=
    hLossless.respaced [['\t'], [' '], [' ', ' '], [' '], ['\n'], [' ']]
      [' '] 0 rfl (by decide) (by decide) (by decide)
  exact ⟨hTokens, hRespaced, hFault,
    ((lossless_tokenize _ 3).2.1 _ _ hFault).2⟩

end Lexer

end PageExpr
