import PageExpr.Proofs.Syntax.Rejection
import PageExpr.Proofs.Syntax.TemplateText

/-
  Where the errors of templates lie.

  A text that is no template is one up to an opening brace.
  Either that brace is not closed, or the text between it and
  its closing brace is no expression, and then the error is
  that of the text between them: behind the opening brace, and
  before the closing one or at it.  What follows the closing
  brace has not been looked at.

  Main declarations:
    * `Template.Fails`
    * `Template.segmentsFrom_eq_error`
    * `Template.parse_eq_error_iff`
    * `Template.Located`
    * `Template.located_of_parse_error`
-/

namespace PageExpr

namespace Template

------------------------------------------------------------
-- The Opening Brace
------------------------------------------------------------

/-
  What is wrong inside an opening brace at the position: it is
  not closed, or there is no expression in it.
-/
inductive Fails
    (position : Nat)
    (inside : List Char) : SyntaxError → Prop where
  | unterminated
      (hBrace : closingBrace? none inside = none) :
      Fails position inside (.unterminated position)
  | expression
      {length : Nat}
      {e : SyntaxError}
      (hBrace : closingBrace? none inside = some length)
      (hExpr :
        Expr.parseAt (position + 2) (inside.take length) =
          .error e) :
      Fails position inside e

/- A closing brace within the start of a text closes the start. -/
theorem closingBrace?_of_append
    {quote : Option Char}
    {cs ds : List Char}
    {length : Nat}
    (h : closingBrace? quote (cs ++ ds) = some length)
    (hLength : length < cs.length) :
    closingBrace? quote cs = some length := by
  fun_induction closingBrace? quote cs generalizing length with
  | case1 => cases hLength
  | case2 cs =>
      rw [List.cons_append, closingBrace?] at h
      simpa using h
  | case3 c cs hOpen ih =>
      rw [List.cons_append, closingBrace?] at h
      simp only [if_neg hOpen] at h
      rcases Option.map_eq_some_iff.1 h with ⟨n, hn, rfl⟩
      rw [ih hn (Nat.lt_of_succ_lt_succ hLength), Option.map_some]
  | case4 =>
      have hZero : length = 0 := Nat.lt_one_iff.1 hLength
      rw [hZero, List.singleton_append, closingBrace?.eq_def] at h
      cases ds <;> simp at h
  | case5 quote hidden rest ih =>
      rw [List.cons_append, List.cons_append, closingBrace?.eq_def]
        at h
      simp only [if_true] at h
      rcases Option.map_eq_some_iff.1 h with ⟨n, hn, rfl⟩
      rw [ih hn (by simpa using hLength), Option.map_some]
  | case6 c cs quote hPlain ih =>
      rw [List.cons_append, closingBrace?.eq_def] at h
      simp only [if_neg hPlain] at h
      rcases Option.map_eq_some_iff.1 h with ⟨n, hn, rfl⟩
      rw [ih hn (Nat.lt_of_succ_lt_succ hLength), Option.map_some]

/- A first segment within the start of a text is that of it. -/
theorem Starts.of_append
    {position owed : Nat}
    {c : Char}
    {cs ds : List Char}
    {u : Segment}
    (h : Starts position c (cs ++ ds) u owed)
    (hOwed : owed ≤ cs.length)
    (hApart : Apart (c :: cs) ds) :
    Starts position c cs u owed := by
  have hSame := behindBrace?_append hApart
  cases h with
  | char hOpen =>
      rw [hOpen] at hSame
      exact .char (Option.map_eq_none_iff.1 hSame.symm)
  | @expression inside length expr hOpen hBrace hExpr =>
      rw [hOpen] at hSame
      rcases Option.map_eq_some_iff.1 hSame.symm with
        ⟨shorter, hShorter, rfl⟩
      have hLength : length < shorter.length := by
        rw [behindBrace?_eq_some hShorter, List.length_cons] at hOwed
        omega
      have hBody :
          (shorter ++ ds).take length = shorter.take length :=
        List.take_append_of_le_length (Nat.le_of_lt hLength)
      rw [hBody] at hExpr
      exact .expression hShorter
        (closingBrace?_of_append hBrace hLength) hExpr

/- A text has a first segment, or something is wrong there. -/
theorem starts_or_fails
    (position : Nat)
    (c : Char)
    (cs : List Char) :
    (∃ u owed, Starts position c cs u owed) ∨
      ∃ inside e, c :: cs = '$' :: '\x7b' :: inside ∧
        Fails position inside e ∧
        segmentsFrom 0 position (c :: cs) = .error e := by
  cases hOpen : (if c = '$' then behindBrace? cs else none) with
  | none => exact .inl ⟨_, _, .char hOpen⟩
  | some inside =>
      have hDollar : c = '$' := by
        by_contra hOther
        rw [if_neg hOther] at hOpen
        cases hOpen
      have hChars : c :: cs = '$' :: '\x7b' :: inside := by
        rw [hDollar, behindBrace?_eq_some hOpen]
      cases hBrace : closingBrace? none inside with
      | none =>
          refine .inr ⟨inside, _, hChars, .unterminated hBrace, ?_⟩
          simp only [segmentsFrom, hOpen, hBrace]
      | some length =>
          cases hExpr : Expr.parseAt (position + 2)
              (inside.take length) with
          | error e =>
              refine .inr ⟨inside, e, hChars,
                .expression hBrace hExpr, ?_⟩
              simp only [segmentsFrom, hOpen, hBrace, hExpr]
          | ok expr =>
              exact .inl ⟨_, _, .expression hOpen hBrace hExpr⟩

/-
  The text up to an opening brace with something wrong inside
  is split into segments.
-/
theorem segmentsFrom_eq_error
    {owed position : Nat}
    {cs : List Char}
    {e : SyntaxError}
    (h : segmentsFrom owed position cs = .error e) :
    ∃ before inside us,
      cs = before ++ '$' :: '\x7b' :: inside ∧
        owed ≤ before.length ∧
        segmentsFrom owed position before = .ok us ∧
        Fails (position + before.length) inside e := by
  induction cs generalizing owed position with
  | nil => cases h
  | cons c cs ih =>
      have hLength :
          ∀ before : List Char,
            position + (c :: before).length =
              position + 1 + before.length := by
        intro before
        rw [List.length_cons]
        omega
      cases owed with
      | succ owed =>
          rcases ih h with
            ⟨before, inside, us, rfl, hOwed, hBefore, hFails⟩
          refine ⟨c :: before, inside, us, rfl, ?_, hBefore, ?_⟩
          · exact Nat.succ_le_succ hOwed
          · rwa [hLength]
      | zero =>
          rcases starts_or_fails position c cs with
            ⟨u, owed, hStarts⟩ | ⟨inside, other, hChars, hFails, hError⟩
          · rw [segmentsFrom_of_starts hStarts] at h
            rcases ih (error_of_map_eq_error h) with
              ⟨before, inside, us, rfl, hOwed, hBefore, hFails⟩
            have hApart :
                Apart (c :: before) ('$' :: '\x7b' :: inside) := by
              simp [Apart]
            have hFirst := hStarts.of_append hOwed hApart
            refine ⟨c :: before, inside, u :: us, rfl,
              Nat.zero_le _, ?_, ?_⟩
            · rw [segmentsFrom_of_starts hFirst, hBefore]
              rfl
            · rwa [hLength]
          · rw [hError, Except.error.injEq] at h
            subst h
            exact ⟨[], inside, [], hChars, Nat.le_refl 0, rfl, hFails⟩

/- What is wrong at the start of a text is an error. -/
theorem Fails.segmentsFrom_eq
    {position : Nat}
    {inside : List Char}
    {e : SyntaxError}
    (h : Fails position inside e) :
    segmentsFrom 0 position ('$' :: '\x7b' :: inside) = .error e := by
  cases h with
  | unterminated hBrace =>
      simp only [segmentsFrom, if_true, behindBrace?, hBrace]
  | expression hBrace hExpr =>
      simp only [segmentsFrom, if_true, behindBrace?, hBrace, hExpr]

/- Behind its closing brace, nothing can change what is wrong. -/
theorem Fails.append
    {position : Nat}
    {inside : List Char}
    {e : SyntaxError}
    (h : Fails position inside e)
    (hClosed : closingBrace? none inside ≠ none)
    (ds : List Char) :
    Fails position (inside ++ ds) e := by
  cases h with
  | unterminated hBrace => exact absurd hBrace hClosed
  | @expression length e hBrace hExpr =>
      rcases closingBrace?_append ds hBrace with ⟨hSame, hShort⟩
      refine .expression hSame ?_
      rwa [List.take_append_of_le_length (Nat.le_of_lt hShort)]

/- Texts with the same segments are templates together. -/
theorem exists_parse_iff
    (cs : List Char) :
    (∃ template, parse (String.ofList cs) = .ok template) ↔
      ∃ us, segmentsFrom 0 0 cs = .ok us := by
  rw [parse_eq_map_segments, String.toList_ofList, segments]
  cases segmentsFrom 0 0 cs <;> simp [Except.map]

/-
  A text has an error just if it is a template up to an opening
  brace with that error inside.
-/
theorem parse_eq_error_iff
    {text : String}
    {e : SyntaxError} :
    parse text = .error e ↔
      ∃ before inside,
        text.toList = before ++ '$' :: '\x7b' :: inside ∧
          (∃ template,
            parse (String.ofList before) = .ok template) ∧
          Fails before.length inside e := by
  rw [parse_eq_map_segments, segments]
  constructor
  · intro h
    rcases segmentsFrom_eq_error (error_of_map_eq_error h) with
      ⟨before, inside, us, hText, -, hBefore, hFails⟩
    rw [Nat.zero_add] at hFails
    exact ⟨before, inside, hText,
      (exists_parse_iff before).2 ⟨us, hBefore⟩, hFails⟩
  · rintro ⟨before, inside, hText, hBefore, hFails⟩
    rcases (exists_parse_iff before).1 hBefore with ⟨us, hSegments⟩
    have hApart : Apart before ('$' :: '\x7b' :: inside) := by
      simp [Apart]
    rw [hText,
      segmentsFrom_append (Nat.zero_le _) hApart hSegments,
      Nat.zero_add, hFails.segmentsFrom_eq]
    rfl

------------------------------------------------------------
-- Places of Errors
------------------------------------------------------------

/-
  Where the error of an expression lies that stands from one
  place in a text to another: a fault is between them, an
  unexpected token is one of the tokens between them and begins
  at its position, and a missing one is missed at the end.
-/
def Located
    (text : List Char)
    (start stop : Nat) : SyntaxError → Prop
  | .lexical e => start ≤ e.position ∧ e.position < stop
  | .unexpectedToken _ found position =>
      start ≤ position ∧ position < stop ∧
        ∃ spanned ∈ (Lexer.tokenize
            ((text.drop start).take (stop - start)) start).tokens,
          spanned.position = position ∧ spanned.token = found ∧
            spanned.text ≠ "" ∧
            spanned.text.toList <+: text.drop position
  | .unexpectedEnd position => position = stop
  | .unterminated _ => False

/- The error of an expression lies where the expression stands. -/
theorem located_of_parseAt
    {text before body after : List Char}
    {e : SyntaxError}
    (hText : text = before ++ (body ++ after))
    (h : Expr.parseAt before.length body = .error e) :
    Located text before.length (before.length + body.length) e := by
  have hBody :
      (text.drop before.length).take
          (before.length + body.length - before.length) = body := by
    rw [hText, List.drop_left, Nat.add_sub_cancel_left,
      List.take_left]
  rcases Lexer.laid_tokenize body before.length with
    ⟨last, hLaid, hEnds⟩
  cases Parser.rejected_of_whole h with
  | lexical hRead hEnding =>
      rw [hEnding] at hEnds
      exact hEnds
  | @unexpectedToken state taken left spanned expected hTokens hRead
      hRefused =>
      have hMem :
          spanned ∈ (Lexer.tokenize body before.length).tokens := by
        simp [hTokens]
      rcases hLaid.found spanned hMem with
        ⟨front, rest, hSource, hPosition, hStands⟩
      have hNonempty := List.length_pos_of_ne_nil hStands.ne_nil
      have hLength := congrArg List.length hSource
      simp only [List.length_append] at hLength
      refine ⟨by omega, by omega, spanned, by rwa [hBody], rfl, rfl,
        ?_, rest ++ after, ?_⟩
      · intro hEmpty
        exact hStands.ne_nil (by rw [hEmpty]; rfl)
      · rw [hPosition, hText, hSource, List.drop_length_add_append,
          List.append_assoc, List.drop_left, List.append_assoc]
  | unexpectedEnd hRead hEnding hFinish =>
      rw [hEnding] at hEnds
      exact hEnds.1

/- The position of a located error is not behind the end. -/
theorem Located.position_le
    {text : List Char}
    {start stop : Nat}
    {e : SyntaxError}
    (h : Located text start stop e) :
    e.position ≤ stop := by
  cases e with
  | lexical e => exact Nat.le_of_lt h.2
  | unexpectedToken expected found position =>
      exact Nat.le_of_lt h.2.1
  | unexpectedEnd position => exact Nat.le_of_eq h
  | unterminated position => exact h.elim

/- What stands behind the start of a text, at its place. -/
theorem getElem?_behind
    {text before after : List Char}
    {c : Char}
    {place : Nat}
    (hText : text = before ++ c :: after)
    (hPlace : before.length = place) :
    text[place]? = some c := by
  rw [hText, ← hPlace]
  simp

/- The error inside a closed brace lies between the braces. -/
theorem located_of_closed
    {text before inside : List Char}
    {length : Nat}
    {e : SyntaxError}
    (hText : text = before ++ '$' :: '\x7b' :: inside)
    (hBrace : closingBrace? none inside = some length)
    (hExpr :
      Expr.parseAt (before.length + 2) (inside.take length) =
        .error e) :
    text[before.length + 2 + length]? = some '\x7d' ∧
      before.length + 2 + length < text.length ∧
      Located text (before.length + 2)
        (before.length + 2 + length) e := by
  let opening := before ++ ['$', '\x7b']
  let behind := '\x7d' :: inside.drop (length + 1)
  have hShort := (closingBrace?_append [] hBrace).2
  have hBody : (inside.take length).length = length :=
    List.length_take_of_le (Nat.le_of_lt hShort)
  have hOpening : opening.length = before.length + 2 := by
    rw [List.length_append]
    rfl
  have hSplit :
      text = opening ++ (inside.take length ++ behind) := by
    rw [hText, ← eq_of_closingBrace? hBrace, List.append_assoc]
    rfl
  have hPlace :
      (opening ++ inside.take length).length =
        before.length + 2 + length := by
    rw [List.length_append, hOpening, hBody]
  rw [← List.append_assoc] at hSplit
  refine ⟨getElem?_behind hSplit hPlace, ?_, ?_⟩
  · rw [hSplit, List.length_append, hPlace, List.length_cons]
    omega
  · rw [List.append_assoc] at hSplit
    rw [← hOpening] at hExpr ⊢
    have hLocated := located_of_parseAt hSplit hExpr
    rwa [hBody] at hLocated

/-
  The error of a template lies at or behind an opening brace, up
  to which the text is a template.  The brace is not closed, or
  it is closed and the error lies between the braces, or at the
  closing one if something is missing; then what follows the
  text does not change the error.  In any case the error lies
  within the text.
-/
theorem located_of_parse_error
    {text : String}
    {e : SyntaxError}
    (h : parse text = .error e) :
    e.position < text.length ∧
      ∃ i,
        text.toList[i]? = some '$' ∧
          text.toList[i + 1]? = some '\x7b' ∧
          (∃ template,
            parse (String.ofList (text.toList.take i)) =
              .ok template) ∧
          ((e = .unterminated i ∧
              closingBrace? none (text.toList.drop (i + 2)) =
                none) ∨
            ∃ length,
              closingBrace? none (text.toList.drop (i + 2)) =
                  some length ∧
                text.toList[i + 2 + length]? = some '\x7d' ∧
                Located text.toList (i + 2) (i + 2 + length) e ∧
                ∀ more : String,
                  parse (text ++ more) = .error e) := by
  rcases parse_eq_error_iff.1 h with
    ⟨before, inside, hText, hBefore, hFails⟩
  have hTake : text.toList.take before.length = before := by
    rw [hText, List.take_left]
  have hDrop : text.toList.drop (before.length + 2) = inside := by
    rw [hText, List.drop_length_add_append]
    rfl
  have hSecond :
      text.toList = (before ++ ['$']) ++ '\x7b' :: inside := by
    rw [hText, List.append_assoc]
    rfl
  have hPlaces :
      text.toList[before.length]? = some '$' ∧
        text.toList[before.length + 1]? = some '\x7b' :=
    ⟨getElem?_behind hText rfl, getElem?_behind hSecond (by simp)⟩
  rw [← String.length_toList]
  cases hFails with
  | unterminated hBrace =>
      refine ⟨?_, before.length, hPlaces.1, hPlaces.2, ?_,
        .inl ⟨rfl, by rwa [hDrop]⟩⟩
      · rw [hText, List.length_append, List.length_cons,
          SyntaxError.position]
        omega
      · rwa [hTake]
  | @expression length _ hBrace hExpr =>
      rcases located_of_closed hText hBrace hExpr with
        ⟨hClosed, hWithin, hLocated⟩
      refine ⟨Nat.lt_of_le_of_lt hLocated.position_le hWithin,
        before.length, hPlaces.1, hPlaces.2, by rwa [hTake],
        .inr ⟨length, by rwa [hDrop], hClosed, hLocated, ?_⟩⟩
      intro more
      have hStays := (Fails.expression hBrace hExpr).append
        (by simp [hBrace]) more.toList
      refine parse_eq_error_iff.2 ⟨before, _, ?_, hBefore, hStays⟩
      rw [String.toList_append, hText, List.append_assoc]
      rfl

/-
  A bracket too many behind a letter beyond ASCII and a string
  with a brace.
-/
theorem located_of_parse_error_bracket :
    parse "é$\x7b'\x7d' ]\x7db" =
        .error
          (.unexpectedToken .endOfExpression .rightBracket 7) ∧
      7 < "é$\x7b'\x7d' ]\x7db".length ∧
      parse ("é$\x7b'\x7d' ]\x7db" ++ "$\x7b") =
        .error
          (.unexpectedToken .endOfExpression .rightBracket 7) := by
  have hTokens :
      Lexer.tokenize "'\x7d' ]".toList 3 =
        ⟨[⟨.string "\x7d", "'\x7d'", 3⟩,
          ⟨.rightBracket, "]", 7⟩], .complete 8⟩ := by
    decide +kernel
  have hExpr :
      Expr.parseAt 3 ("'\x7d' ]\x7db".toList.take 5) =
        .error
          (.unexpectedToken .endOfExpression .rightBracket 7) := by
    have hBody :
        "'\x7d' ]\x7db".toList.take 5 = "'\x7d' ]".toList := by
      decide +kernel
    rw [hBody, Expr.parseAt, hTokens]
    rfl
  have hBefore :
      ∃ template,
        parse (String.ofList ['é']) = .ok template := by
    rw [exists_parse_iff]
    exact ⟨[.char 'é'], rfl⟩
  have hError :
      parse "é$\x7b'\x7d' ]\x7db" =
        .error
          (.unexpectedToken .endOfExpression .rightBracket 7) := by
    rw [parse_eq_error_iff]
    exact ⟨['é'], _, rfl, hBefore,
      .expression (by decide +kernel) hExpr⟩
  rcases located_of_parse_error hError with
    ⟨hWithin, i, -, -, -, hCase⟩
  refine ⟨hError, hWithin, ?_⟩
  rcases hCase with ⟨hOther, -⟩ | ⟨length, -, -, -, hMore⟩
  · cases hOther
  · exact hMore _

end Template

end PageExpr
