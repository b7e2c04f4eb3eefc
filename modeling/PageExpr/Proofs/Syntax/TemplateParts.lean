import PageExpr.Proofs.Syntax.Position

/-
  The parts of two templates one behind the other.

  A text that can be cut into segments is cut in the same way
  in front of another text, unless an opening brace comes about
  where the two meet.  Where a text ends one template and
  starts the other, both become one part.

  Main declarations:
    * `Template.partList`
    * `Template.joinParts`
    * `Template.Apart`
    * `Template.joined_append`
    * `Template.closingBrace?_append`
    * `Template.Starts`
    * `Template.segmentsFrom_append`
    * `Template.parse_append`
-/

namespace PageExpr

namespace Template

------------------------------------------------------------
-- Lists of Parts
------------------------------------------------------------

/- The parts of a template; an empty text has none. -/
def partList : Template → List Part
  | .literal content =>
      if content = "" then [] else [.text content]
  | .expression expr => [.expression expr]
  | .composite parts => parts

/-
  Parts behind parts.  A text at the end of the first ones and
  a text at the start of the others become one.
-/
def joinParts : List Part → List Part → List Part
  | [], others => others
  | [.text content], .text more :: others =>
      .text (content ++ more) :: others
  | part :: parts, others => part :: joinParts parts others

/- A character in front of joined parts. -/
theorem consChar_joinParts
    (c : Char)
    (ps qs : List Part) :
    consChar c (joinParts ps qs) =
      joinParts (consChar c ps) qs := by
  cases ps with
  | nil =>
      cases qs with
      | nil => rfl
      | cons part others => cases part <;> rfl
  | cons part parts =>
      cases part with
      | expression expr =>
          cases qs with
          | nil => rfl
          | cons part others => cases part <;> rfl
      | text content =>
          cases parts with
          | cons next parts => rfl
          | nil =>
              cases qs with
              | nil => rfl
              | cons part others =>
                  cases part with
                  | expression expr => rfl
                  | text more =>
                      simp [joinParts, consChar,
                        String.append_assoc]

/- Characters are joined across the border of two lists. -/
theorem joined_append
    (us vs : List Segment) :
    joined (us ++ vs) = joinParts (joined us) (joined vs) := by
  induction us with
  | nil => rfl
  | cons segment us ih =>
      cases segment with
      | char c =>
          rw [List.cons_append, joined, joined, ih,
            consChar_joinParts]
      | expression expr =>
          rw [List.cons_append, joined, joined, ih]
          rfl

/- Joined characters are no empty text. -/
theorem joined_ne_empty
    (segments : List Segment) :
    joined segments ≠ [.text ""] := by
  cases segments with
  | nil => simp [joined]
  | cons segment rest =>
      cases segment with
      | expression expr => simp [joined]
      | char c =>
          rw [joined]
          cases joined rest with
          | nil => simp [consChar]
          | cons part parts => cases part <;> simp [consChar]

/- A template has the parts that it is made of. -/
theorem partList_ofParts
    {parts : List Part}
    (h : parts ≠ [.text ""]) :
    (ofParts parts).partList = parts := by
  unfold ofParts
  split
  · rfl
  · rename_i content
    have hContent : content ≠ "" := by
      rintro rfl
      exact h rfl
    rw [partList, if_neg hContent]
  · rfl
  · rfl

------------------------------------------------------------
-- Texts One Behind the Other
------------------------------------------------------------

/- No opening brace comes about where the texts meet. -/
def Apart
    (cs ds : List Char) : Prop :=
  ¬ (cs.getLast? = some '$' ∧ ds.head? = some '\x7b')

/- A closing brace stays where it is if the text goes on. -/
theorem closingBrace?_append
    {quote : Option Char}
    {cs : List Char}
    {length : Nat}
    (ds : List Char)
    (h : closingBrace? quote cs = some length) :
    closingBrace? quote (cs ++ ds) = some length ∧
      length < cs.length := by
  fun_induction closingBrace? quote cs generalizing length with
  | case1 => cases h
  | case2 cs =>
      cases h
      exact ⟨rfl, Nat.succ_pos _⟩
  | case3 c cs hOpen ih =>
      rcases Option.map_eq_some_iff.1 h with ⟨n, hn, rfl⟩
      rcases ih hn with ⟨hRest, hLength⟩
      refine ⟨?_, Nat.succ_lt_succ hLength⟩
      rw [List.cons_append, closingBrace?]
      simp only [if_neg hOpen, hRest, Option.map_some]
  | case4 => cases h
  | case5 quote hidden rest ih =>
      rcases Option.map_eq_some_iff.1 h with ⟨n, hn, rfl⟩
      rcases ih hn with ⟨hRest, hLength⟩
      refine ⟨?_, by simpa using hLength⟩
      rw [List.cons_append, List.cons_append, closingBrace?.eq_def]
      simp only [if_true, hRest, Option.map_some]
  | case6 c cs quote hPlain ih =>
      rcases Option.map_eq_some_iff.1 h with ⟨n, hn, rfl⟩
      rcases ih hn with ⟨hRest, hLength⟩
      refine ⟨?_, Nat.succ_lt_succ hLength⟩
      rw [List.cons_append, closingBrace?.eq_def]
      simp only [if_neg hPlain, hRest, Option.map_some]

/- Both texts have an opening brace at the same places. -/
theorem behindBrace?_append
    {c : Char}
    {cs ds : List Char}
    (hApart : Apart (c :: cs) ds) :
    (if c = '$' then behindBrace? (cs ++ ds) else none) =
      (if c = '$' then behindBrace? cs else none).map
        (· ++ ds) := by
  by_cases hDollar : c = '$'
  · subst hDollar
    simp only [if_true]
    cases cs with
    | nil =>
        cases ds with
        | nil => rfl
        | cons d ds =>
            have hBrace : d ≠ '\x7b' := by
              rintro rfl
              exact hApart ⟨rfl, rfl⟩
            simp [behindBrace?, hBrace]
    | cons d cs =>
        rw [List.cons_append, behindBrace?, behindBrace?]
        split <;> rfl
  · simp [hDollar]

/- What follows an opening brace, behind the brace itself. -/
theorem behindBrace?_eq_some
    {c : Char}
    {cs inside : List Char}
    (h :
      (if c = '$' then behindBrace? cs else none) = some inside) :
    cs = '\x7b' :: inside := by
  split at h
  · cases cs with
    | nil => cases h
    | cons d cs =>
        rw [behindBrace?] at h
        split at h <;> cases h
        rename_i hBrace
        rw [hBrace]
  · cases h

/- A shorter text also keeps apart from what follows. -/
theorem Apart.tail
    {c : Char}
    {cs ds : List Char}
    (hApart : Apart (c :: cs) ds) :
    Apart cs ds := by
  rintro ⟨hLast, hHead⟩
  apply hApart
  refine ⟨?_, hHead⟩
  rw [List.getLast?_cons, hLast]
  rfl

------------------------------------------------------------
-- First Segments
------------------------------------------------------------

/-
  The first segment of a text that is not empty, and how many
  characters behind the first one belong to it.
-/
inductive Starts
    (position : Nat) : Char → List Char → Segment → Nat → Prop where
  | char
      {c : Char}
      {cs : List Char}
      (hOpen :
        (if c = '$' then behindBrace? cs else none) = none) :
      Starts position c cs (.char c) 0
  | expression
      {c : Char}
      {cs inside : List Char}
      {length : Nat}
      {expr : Expr}
      (hOpen :
        (if c = '$' then behindBrace? cs else none) = some inside)
      (hBrace : closingBrace? none inside = some length)
      (hExpr :
        Expr.parseAt (position + 2) (inside.take length) =
          .ok expr) :
      Starts position c cs (.expression expr) (length + 2)

/- The first segment comes before the others. -/
theorem segmentsFrom_of_starts
    {position owed : Nat}
    {c : Char}
    {cs : List Char}
    {u : Segment}
    (h : Starts position c cs u owed) :
    segmentsFrom 0 position (c :: cs) =
      (segmentsFrom owed (position + 1) cs).map (u :: ·) := by
  rw [segmentsFrom]
  cases h with
  | char hOpen => rw [hOpen]
  | expression hOpen hBrace hExpr =>
      rw [hOpen]
      dsimp only
      rw [hBrace]
      dsimp only
      rw [hExpr]

/- A text that has segments has a first one. -/
theorem exists_starts
    {position : Nat}
    {c : Char}
    {cs : List Char}
    {us : List Segment}
    (h : segmentsFrom 0 position (c :: cs) = .ok us) :
    ∃ u owed vs, Starts position c cs u owed ∧
      segmentsFrom owed (position + 1) cs = .ok vs ∧
        us = u :: vs := by
  have hRest :
      ∀ {u : Segment} {owed : Nat}, Starts position c cs u owed →
        ∃ vs, segmentsFrom owed (position + 1) cs = .ok vs ∧
          us = u :: vs := by
    intro u owed hStarts
    rw [segmentsFrom_of_starts hStarts] at h
    rcases exists_of_map_eq_ok h with ⟨vs, hFound, hEq⟩
    exact ⟨vs, hFound, hEq.symm⟩
  rw [segmentsFrom] at h
  cases hOpen : (if c = '$' then behindBrace? cs else none) with
  | none =>
      rcases hRest (.char hOpen) with ⟨vs, hFound, hEq⟩
      exact ⟨_, _, vs, .char hOpen, hFound, hEq⟩
  | some inside =>
      rw [hOpen] at h
      dsimp only at h
      cases hBrace : closingBrace? none inside with
      | none =>
          rw [hBrace] at h
          cases h
      | some length =>
          rw [hBrace] at h
          dsimp only at h
          cases hExpr : Expr.parseAt (position + 2)
              (inside.take length) with
          | error e =>
              rw [hExpr] at h
              cases h
          | ok expr =>
              have hStarts := Starts.expression hOpen hBrace hExpr
              rcases hRest hStarts with ⟨vs, hFound, hEq⟩
              exact ⟨_, _, vs, hStarts, hFound, hEq⟩

/- A first segment stays the first if the text goes on. -/
theorem Starts.append
    {position owed : Nat}
    {c : Char}
    {cs ds : List Char}
    {u : Segment}
    (h : Starts position c cs u owed)
    (hApart : Apart (c :: cs) ds) :
    Starts position c (cs ++ ds) u owed ∧ owed ≤ cs.length := by
  have hSame := behindBrace?_append hApart
  cases h with
  | char hOpen =>
      rw [hOpen] at hSame
      exact ⟨.char hSame, Nat.zero_le _⟩
  | @expression inside length expr hOpen hBrace hExpr =>
      rw [hOpen] at hSame
      rcases closingBrace?_append ds hBrace with
        ⟨hClosed, hShort⟩
      have hBody :
          (inside ++ ds).take length = inside.take length :=
        List.take_append_of_le_length (Nat.le_of_lt hShort)
      rw [← hBody] at hExpr
      refine ⟨.expression hSame hClosed hExpr, ?_⟩
      rw [behindBrace?_eq_some hOpen]
      exact Nat.succ_le_succ hShort

------------------------------------------------------------
-- All Segments
------------------------------------------------------------

/- A segment in front of segments in front of others. -/
theorem map_cons_append
    (u : Segment)
    (vs : List Segment)
    (result : Except SyntaxError (List Segment)) :
    (result.map (vs ++ ·)).map (u :: ·) =
      result.map (u :: vs ++ ·) := by
  cases result <;> rfl

/-
  The segments of a text come before those of what follows,
  which then begins where the text ends.
-/
theorem segmentsFrom_append
    {owed position : Nat}
    {cs ds : List Char}
    {us : List Segment}
    (hOwed : owed ≤ cs.length)
    (hApart : Apart cs ds)
    (h : segmentsFrom owed position cs = .ok us) :
    segmentsFrom owed position (cs ++ ds) =
      (segmentsFrom 0 (position + cs.length) ds).map (us ++ ·) := by
  induction cs generalizing owed position us with
  | nil =>
      cases h
      have hZero : owed = 0 := Nat.le_zero.1 hOwed
      subst hZero
      rw [List.nil_append, List.length_nil, Nat.add_zero]
      cases segmentsFrom 0 position ds <;> rfl
  | cons c cs ih =>
      have hLength :
          position + (c :: cs).length =
            position + 1 + cs.length := by
        rw [List.length_cons]
        omega
      rw [hLength]
      cases owed with
      | succ owed =>
          have hShort := Nat.le_of_succ_le_succ hOwed
          exact ih hShort hApart.tail h
      | zero =>
          rcases exists_starts h with
            ⟨u, owed, vs, hStarts, hRest, rfl⟩
          rcases hStarts.append hApart with ⟨hSame, hShort⟩
          rw [List.cons_append, segmentsFrom_of_starts hSame,
            ih hShort hApart.tail hRest]
          exact map_cons_append _ _ _

------------------------------------------------------------
-- Templates
------------------------------------------------------------

/- The template of a text is made of its joined segments. -/
theorem parse_eq_map_segments
    (source : String) :
    parse source =
      (segments source.toList).map fun us =>
        ofParts (joined us) := by
  rw [parse, parts]
  cases segments source.toList <;> rfl

/- The parts of a parsed template are joined segments. -/
theorem exists_joined_of_parse
    {source : String}
    {u : Template}
    (h : parse source = .ok u) :
    ∃ us, u = ofParts (joined us) ∧ u.partList = joined us := by
  rw [parse_eq_map_segments] at h
  rcases exists_of_map_eq_ok h with ⟨us, -, rfl⟩
  exact ⟨us, rfl, partList_ofParts (joined_ne_empty us)⟩

/-
  The template of a text and what follows it: the parts are
  joined, and errors in what follows are further on.
-/
theorem parse_append
    {s t : String}
    {u : Template}
    (hParse : parse s = .ok u)
    (hApart : Apart s.toList t.toList) :
    parse (s ++ t) =
      ((parse t).map fun v =>
          ofParts (joinParts u.partList v.partList)).mapError
        (SyntaxError.shift s.length) := by
  rw [parse_eq_map_segments] at hParse
  rcases exists_of_map_eq_ok hParse with ⟨us, hFirst, rfl⟩
  have hAppend :=
    segmentsFrom_append (Nat.zero_le _) hApart hFirst
  have hShift := segmentsFrom_shift s.length 0 0 t.toList
  rw [Nat.zero_add, String.length_toList,
    ← Nat.add_zero s.length, hShift] at hAppend
  rw [parse_eq_map_segments, parse_eq_map_segments, segments,
    String.toList_append, hAppend, segments]
  cases segmentsFrom 0 0 t.toList with
  | error e => rfl
  | ok vs =>
      have hParts := partList_ofParts (joined_ne_empty us)
      have hOthers := partList_ofParts (joined_ne_empty vs)
      have hJoined :
          joined (us ++ vs) =
            joinParts (ofParts (joined us)).partList
              (ofParts (joined vs)).partList := by
        rw [hParts, hOthers, joined_append]
      exact congrArg Except.ok (congrArg ofParts hJoined)

end Template

end PageExpr
