import PageExpr.Proofs.Syntax.CanonicalText
import PageExpr.Proofs.Syntax.ClosingBrace

/-
  The parts of a template beside the text they are read from.

  A text that is a template is made of pieces, one for each
  part.  The parts are in normal form: where texts meet they are
  one part, and no expression begins in any of them.  Parts in
  normal form can be written one behind the other, and are read
  back as they were.

  Main declarations:
    * `Template.HasOpening`
    * `Template.Normal`
    * `Template.Part.ReadFrom`
    * `Template.Part.written`, `Template.written`
    * `Template.reads_joined`
    * `Template.normal_joined`
    * `Template.parse_join`
    * `Template.parse_written_of_parse`
-/

namespace PageExpr

namespace Template

------------------------------------------------------------
-- Openings
------------------------------------------------------------

/- Does an expression begin somewhere in the text? -/
def HasOpening
    (cs : List Char) : Prop :=
  ['$', '\x7b'] <:+: cs

/- A longer text begins with an opening, or has one later. -/
theorem hasOpening_cons
    {c : Char}
    {cs : List Char} :
    HasOpening (c :: cs) ↔
      ['$', '\x7b'] <+: c :: cs ∨ HasOpening cs :=
  List.infix_cons_iff

/- A single character is no opening. -/
theorem not_hasOpening_singleton
    (c : Char) :
    ¬ HasOpening [c] := by
  intro h
  have hLength := h.length_le
  simp at hLength

/- What the search for an opening looks for at a character. -/
theorem behindBrace?_eq_none_iff
    {c : Char}
    {cs : List Char} :
    (if c = '$' then behindBrace? cs else none) = none ↔
      ¬ ['$', '\x7b'] <+: c :: cs := by
  by_cases hDollar : c = '$'
  · subst hDollar
    cases cs with
    | nil => simp [behindBrace?]
    | cons d cs => simp [behindBrace?, eq_comm]
  · simp [hDollar, Ne.symm hDollar]

/- The closing brace stands behind what it closes. -/
theorem eq_of_closingBrace?
    {quote : Option Char}
    {cs : List Char}
    {length : Nat}
    (h : closingBrace? quote cs = some length) :
    cs = cs.take length ++ '\x7d' :: cs.drop (length + 1) := by
  fun_induction closingBrace? quote cs generalizing length with
  | case1 => cases h
  | case2 cs =>
      cases h
      rfl
  | case3 c cs hOpen ih =>
      rcases Option.map_eq_some_iff.1 h with ⟨n, hn, rfl⟩
      exact congrArg (c :: ·) (ih hn)
  | case4 => cases h
  | case5 quote hidden rest ih =>
      rcases Option.map_eq_some_iff.1 h with ⟨n, hn, rfl⟩
      exact congrArg ('\\' :: hidden :: ·) (ih hn)
  | case6 c cs quote hPlain ih =>
      rcases Option.map_eq_some_iff.1 h with ⟨n, hn, rfl⟩
      exact congrArg (c :: ·) (ih hn)

------------------------------------------------------------
-- Parts and Their Texts
------------------------------------------------------------

namespace Part

/- Is the part a text? -/
def isText : Part → Bool
  | .text _ => true
  | .expression _ => false

/-
  Can the part be read from the text?  A text is read from
  itself, and an expression from any text of it in braces.
-/
def ReadFrom : Part → String → Prop
  | .text content, source => source = content
  | .expression expr, source =>
      ∃ body, source = embed body ∧ Expr.parse body = .ok expr

/- The part, written with the canonical text. -/
def written : Part → String
  | .text content => content
  | .expression expr => embed expr.text

end Part

/- The template, written with canonical texts. -/
def written : Template → String
  | .literal content => content
  | .expression expr => embed expr.text
  | .composite parts => String.join (parts.map Part.written)

/- A template is written part by part. -/
theorem written_eq_join
    (template : Template) :
    template.written =
      String.join (template.partList.map Part.written) := by
  cases template with
  | literal content =>
      rw [partList]
      split
      · rename_i hEmpty
        rw [hEmpty]
        rfl
      · simp [written, Part.written]
  | expression expr => simp [written, partList, Part.written]
  | composite parts => rfl

/-
  No text is empty, no expression begins in a text, and of two
  neighbours at most one is a text.
-/
structure Normal
    (parts : List Part) : Prop where
  texts : ∀ content, Part.text content ∈ parts →
    content ≠ "" ∧ ¬ HasOpening content.toList
  apart : parts.IsChain fun p q =>
    p.isText = false ∨ q.isText = false

/- Are the characters made of pieces, one for each part? -/
def Reads
    (parts : List Part)
    (cs : List Char) : Prop :=
  ∃ pieces, List.Forall₂ Part.ReadFrom parts pieces ∧
    cs = (String.join pieces).toList

------------------------------------------------------------
-- Reading Parts
------------------------------------------------------------

/- A first part is read from a first piece. -/
theorem reads_cons
    {part : Part}
    {parts : List Part}
    {piece : String}
    {cs : List Char}
    (hPart : part.ReadFrom piece)
    (hParts : Reads parts cs) :
    Reads (part :: parts) (piece.toList ++ cs) := by
  rcases hParts with ⟨pieces, hPieces, rfl⟩
  refine ⟨piece :: pieces, .cons hPart hPieces, ?_⟩
  simp

/- A first text is the start of what is read. -/
theorem Reads.text_cons
    {content : String}
    {parts : List Part}
    {cs : List Char}
    (h : Reads (.text content :: parts) cs) :
    ∃ ds, cs = content.toList ++ ds ∧ Reads parts ds := by
  rcases h with ⟨pieces, hPieces, rfl⟩
  cases hPieces with
  | @cons _ piece _ pieces hPart hParts =>
      cases hPart
      exact ⟨_, by simp, pieces, hParts, rfl⟩

/- A character in front is part of a first text. -/
theorem reads_consChar
    {parts : List Part}
    {cs : List Char}
    (c : Char)
    (h : Reads parts cs) :
    Reads (consChar c parts) (c :: cs) := by
  have hAlone :
      Reads (.text (String.singleton c) :: parts) (c :: cs) := by
    have hPart :
        (Part.text (String.singleton c)).ReadFrom
          (String.singleton c) :=
      rfl
    have hReads := reads_cons hPart h
    rwa [String.toList_singleton] at hReads
  cases parts with
  | nil => exact hAlone
  | cons part parts =>
      cases part with
      | expression expr => exact hAlone
      | text content =>
          rcases h.text_cons with ⟨ds, rfl, hRest⟩
          have hPart :
              (Part.text (String.singleton c ++ content)).ReadFrom
                (String.singleton c ++ content) :=
            rfl
          have hReads := reads_cons hPart hRest
          rwa [String.toList_append, String.toList_singleton]
            at hReads

/- An expression that is read further on is read anywhere. -/
theorem parse_ofList_of_parseAt
    {offset : Nat}
    {cs : List Char}
    {expr : Expr}
    (h : Expr.parseAt offset cs = .ok expr) :
    Expr.parse (String.ofList cs) = .ok expr := by
  have hShift := Expr.parseAt_shift offset 0 cs
  rw [Nat.add_zero, h] at hShift
  rw [Expr.parse, String.toList_ofList]
  cases hParse : Expr.parseAt 0 cs with
  | error e =>
      rw [hParse] at hShift
      cases hShift
  | ok value =>
      rw [hParse] at hShift
      cases hShift
      rfl

/- An expression in braces is read from its piece. -/
theorem reads_expression
    {position length : Nat}
    {c : Char}
    {cs inside : List Char}
    {expr : Expr}
    {parts : List Part}
    (hOpen :
      (if c = '$' then behindBrace? cs else none) = some inside)
    (hBrace : closingBrace? none inside = some length)
    (hExpr :
      Expr.parseAt (position + 2) (inside.take length) = .ok expr)
    (hReads : Reads parts (cs.drop (length + 2))) :
    Reads (.expression expr :: parts) (c :: cs) := by
  have hDollar : c = '$' := by
    by_contra hOther
    rw [if_neg hOther] at hOpen
    cases hOpen
  have hInside := behindBrace?_eq_some hOpen
  let body := String.ofList (inside.take length)
  have hPart : (Part.expression expr).ReadFrom (embed body) :=
    ⟨body, rfl, parse_ofList_of_parseAt hExpr⟩
  rw [hInside, List.drop_succ_cons] at hReads
  have hText :
      c :: cs = (embed body).toList ++ inside.drop (length + 1) := by
    rw [hDollar, hInside, toList_embed, String.toList_ofList]
    simp [← eq_of_closingBrace? hBrace]
  rw [hText]
  exact reads_cons hPart hReads

/- The joined segments of a text are read from it. -/
theorem reads_joined
    {owed position : Nat}
    {cs : List Char}
    {us : List Segment}
    (h : segmentsFrom owed position cs = .ok us) :
    Reads (joined us) (cs.drop owed) := by
  induction cs generalizing owed position us with
  | nil =>
      cases h
      exact ⟨[], .nil, by simp⟩
  | cons c cs ih =>
      cases owed with
      | succ owed => exact ih h
      | zero =>
          rcases exists_starts h with
            ⟨u, owed, vs, hStarts, hRest, rfl⟩
          have hReads := ih hRest
          cases hStarts with
          | char hOpen => exact reads_consChar c hReads
          | expression hOpen hBrace hExpr =>
              exact reads_expression hOpen hBrace hExpr hReads

------------------------------------------------------------
-- Normal Forms
------------------------------------------------------------

/- No parts are in normal form. -/
theorem normal_nil :
    Normal [] :=
  ⟨by simp, .nil⟩

/- A part in front that is apart from the next. -/
theorem Normal.cons
    {part : Part}
    {parts : List Part}
    (hText : ∀ content, part = .text content →
      content ≠ "" ∧ ¬ HasOpening content.toList)
    (hApart : ∀ next ∈ parts.head?,
      part.isText = false ∨ next.isText = false)
    (h : Normal parts) :
    Normal (part :: parts) := by
  refine ⟨?_, List.isChain_cons.2 ⟨hApart, h.apart⟩⟩
  intro content hMem
  rcases List.mem_cons.1 hMem with hFirst | hRest
  · exact hText content hFirst.symm
  · exact h.texts content hRest

/- The parts behind the first are in normal form. -/
theorem Normal.tail
    {part : Part}
    {parts : List Part}
    (h : Normal (part :: parts)) :
    Normal parts :=
  ⟨fun content hMem => h.texts content (List.mem_cons_of_mem _ hMem),
    (List.isChain_cons.1 h.apart).2⟩

/- The first part is apart from the next. -/
theorem Normal.apart_head
    {part : Part}
    {parts : List Part}
    (h : Normal (part :: parts)) :
    ∀ next ∈ parts.head?,
      part.isText = false ∨ next.isText = false :=
  (List.isChain_cons.1 h.apart).1

/- No two texts are neighbours in a normal form. -/
theorem not_normal_texts
    {content more : String}
    {parts : List Part} :
    ¬ Normal (.text content :: .text more :: parts) := by
  intro h
  rcases h.apart_head _ rfl with hText | hText <;> cases hText

/- Parts in normal form are no single empty text. -/
theorem Normal.ne_empty
    {parts : List Part}
    (h : Normal parts) :
    parts ≠ [.text ""] := by
  rintro rfl
  exact (h.texts "" List.mem_cons_self).1 rfl

/- A character that is no opening may come first. -/
theorem normal_consChar
    {c : Char}
    {parts : List Part}
    {cs : List Char}
    (hOpen : ¬ ['$', '\x7b'] <+: c :: cs)
    (hReads : Reads parts cs)
    (h : Normal parts) :
    Normal (consChar c parts) := by
  have hAlone :
      ∀ content, Part.text (String.singleton c) = .text content →
        content ≠ "" ∧ ¬ HasOpening content.toList := by
    rintro content hEq
    cases hEq
    exact ⟨by simp, by simpa using not_hasOpening_singleton c⟩
  cases parts with
  | nil => exact normal_nil.cons hAlone (by simp)
  | cons part parts =>
      cases part with
      | expression expr => exact h.cons hAlone (by simp [Part.isText])
      | text content =>
          rcases hReads.text_cons with ⟨ds, rfl, -⟩
          refine h.tail.cons ?_ h.apart_head
          rintro joint hEq
          cases hEq
          refine ⟨by simp, ?_⟩
          rw [String.toList_append, String.toList_singleton,
            List.singleton_append, hasOpening_cons, not_or]
          refine ⟨fun hFirst => ?_,
            (h.texts content List.mem_cons_self).2⟩
          apply hOpen
          rw [← List.cons_append]
          exact hFirst.trans (List.prefix_append _ _)

/- Joined segments are in normal form. -/
theorem normal_joined
    {owed position : Nat}
    {cs : List Char}
    {us : List Segment}
    (h : segmentsFrom owed position cs = .ok us) :
    Normal (joined us) := by
  induction cs generalizing owed position us with
  | nil =>
      cases h
      exact normal_nil
  | cons c cs ih =>
      cases owed with
      | succ owed => exact ih h
      | zero =>
          rcases exists_starts h with
            ⟨u, owed, vs, hStarts, hRest, rfl⟩
          cases hStarts with
          | char hOpen =>
              rw [behindBrace?_eq_none_iff] at hOpen
              exact normal_consChar hOpen (reads_joined hRest)
                (ih hRest)
          | expression hOpen hBrace hExpr =>
              exact (ih hRest).cons (by simp) (by simp [Part.isText])

------------------------------------------------------------
-- Texts Without Expressions
------------------------------------------------------------

/- Where no expression begins there are only characters. -/
theorem segmentsFrom_of_not_hasOpening
    {cs : List Char}
    (position : Nat)
    (h : ¬ HasOpening cs) :
    segmentsFrom 0 position cs = .ok (cs.map Segment.char) := by
  induction cs generalizing position with
  | nil => rfl
  | cons c cs ih =>
      rw [hasOpening_cons, not_or] at h
      have hStarts :
          Starts position c cs (.char c) 0 :=
        .char (behindBrace?_eq_none_iff.2 h.1)
      rw [segmentsFrom_of_starts hStarts, ih _ h.2]
      rfl

/- Characters are joined to one text. -/
theorem ofParts_joined_chars
    (cs : List Char) :
    ofParts (joined (cs.map Segment.char)) =
      .literal (String.ofList cs) := by
  cases cs with
  | nil => rfl
  | cons c cs =>
      have hJoined :
          joined ((c :: cs).map Segment.char) =
            [.text (String.ofList (c :: cs))] := by
        induction cs generalizing c with
        | nil => rfl
        | cons d cs ih =>
            rw [List.map_cons, joined, ih, consChar]
            simp [String.ofList_cons]
      rw [hJoined]
      rfl

/- A text without expressions is its own template. -/
theorem parse_of_not_hasOpening
    {source : String}
    (h : ¬ HasOpening source.toList) :
    parse source = .ok (.literal source) := by
  rw [parse_eq_map_segments, segments,
    segmentsFrom_of_not_hasOpening 0 h]
  simp only [Except.map, ofParts_joined_chars, String.ofList_toList]

------------------------------------------------------------
-- Pieces One Behind the Other
------------------------------------------------------------

/- An expression in braces is a template of its own. -/
theorem parse_embed_of_parse
    {body : String}
    {expr : Expr}
    (h : Expr.parse body = .ok expr) :
    parse (embed body) = .ok (.expression expr) := by
  rcases Expr.tokenize_of_parse h with ⟨tokens, stop, hTokens⟩
  rw [parse_embed (passes_of_tokenize hTokens), h]
  rfl

/- A piece alone gives its part. -/
theorem parse_of_readFrom
    {part : Part}
    {piece : String}
    (hNormal : Normal [part])
    (hRead : part.ReadFrom piece) :
    parse piece = .ok (ofParts [part]) := by
  cases part with
  | text content =>
      cases hRead
      exact parse_of_not_hasOpening
        (hNormal.texts _ List.mem_cons_self).2
  | expression expr =>
      rcases hRead with ⟨body, rfl, hParse⟩
      exact parse_embed_of_parse hParse

/-
  No opening comes about between a piece and the next, since
  only an expression can follow a text.
-/
theorem apart_of_readFrom
    {part : Part}
    {parts : List Part}
    {piece : String}
    {pieces : List String}
    (hNormal : Normal (part :: parts))
    (hRead : part.ReadFrom piece)
    (hPieces : List.Forall₂ Part.ReadFrom parts pieces) :
    Apart piece.toList (String.join pieces).toList := by
  rintro ⟨hLast, hHead⟩
  cases part with
  | expression expr =>
      rcases hRead with ⟨body, rfl, -⟩
      rw [toList_embed, ← List.cons_append, ← List.cons_append,
        List.getLast?_concat] at hLast
      cases hLast
  | text content =>
      cases hPieces with
      | nil => simp at hHead
      | @cons next piece parts pieces hNext hRest =>
          cases next with
          | text more => exact absurd hNormal not_normal_texts
          | expression expr =>
              rcases hNext with ⟨body, rfl, -⟩
              rw [String.join_cons, String.toList_append,
                toList_embed] at hHead
              cases hHead

/- A part in front of parts that it is apart from. -/
theorem joinParts_singleton
    {part : Part}
    {parts : List Part}
    (h : ∀ next ∈ parts.head?,
      part.isText = false ∨ next.isText = false) :
    joinParts [part] parts = part :: parts := by
  cases parts with
  | nil => cases part <;> rfl
  | cons next parts =>
      rcases h next rfl with hText | hText
      · cases part <;> first | rfl | cases hText
      · cases next <;> cases part <;> first | rfl | cases hText

/- The pieces of parts in normal form give these parts. -/
theorem parse_join
    {parts : List Part}
    {pieces : List String}
    (hNormal : Normal parts)
    (hPieces : List.Forall₂ Part.ReadFrom parts pieces) :
    parse (String.join pieces) = .ok (ofParts parts) := by
  induction hPieces with
  | nil => rfl
  | @cons part piece parts pieces hRead hPieces ih =>
      have hAlone : Normal [part] :=
        normal_nil.cons
          (fun content hEq => hNormal.texts content (by simp [hEq]))
          (by simp)
      have hAppend :=
        parse_append (parse_of_readFrom hAlone hRead)
          (apart_of_readFrom hNormal hRead hPieces)
      rw [ih hNormal.tail] at hAppend
      rw [String.join_cons, hAppend]
      simp only [Except.map, Except.mapError,
        partList_ofParts hAlone.ne_empty,
        partList_ofParts hNormal.tail.ne_empty,
        joinParts_singleton hNormal.apart_head]

/- What can be read can be read from its canonical text. -/
theorem Part.ReadFrom.written
    {part : Part}
    {piece : String}
    (h : part.ReadFrom piece) :
    part.ReadFrom part.written := by
  cases part with
  | text content => rfl
  | expression expr =>
      rcases h with ⟨body, -, hParse⟩
      have hCanonical := Expr.canonical_of_parse hParse
      exact ⟨expr.text, rfl, Expr.parse_text hCanonical⟩

/- Parts that can be read can be read from what is written. -/
theorem Reads.written
    {parts : List Part}
    {cs : List Char}
    (h : Reads parts cs) :
    List.Forall₂ Part.ReadFrom parts (parts.map Part.written) := by
  rcases h with ⟨pieces, hPieces, -⟩
  induction hPieces with
  | nil => exact .nil
  | cons hRead hRest ih => exact .cons hRead.written ih

------------------------------------------------------------
-- Templates
------------------------------------------------------------

/- A template has the parts of its text, in normal form. -/
theorem normal_of_parse
    {source : String}
    {template : Template}
    (h : parse source = .ok template) :
    Normal template.partList ∧
      Reads template.partList source.toList ∧
      template = ofParts template.partList := by
  rw [parse_eq_map_segments] at h
  rcases exists_of_map_eq_ok h with ⟨us, hSegments, rfl⟩
  rw [partList_ofParts (joined_ne_empty us)]
  exact ⟨normal_joined hSegments, reads_joined hSegments, rfl⟩

/- Where an expression begins, one of the parts is one. -/
theorem exists_expression
    {parts : List Part}
    {cs : List Char}
    (hNormal : Normal parts)
    (hReads : Reads parts cs)
    (hOpening : HasOpening cs) :
    ∃ expr, Part.expression expr ∈ parts := by
  cases parts with
  | nil =>
      rcases hReads with ⟨pieces, hPieces, rfl⟩
      cases hPieces
      simp [HasOpening] at hOpening
  | cons part parts =>
      cases part with
      | expression expr => exact ⟨expr, List.mem_cons_self⟩
      | text content =>
          rcases hReads.text_cons with ⟨ds, rfl, hRest⟩
          cases parts with
          | nil =>
              rcases hRest with ⟨pieces, hPieces, rfl⟩
              cases hPieces
              have hClosed :=
                (hNormal.texts content List.mem_cons_self).2
              simp at hOpening
              exact absurd hOpening hClosed
          | cons next parts =>
              cases next with
              | expression expr => exact ⟨expr, by simp⟩
              | text more => exact absurd hNormal not_normal_texts

/- A mixture has two parts or more. -/
theorem two_le_length_of_ofParts
    {parts others : List Part}
    (h : ofParts parts = .composite others) :
    2 ≤ others.length := by
  unfold ofParts at h
  split at h
  · cases h
  · cases h
  · cases h
  · rename_i hNil hText hExpression
    cases h
    match parts with
    | [] => exact absurd rfl hNil
    | [.text content] => exact absurd rfl (hText content)
    | [.expression expr] => exact absurd rfl (hExpression expr)
    | _ :: _ :: _ => simp

/-
  A text that is a template stands for itself just if no
  expression begins in it.  Else it has at least one, its parts
  are in normal form, two or more if it is a mixture, and it is
  made of pieces that they can be read from.  Written with
  canonical texts, the template is read back.
-/
theorem parse_written_of_parse
    (source : String)
    (template : Template)
    (h : parse source = .ok template) :
    (template = .literal source ↔ ¬ HasOpening source.toList) ∧
    (HasOpening source.toList →
      (∃ expr, Part.expression expr ∈ template.partList) ∧
      Normal template.partList ∧
      (∀ parts, template = .composite parts → 2 ≤ parts.length) ∧
      ∃ pieces,
        List.Forall₂ Part.ReadFrom template.partList pieces ∧
          source = String.join pieces) ∧
    parse template.written = .ok template := by
  rcases normal_of_parse h with ⟨hNormal, hReads, hParts⟩
  refine ⟨⟨?_, ?_⟩, fun hOpening => ⟨?_, hNormal, ?_, ?_⟩, ?_⟩
  · rintro rfl hOpening
    rcases exists_expression hNormal hReads hOpening with
      ⟨expr, hMem⟩
    rw [partList] at hMem
    split at hMem <;> simp at hMem
  · intro hClosed
    rw [parse_of_not_hasOpening hClosed] at h
    exact (Except.ok.inj h).symm
  · exact exists_expression hNormal hReads hOpening
  · intro parts hComposite
    rw [hParts] at hComposite
    exact two_le_length_of_ofParts hComposite
  · rcases hReads with ⟨pieces, hPieces, hText⟩
    exact ⟨pieces, hPieces, String.toList_injective hText⟩
  · rw [written_eq_join, parse_join hNormal hReads.written, ← hParts]

/- A dollar sign and a brace right beside an expression. -/
theorem parse_written_braces :
    parse "a$$\x7b'\x7d' == x\x7d\x7bb" =
        .ok (.composite [.text "a$",
          .expression (.binary (.equality .equal)
            (.literal (.string "\x7d")) (.var "x")),
          .text "\x7bb"]) ∧
      parse "a$$\x7b(\"\x7d\" == x)\x7d\x7bb" =
        .ok (.composite [.text "a$",
          .expression (.binary (.equality .equal)
            (.literal (.string "\x7d")) (.var "x")),
          .text "\x7bb"]) := by
  have hTokens :
      Lexer.tokenize "'\x7d' == x".toList 0 =
        ⟨[⟨.string "\x7d", "'\x7d'", 0⟩,
          ⟨.operator (.equality .equal), "==", 4⟩,
          ⟨.identifier "x", "x", 7⟩], .complete 8⟩ := by
    decide +kernel
  have hExpr :
      Expr.parse "'\x7d' == x" =
        .ok (.binary (.equality .equal) (.literal (.string "\x7d"))
          (.var "x")) := by
    rw [Expr.parse, Expr.parseAt, hTokens]
    rfl
  have hOpening : ∀ cs ∈ ["a$".toList, "\x7bb".toList],
      ¬ HasOpening cs := by
    unfold HasOpening
    decide
  have hNormal :
      Normal [.text "a$",
        .expression (.binary (.equality .equal)
          (.literal (.string "\x7d")) (.var "x")),
        .text "\x7bb"] := by
    refine ⟨?_, by simp [Part.isText]⟩
    simpa using hOpening
  have hPieces :
      String.join ["a$", embed "'\x7d' == x", "\x7bb"] =
        "a$$\x7b'\x7d' == x\x7d\x7bb" := by
    decide +kernel
  have hWritten :
      written (.composite [.text "a$",
        .expression (.binary (.equality .equal)
          (.literal (.string "\x7d")) (.var "x")),
        .text "\x7bb"]) =
          "a$$\x7b(\"\x7d\" == x)\x7d\x7bb" := by
    decide +kernel
  have hParse :
      parse "a$$\x7b'\x7d' == x\x7d\x7bb" =
        .ok (.composite [.text "a$",
          .expression (.binary (.equality .equal)
            (.literal (.string "\x7d")) (.var "x")),
          .text "\x7bb"]) := by
    rw [← hPieces]
    exact parse_join hNormal
      (.cons rfl (.cons ⟨_, rfl, hExpr⟩ (.cons rfl .nil)))
  have hAgain := (parse_written_of_parse _ _ hParse).2.2
  rw [hWritten] at hAgain
  exact ⟨hParse, hAgain⟩

end Template

end PageExpr
