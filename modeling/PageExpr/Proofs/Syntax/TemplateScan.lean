import PageExpr.Proofs.Syntax.Consumption
import PageExpr.Proofs.Syntax.DescentAgreement
import PageExpr.Proofs.Syntax.TemplateErrors

/-
  Reading a template by an index into its text.

  Two loops go through a text.  The one looks for the brace
  that closes an expression, the other collects characters and
  reads an expression from each opening brace on.  Each round
  of either moves its index forward, so there are no more
  rounds than characters, and one for the end; and they find
  what the text has as a whole.

  Main declarations:
    * `Template.BraceSearch`, `Template.BraceSearch.run`
    * `Template.Scan`, `Template.Scan.round`, `Template.Scan.loop`
    * `Template.Scan.template`
    * `Template.Scan.meets_round`, `Template.Scan.meets_loop`
    * `Template.Scan.meets_template`
-/

namespace PageExpr

namespace Template

open Descent

------------------------------------------------------------
-- Looking for a Brace
------------------------------------------------------------

/- The character at an index is the first one behind it. -/
theorem drop_eq_cons
    {text : List Char}
    {index : Nat}
    {c : Char}
    (h : text[index]? = some c) :
    text.drop index = c :: text.drop (index + 1) := by
  rcases List.getElem?_eq_some_iff.1 h with ⟨hIndex, rfl⟩
  exact List.drop_eq_getElem_cons hIndex

/-
  An index into a text, and the quote that ends the string
  around it, if there is one.
-/
structure BraceSearch where
  index : Nat
  quote : Option Char

namespace BraceSearch

/-
  Look at the character at the index.  The search goes on
  behind it, unless it is the brace that is looked for.
-/
def round
    (c : Char)
    (search : BraceSearch) : Option BraceSearch :=
  match search.quote with
  | none =>
      if c = '\x7d' then none
      else
        some ⟨search.index + 1, if isQuote c then some c else none⟩
  | some q =>
      if c = '\\' then some ⟨search.index + 2, some q⟩
      else some ⟨search.index + 1, if c = q then none else some q⟩

/-
  The index of the closing brace, if there is one, found in at
  most so many rounds.
-/
def run
    (text : List Char) :
    Nat → BraceSearch → Option (Option Nat)
  | 0, _ => none
  | rounds + 1, search =>
      match text[search.index]? with
      | none => some none
      | some c =>
          match search.round c with
          | none => some (some search.index)
          | some next => run text rounds next

/- A round that goes on moves the index forward. -/
theorem index_lt_of_round
    {c : Char}
    {search next : BraceSearch}
    (h : search.round c = some next) :
    search.index < next.index := by
  unfold round at h
  split at h <;> split at h <;> cases h <;>
    simp only [Nat.lt_add_one, Nat.lt_add_right_iff_pos, Nat.succ_pos]

/- What the rest of a text has, a search finds from its index. -/
def brace?
    (text : List Char)
    (search : BraceSearch) : Option Nat :=
  (closingBrace? search.quote (text.drop search.index)).map
    (search.index + ·)

/- At the end of the text there is no brace. -/
theorem brace?_of_none
    {text : List Char}
    {search : BraceSearch}
    (h : text[search.index]? = none) :
    search.brace? text = none := by
  rw [brace?, List.drop_eq_nil_of_le (List.getElem?_eq_none_iff.1 h)]
  rfl

/- A round finds the brace at its index, or loses none. -/
theorem brace?_of_some
    {text : List Char}
    {search : BraceSearch}
    {c : Char}
    (h : text[search.index]? = some c) :
    search.brace? text =
      match search.round c with
      | none => some search.index
      | some next => next.brace? text := by
  rcases search with ⟨index, quote⟩
  have hRest : text.drop index = c :: text.drop (index + 1) :=
    drop_eq_cons h
  have hAdd :
      ∀ k (found : Option Nat),
        (found.map (· + k)).map (index + ·) =
          found.map (index + k + ·) := by
    intro k found
    rw [Option.map_map]
    congr 1
    funext n
    simp only [Function.comp_apply]
    omega
  rw [brace?, hRest]
  cases quote with
  | none =>
      rw [closingBrace?, round]
      split
      · rfl
      · exact hAdd 1 _
  | some q =>
      rw [closingBrace?.eq_def, round]
      dsimp only
      split
      · -- A backslash hides what is behind it, if there is any.
        have hNext :
            text.drop (index + 2) =
              (text.drop (index + 1)).drop 1 := by
          rw [List.drop_drop]
        dsimp only [brace?]
        rw [hNext]
        cases text.drop (index + 1) with
        | nil => rfl
        | cons d rest => exact hAdd 2 _
      · exact hAdd 1 _

/-
  With more rounds than characters that are left, the search
  finds the closing brace; with fewer it may only fail to end.
-/
theorem run_cases
    (text : List Char)
    (rounds : Nat)
    (search : BraceSearch) :
    run text rounds search = some (search.brace? text) ∨
      run text rounds search = none ∧
        rounds ≤ text.length - search.index := by
  induction rounds generalizing search with
  | zero => exact .inr ⟨rfl, Nat.zero_le _⟩
  | succ rounds ih =>
      rw [run]
      cases hChar : text[search.index]? with
      | none => exact .inl (by rw [brace?_of_none hChar])
      | some c =>
          have hIndex := (List.getElem?_eq_some_iff.1 hChar).1
          rw [brace?_of_some hChar]
          dsimp only
          cases hRound : search.round c with
          | none => exact .inl rfl
          | some next =>
              have hForward := index_lt_of_round hRound
              refine (ih next).imp (fun h => h) fun h => ?_
              exact ⟨h.1, by omega⟩

end BraceSearch

------------------------------------------------------------
-- Scanning
------------------------------------------------------------

/-
  An index into a text, the characters since the last part, the
  parts before them, and how often the lexer was called for
  each expression so far.
-/
structure Scan where
  index : Nat
  literal : List Char
  parts : List Part
  calls : List Nat

/- A part of a scan, which may stop it. -/
abbrev Scanning (α : Type) :=
  EStateM Stop Scan α

namespace Scan

/- The start of a text. -/
def start : Scan :=
  ⟨0, [], [], []⟩

/- Characters are a part unless there are none. -/
def textParts : List Char → List Part
  | [] => []
  | cs => [.text (String.ofList cs)]

/- All parts, with the characters behind the last one. -/
def allParts
    (scan : Scan) : List Part :=
  scan.parts ++ textParts scan.literal

/-
  Read the expression between the opening brace at the index
  and its closing brace.
-/
def enclosed
    (bound : Nat)
    (text : List Char)
    (close : Nat) : Scanning Unit :=
  fun scan =>
    let body := scan.index + 2
    let source := (text.drop body).take (close - body)
    match Descent.parse bound body source with
    | .error stop s =>
        .error stop { scan with calls := s.calls :: scan.calls }
    | .ok expr s =>
        .ok ()
          { index := close + 1
            literal := []
            parts := scan.allParts ++ [.expression expr]
            calls := s.calls :: scan.calls }

/- Read the expression of the opening brace at the index. -/
def embedded
    (bound : Nat)
    (text : List Char) : Scanning Unit :=
  fun scan =>
    match BraceSearch.run text bound ⟨scan.index + 2, none⟩ with
    | none => .error .exhausted scan
    | some none => .error (.rejected (.unterminated scan.index)) scan
    | some (some close) => enclosed bound text close scan

/- Look at the character at the index. -/
def round
    (bound : Nat)
    (text : List Char)
    (c : Char) : Scanning Unit :=
  fun scan =>
    if c = '$' ∧ text[scan.index + 1]? = some '\x7b' then
      embedded bound text scan
    else
      .ok ()
        { scan with
          index := scan.index + 1
          literal := scan.literal ++ [c] }

/- Rounds up to the end of the text. -/
def loop
    (bound : Nat)
    (text : List Char) : Nat → Scanning Unit
  | 0 => throw .exhausted
  | rounds + 1 => do
      match text[(← get).index]? with
      | none => return
      | some c =>
          round bound text c
          loop bound text rounds

/- Read the template of a text. -/
def template
    (bound : Nat)
    (text : List Char) : Scanning Template := do
  loop bound text bound
  return ofParts (← get).allParts

------------------------------------------------------------
-- What Is Found
------------------------------------------------------------

/- The parts that there are if the rest has these segments. -/
def partsWith
    (scan : Scan)
    (us : List Segment) : List Part :=
  scan.parts ++ joined (scan.literal.map .char ++ us)

/- What the text as a whole has, as seen from the index. -/
def outlook
    (text : List Char)
    (scan : Scan) : Except SyntaxError (List Part) :=
  (segmentsFrom 0 scan.index (text.drop scan.index)).map
    scan.partsWith

/- Characters before no other character are one part. -/
theorem joined_chars
    (cs : List Char)
    (us : List Segment)
    (h : ∀ d, us.head? ≠ some (.char d)) :
    joined (cs.map .char ++ us) = textParts cs ++ joined us := by
  induction cs with
  | nil => rfl
  | cons c cs ih =>
      rw [List.map_cons, List.cons_append, joined, ih]
      cases cs with
      | nil =>
          cases us with
          | nil => rfl
          | cons u us =>
              cases u with
              | char d => exact absurd rfl (h d)
              | expression expr => rfl
      | cons d cs => simp [textParts, consChar, String.ofList_cons]

/- Owed characters are passed over. -/
theorem segmentsFrom_owed
    (owed position : Nat)
    (cs : List Char) :
    segmentsFrom owed position cs =
      segmentsFrom 0 (position + owed) (cs.drop owed) := by
  induction cs generalizing owed position with
  | nil =>
      rw [List.drop_nil]
      rfl
  | cons c cs ih =>
      cases owed with
      | zero => rfl
      | succ owed =>
          rw [segmentsFrom, ih, List.drop_succ_cons]
          congr 1
          omega

/- An opening brace is told by two characters. -/
theorem behindBrace?_drop
    (c : Char)
    (text : List Char)
    (index : Nat) :
    (if c = '$' then behindBrace? (text.drop index) else none) =
      if c = '$' ∧ text[index]? = some '\x7b' then
        some (text.drop (index + 1))
      else none := by
  by_cases hDollar : c = '$'
  · cases hChar : text[index]? with
    | none =>
        rw [List.drop_eq_nil_of_le (List.getElem?_eq_none_iff.1 hChar)]
        simp [behindBrace?]
    | some d =>
        rw [drop_eq_cons hChar, behindBrace?]
        simp [hDollar]
  · simp [hDollar]

/- A character that opens nothing is one more of the last part. -/
theorem outlook_char
    {text : List Char}
    {scan : Scan}
    {c : Char}
    (hChar : text[scan.index]? = some c)
    (hOpen :
      ¬ (c = '$' ∧ text[scan.index + 1]? = some '\x7b')) :
    outlook text
        { scan with
          index := scan.index + 1
          literal := scan.literal ++ [c] } =
      outlook text scan := by
  have hStarts :
      Starts scan.index c (text.drop (scan.index + 1)) (.char c) 0 :=
    .char (by rw [behindBrace?_drop, if_neg hOpen])
  rw [outlook, outlook, drop_eq_cons hChar,
    segmentsFrom_of_starts hStarts]
  dsimp only
  cases segmentsFrom 0 (scan.index + 1)
      (text.drop (scan.index + 1)) with
  | error e => rfl
  | ok us => simp [Except.map, partsWith]

/- An expression ends the characters before it. -/
theorem outlook_expression
    {text : List Char}
    {scan : Scan}
    {c : Char}
    {length : Nat}
    {expr : Expr}
    (hChar : text[scan.index]? = some c)
    (hOpen : c = '$' ∧ text[scan.index + 1]? = some '\x7b')
    (hBrace :
      closingBrace? none (text.drop (scan.index + 2)) =
        some length)
    (hExpr :
      Expr.parseAt (scan.index + 2)
          ((text.drop (scan.index + 2)).take length) =
        .ok expr)
    (calls : List Nat) :
    outlook text
        { index := scan.index + 2 + length + 1
          literal := []
          parts := scan.allParts ++ [.expression expr]
          calls := calls } =
      outlook text scan := by
  have hIndex :
      scan.index + 1 + (length + 2) = scan.index + 2 + length + 1 := by
    omega
  have hStarts :
      Starts scan.index c (text.drop (scan.index + 1))
        (.expression expr) (length + 2) :=
    .expression (by rw [behindBrace?_drop, if_pos hOpen]) hBrace
      hExpr
  rw [outlook, outlook, drop_eq_cons hChar,
    segmentsFrom_of_starts hStarts, segmentsFrom_owed (length + 2),
    List.drop_drop, hIndex]
  dsimp only
  cases segmentsFrom 0 (scan.index + 2 + length + 1)
      (text.drop (scan.index + 2 + length + 1)) with
  | error e => rfl
  | ok us =>
      have hJoined := joined_chars scan.literal
        (.expression expr :: us) (by simp)
      simp [Except.map, partsWith, allParts, hJoined, joined]

/- What is wrong inside an opening brace is wrong with the text. -/
theorem outlook_fails
    {text : List Char}
    {scan : Scan}
    {c : Char}
    {e : SyntaxError}
    (hChar : text[scan.index]? = some c)
    (hOpen : c = '$' ∧ text[scan.index + 1]? = some '\x7b')
    (h : Template.Fails scan.index (text.drop (scan.index + 2)) e) :
    outlook text scan = .error e := by
  have hRest :
      text.drop scan.index =
        '$' :: '\x7b' :: text.drop (scan.index + 2) := by
    rw [drop_eq_cons hChar, drop_eq_cons hOpen.2, hOpen.1]
  rw [outlook, hRest, h.segmentsFrom_eq]
  rfl

/- At the end of the text all parts are there. -/
theorem outlook_end
    {text : List Char}
    {scan : Scan}
    (h : text[scan.index]? = none) :
    outlook text scan = .ok scan.allParts := by
  have hJoined := joined_chars scan.literal [] (by simp)
  rw [outlook, List.drop_eq_nil_of_le (List.getElem?_eq_none_iff.1 h)]
  simp only [segmentsFrom, Except.map, partsWith, hJoined]
  simp [joined, allParts]

------------------------------------------------------------
-- Rounds
------------------------------------------------------------

/-
  The lexer is called at most once for each character and once
  more, for each expression that is read on the way.
-/
def CallsWithin
    (text : List Char)
    (scan scan' : Scan) : Prop :=
  ∀ calls ∈ scan'.calls,
    calls ∈ scan.calls ∨ calls ≤ text.length + 1

/-
  What a round does: it moves the index forward within the
  text, and finds nothing but what the text has.
-/
structure Moves
    (text : List Char)
    (scan scan' : Scan) : Prop where
  forward : scan.index < scan'.index
  within : scan'.index ≤ text.length
  outlook : scan'.outlook text = scan.outlook text
  calls : CallsWithin text scan scan'

/-
  Where scanning stops: at what is wrong with the text, or with
  a bound that is too small for it.
-/
structure Stops
    (bound : Nat)
    (text : List Char)
    (scan : Scan)
    (stop : Stop)
    (scan' : Scan) : Prop where
  outlook : ∀ e, stop = .rejected e → scan.outlook text = .error e
  calls : CallsWithin text scan scan'
  exhausted : stop = .exhausted → bound < 10 * (text.length + 1)

/- Over one round and the next. -/
theorem CallsWithin.trans
    {text : List Char}
    {scan scan' scan'' : Scan}
    (h : CallsWithin text scan scan')
    (h' : CallsWithin text scan' scan'') :
    CallsWithin text scan scan'' :=
  fun calls hMem => (h' calls hMem).elim (h calls) Or.inr

section Rounds

variable {bound : Nat} {text : List Char} {scan : Scan} {c : Char}

/- The calls for one more expression. -/
theorem callsWithin_cons
    {source : List Char}
    {s : State}
    (hFrugal : Frugal source s)
    (hSource : source.length ≤ text.length) :
    ∀ calls ∈ s.calls :: scan.calls,
      calls ∈ scan.calls ∨ calls ≤ text.length + 1 := by
  intro calls hMem
  rcases List.mem_cons.1 hMem with rfl | hMem
  · have hCalls := hFrugal.calls
    exact Or.inr (by omega)
  · exact Or.inl hMem

/-
  What reading a part of the text by recursive descent gives,
  and what it costs.
-/
theorem parse_cases
    (bound offset : Nat)
    (source : List Char) :
    ∃ s, Frugal source s ∧
      ((∃ expr, Descent.parse bound offset source = .ok expr s ∧
          Expr.parseAt offset source = .ok expr) ∨
        ∃ stop, Descent.parse bound offset source = .error stop s ∧
          (∀ e, stop = .rejected e →
            Expr.parseAt offset source = .error e) ∧
          (stop = .exhausted → bound < 10 * (source.length + 1))) := by
  have hWhole := (meets_whole bound offset source).and
    (agrees_whole bound offset source)
  rw [Meets, ← Descent.parse] at hWhole
  cases hRun : Descent.parse bound offset source with
  | ok expr s =>
      rw [hRun] at hWhole
      exact ⟨s, hWhole.1, .inl ⟨expr, rfl, hWhole.2⟩⟩
  | error stop s =>
      rw [hRun] at hWhole
      exact ⟨s, hWhole.1.1, .inr ⟨stop, rfl, hWhole.2, hWhole.1.2⟩⟩

/- An expression is read between its braces. -/
theorem meets_enclosed
    {length : Nat}
    (hChar : text[scan.index]? = some c)
    (hOpen : c = '$' ∧ text[scan.index + 1]? = some '\x7b')
    (hBrace :
      closingBrace? none (text.drop (scan.index + 2)) =
        some length) :
    Meets (enclosed bound text (scan.index + 2 + length)) scan
      (fun _ => Moves text scan) (Stops bound text scan) := by
  have hBody :
      scan.index + 2 + length - (scan.index + 2) = length :=
    Nat.add_sub_cancel_left _ _
  have hShort : scan.index + 2 + length < text.length := by
    have hLength := congrArg List.length (eq_of_closingBrace? hBrace)
    simp only [List.length_append, List.length_take,
      List.length_cons, List.length_drop] at hLength
    omega
  have hSource :
      ((text.drop (scan.index + 2)).take length).length ≤
        text.length := by
    simp only [List.length_take, List.length_drop]
    omega
  unfold Meets enclosed
  simp only [hBody]
  rcases parse_cases bound (scan.index + 2)
      ((text.drop (scan.index + 2)).take length) with
    ⟨s, hFrugal, ⟨expr, hRun, hExpr⟩ | ⟨stop, hRun, hError, hBound⟩⟩
  · rw [hRun]
    exact
      { forward := by dsimp only; omega
        within := hShort
        outlook := outlook_expression hChar hOpen hBrace hExpr _
        calls := callsWithin_cons hFrugal hSource }
  · rw [hRun]
    refine ⟨fun e hStop => ?_, callsWithin_cons hFrugal hSource,
      fun hStop => ?_⟩
    · have hFails := Template.Fails.expression hBrace (hError e hStop)
      exact outlook_fails hChar hOpen hFails
    · have hLess := hBound hStop
      omega

/- An expression is read from its opening brace on. -/
theorem meets_embedded
    (hChar : text[scan.index]? = some c)
    (hOpen : c = '$' ∧ text[scan.index + 1]? = some '\x7b') :
    Meets (embedded bound text) scan
      (fun _ => Moves text scan) (Stops bound text scan) := by
  have hKept : CallsWithin text scan scan := fun _ => Or.inl
  unfold Meets embedded
  rcases BraceSearch.run_cases text bound ⟨scan.index + 2, none⟩ with
    hFound | ⟨hNone, hShort⟩
  · rw [hFound, BraceSearch.brace?]
    cases hBrace : closingBrace? none (text.drop (scan.index + 2)) with
    | none =>
        have hFails := outlook_fails hChar hOpen (.unterminated hBrace)
        refine ⟨fun e hStop => ?_, hKept, fun hStop => ?_⟩
        · cases hStop
          exact hFails
        · cases hStop
    | some length => exact meets_enclosed hChar hOpen hBrace
  · rw [hNone]
    refine ⟨fun e hStop => ?_, hKept, fun _ => ?_⟩
    · cases hStop
    · dsimp only at hShort
      omega

/- Each round moves on. -/
theorem meets_round
    (hChar : text[scan.index]? = some c) :
    Meets (round bound text c) scan
      (fun _ => Moves text scan) (Stops bound text scan) := by
  have hIndex := (List.getElem?_eq_some_iff.1 hChar).1
  unfold Meets round
  dsimp only
  by_cases hOpen : c = '$' ∧ text[scan.index + 1]? = some '\x7b'
  · rw [if_pos hOpen]
    exact meets_embedded hChar hOpen
  · rw [if_neg hOpen]
    exact
      { forward := Nat.lt_succ_self _
        within := hIndex
        outlook := outlook_char hChar hOpen
        calls := fun _ => Or.inl }

/-
  The loop finds all parts of the text.  It is given up only if
  the bound is too small, or there are no more rounds than
  characters that are left.
-/
theorem meets_loop
    (rounds : Nat)
    (scan : Scan) :
    Meets (loop bound text rounds) scan
      (fun _ scan' => scan.outlook text = .ok scan'.allParts ∧
        CallsWithin text scan scan')
      (fun stop scan' =>
        (∀ e, stop = .rejected e → scan.outlook text = .error e) ∧
        CallsWithin text scan scan' ∧
        (stop = .exhausted → bound < 10 * (text.length + 1) ∨
          rounds ≤ text.length - scan.index)) := by
  induction rounds generalizing scan with
  | zero =>
      refine ⟨fun e hStop => ?_, fun _ => Or.inl, fun _ => ?_⟩
      · cases hStop
      · exact Or.inr (Nat.zero_le _)
  | succ rounds ih =>
      rw [loop]
      -- The state is read and kept.
      refine Meets.bind (P := fun found s => found = scan ∧ s = scan)
        ⟨rfl, rfl⟩ ?_
      rintro found s ⟨hFound, hState⟩
      rw [hFound, hState]
      cases hChar : text[scan.index]? with
      | none => exact ⟨outlook_end hChar, fun _ => Or.inl⟩
      | some c =>
          have hIndex := (List.getElem?_eq_some_iff.1 hChar).1
          refine ((meets_round hChar).imp (fun _ _ h => h)
            fun stop s h => ?_).bind fun _ s hMoves => ?_
          · exact ⟨h.outlook, h.calls, fun hStop =>
              Or.inl (h.exhausted hStop)⟩
          · have hForward := hMoves.forward
            refine (ih s).imp (fun _ s' h => ?_) fun stop s' h => ?_
            · exact ⟨hMoves.outlook ▸ h.1, hMoves.calls.trans h.2⟩
            · refine ⟨hMoves.outlook ▸ h.1, hMoves.calls.trans h.2.1,
                fun hStop => ?_⟩
              exact (h.2.2 hStop).imp_right fun hLeft => by omega

/- The template of a text is found. -/
theorem meets_template
    (bound : Nat)
    (text : List Char) :
    Meets (template bound text) start
      (fun value scan =>
        (Template.parts text).map ofParts = .ok value ∧
          CallsWithin text start scan)
      (fun stop scan =>
        (∀ e, stop = .rejected e →
          (Template.parts text).map ofParts = .error e) ∧
        CallsWithin text start scan ∧
        (stop = .exhausted → bound < 10 * (text.length + 1))) := by
  have hStart : start.outlook text = Template.parts text := rfl
  refine ((meets_loop bound start).imp (fun _ s h => h)
    fun stop s h => ?_).bind fun _ s h => ?_
  · rw [hStart] at h
    refine ⟨fun e hStop => ?_, h.2.1, fun hStop => ?_⟩
    · rw [h.1 e hStop]
      rfl
    · have hLeft := h.2.2 hStop
      omega
  · rw [hStart] at h
    refine ⟨?_, h.2⟩
    rw [h.1]
    rfl

end Rounds

end Scan

end Template

end PageExpr
