import PageExpr.Proofs.Syntax.Spacing

/-
  The lexer, one call at a time.

  A cursor is a place in a text.  A call passes over white
  space and reads the token behind it.  What the calls find one
  after the other is what splitting the text as a whole finds,
  and each token is at least one character further on, so there
  are no more calls than characters, and one for the end.

  Main declarations:
    * `Lexer.Lookahead`
    * `Lexer.Cursor`, `Lexer.Cursor.next`
    * `Lexer.Cursor.Reads`, `Lexer.Cursor.reads_next`
    * `Lexer.Cursor.drain`, `Lexer.Cursor.drain_eq_stream`
-/

namespace PageExpr

namespace Lexer

------------------------------------------------------------
-- Cursors
------------------------------------------------------------

/- What a call finds: a token, or the end and its position. -/
inductive Lookahead where
  | token (spanned : SpannedToken)
  | finish (position : Nat)
deriving DecidableEq

/- A place in a text that begins at an offset. -/
structure Cursor where
  input : List Char
  position : Nat
  offset : Nat
deriving DecidableEq

namespace Cursor

/- The start of a text. -/
def start
    (source : List Char)
    (offset : Nat) : Cursor :=
  ⟨source, 0, offset⟩

/- The characters that have not been read. -/
def rest
    (cursor : Cursor) : List Char :=
  cursor.input.drop cursor.position

/- Where the cursor stands in the text around its own. -/
def place
    (cursor : Cursor) : Nat :=
  cursor.offset + cursor.position

/- All tokens that lie ahead. -/
def stream
    (cursor : Cursor) : TokenStream :=
  tokenize cursor.rest cursor.place

/- Move on by some characters. -/
def move
    (length : Nat)
    (cursor : Cursor) : Cursor :=
  { cursor with position := cursor.position + length }

/- Pass over white space. -/
def skipBlanks
    (cursor : Cursor) : Cursor :=
  cursor.move (cursor.rest.takeWhile Text.isBlank).length

/- Read the next token. -/
def next
    (cursor : Cursor) : Except LexError (Lookahead × Cursor) :=
  let cursor := cursor.skipBlanks
  match cursor.rest with
  | [] => .ok (.finish cursor.place, cursor)
  | c :: cs =>
      match scan c cs with
      | .error e => .error (e.shift cursor.place)
      | .ok (token, length) =>
          let text := String.ofList ((c :: cs).take length)
          .ok (.token ⟨token, text, cursor.place⟩,
            cursor.move length)

------------------------------------------------------------
-- Moving On
------------------------------------------------------------

/- What is left behind the characters that are passed. -/
theorem rest_move
    (length : Nat)
    (cursor : Cursor) :
    (cursor.move length).rest = cursor.rest.drop length := by
  rw [rest, rest, List.drop_drop]
  rfl

/- White space lies between the cursor and the next token. -/
theorem exists_gap
    (cursor : Cursor) :
    ∃ gap rest, cursor.rest = gap ++ rest ∧ Blank gap ∧
      cursor.skipBlanks = cursor.move gap.length ∧
      ∀ c ∈ rest.head?, Text.isBlank c = false := by
  refine ⟨_, _, List.takeWhile_append_dropWhile.symm, ?_, rfl, ?_⟩
  · exact List.all_eq_true.1 List.all_takeWhile
  · intro c hMem
    have hNot := List.head?_dropWhile_not Text.isBlank cursor.rest
    rw [Option.mem_def.1 hMem] at hNot
    exact hNot

/- Behind the text of a token, its successors lie ahead. -/
theorem stream_of_scan
    {cursor : Cursor}
    {c : Char}
    {cs : List Char}
    {token : Token}
    {length : Nat}
    (hRest : cursor.rest = c :: cs)
    (hBlank : Text.isBlank c = false)
    (hScan : scan c cs = .ok (token, length)) :
    0 < length ∧ length ≤ cursor.rest.length ∧
      cursor.stream =
        (cursor.move length).stream.cons
          ⟨token, String.ofList ((c :: cs).take length),
            cursor.place⟩ := by
  rcases stands_of_scan hBlank hScan with ⟨ds, rest, rfl, rfl, -⟩
  have hText : (c :: (ds ++ rest)).take (ds.length + 1) = c :: ds := by
    simp
  have hBehind : (cursor.move (ds.length + 1)).rest = rest := by
    rw [rest_move, hRest]
    simp
  have hPlace :
      (cursor.move (ds.length + 1)).place =
        cursor.place + (c :: ds).length := by
    rw [place, place, List.length_cons, Nat.add_assoc]
    rfl
  refine ⟨Nat.succ_pos _, by rw [hRest]; simp, ?_⟩
  rw [stream, stream, hRest, hBehind, hPlace, hText]
  exact tokenizeFrom_scan cursor.place hBlank hScan

/- There are no characters behind the end of the text. -/
theorem length_rest
    (cursor : Cursor) :
    cursor.rest.length = cursor.input.length - cursor.position :=
  List.length_drop

------------------------------------------------------------
-- What a Call Does
------------------------------------------------------------

/-
  What a call can do.  A token is the first of those ahead; it
  ends further on and within the text.  At the end and at a
  fault there are no tokens ahead.
-/
inductive Reads
    (cursor : Cursor) :
    Except LexError (Lookahead × Cursor) → Prop where
  | token
      {spanned : SpannedToken}
      {behind : Cursor}
      (hStream : cursor.stream = behind.stream.cons spanned)
      (hForward : cursor.position < behind.position)
      (hWithin : behind.position ≤ cursor.input.length)
      (hInput : behind.input = cursor.input) :
      Reads cursor (.ok (.token spanned, behind))
  | finish
      {position : Nat}
      {behind : Cursor}
      (hStream : cursor.stream = ⟨[], .complete position⟩)
      (hForward : cursor.position ≤ behind.position)
      (hWithin :
        behind.position ≤ max cursor.position cursor.input.length)
      (hInput : behind.input = cursor.input) :
      Reads cursor (.ok (.finish position, behind))
  | fault
      {e : LexError}
      (hStream : cursor.stream = ⟨[], .broken e⟩) :
      Reads cursor (.error e)

/- A call does one of these. -/
theorem reads_next
    (cursor : Cursor) :
    cursor.Reads cursor.next := by
  rcases exists_gap cursor with
    ⟨gap, rest, hRest, hGap, hSkip, hHead⟩
  have hBehind : (cursor.move gap.length).rest = rest := by
    rw [rest_move, hRest, List.drop_left]
  have hPlace :
      (cursor.move gap.length).place =
        cursor.place + gap.length :=
    (Nat.add_assoc _ _ _).symm
  have hStream :
      cursor.stream = (cursor.move gap.length).stream := by
    rw [stream, stream, hBehind, hRest, hPlace]
    exact tokenizeFrom_blank rest cursor.place hGap
  have hLength : gap.length + rest.length = cursor.rest.length := by
    rw [hRest, List.length_append]
  have hTotal := length_rest cursor
  have hMoved :
      (cursor.move gap.length).position =
        cursor.position + gap.length := rfl
  unfold next
  simp only [hSkip]
  cases rest with
  | nil =>
      rw [hBehind]
      refine .finish ?_ (Nat.le_add_right _ _) ?_ rfl
      · rw [hStream, stream, hBehind]
        rfl
      · rw [hMoved]
        omega
  | cons c cs =>
      have hBlank := hHead c rfl
      rw [hBehind]
      dsimp only
      cases hScan : scan c cs with
      | error e =>
          refine .fault ?_
          rw [hStream, stream, hBehind, tokenize, tokenizeFrom]
          simp [hBlank, hScan]
      | ok found =>
          rcases found with ⟨token, length⟩
          rcases stream_of_scan hBehind hBlank hScan with
            ⟨hPos, hShort, hToken⟩
          rw [hBehind] at hShort
          refine .token (hStream.trans hToken) ?_ ?_ rfl
          · change
              cursor.position <
                cursor.position + gap.length + length
            omega
          · change
              cursor.position + gap.length + length ≤
                cursor.input.length
            omega

------------------------------------------------------------
-- Calls One After the Other
------------------------------------------------------------

/-
  Read tokens up to the end or to the first fault, with at most
  so many calls.
-/
def drain : Nat → Cursor → Option TokenStream
  | 0, _ => none
  | calls + 1, cursor =>
      match cursor.next with
      | .error e => some ⟨[], .broken e⟩
      | .ok (.finish position, _) => some ⟨[], .complete position⟩
      | .ok (.token spanned, behind) =>
          (drain calls behind).map (TokenStream.cons spanned)

/-
  With one call more than there are characters, the calls find
  all tokens ahead.
-/
theorem drain_eq_stream
    {calls : Nat}
    {cursor : Cursor}
    (h : cursor.rest.length < calls) :
    drain calls cursor = some cursor.stream := by
  induction calls generalizing cursor with
  | zero => exact absurd h (Nat.not_lt_zero _)
  | succ calls ih =>
      have hReads := cursor.reads_next
      rw [drain]
      cases hNext : cursor.next with
      | error e =>
          rw [hNext] at hReads
          cases hReads with
          | fault hStream => rw [hStream]
      | ok found =>
          rw [hNext] at hReads
          cases hReads with
          | finish hStream => rw [hStream]
          | @token spanned behind hStream hForward hWithin hInput =>
              have hShorter : behind.rest.length < calls := by
                rw [length_rest] at h ⊢
                rw [hInput]
                omega
              dsimp only
              rw [ih hShorter, hStream]
              rfl

/- There are fewer tokens than calls. -/
theorem length_tokens_of_drain
    {calls : Nat}
    {cursor : Cursor}
    {stream : TokenStream}
    (h : drain calls cursor = some stream) :
    stream.tokens.length < calls := by
  induction calls generalizing cursor stream with
  | zero => cases h
  | succ calls ih =>
      rw [drain] at h
      split at h
      · cases h
        exact Nat.succ_pos calls
      · cases h
        exact Nat.succ_pos calls
      · rcases Option.map_eq_some_iff.1 h with ⟨others, hOthers, rfl⟩
        exact Nat.succ_lt_succ (ih hOthers)

/- There are at most as many tokens ahead as characters. -/
theorem length_tokens_stream
    (cursor : Cursor) :
    cursor.stream.tokens.length ≤ cursor.rest.length :=
  Nat.le_of_lt_succ
    (length_tokens_of_drain (drain_eq_stream (Nat.lt_succ_self _)))

end Cursor

end Lexer

end PageExpr
