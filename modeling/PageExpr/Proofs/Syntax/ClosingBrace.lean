import PageExpr.Proofs.Syntax.Branching
import PageExpr.Proofs.Syntax.TemplateParts

/-
  The search for a closing brace beside the tokens of the
  expression in front of it.

  The search knows nothing of tokens.  But it passes over each
  token as a whole: one that is no string holds neither a quote
  nor a closing brace, and in a string both sides agree on which
  quote ends it.  So it passes over every text that can be split
  into tokens, and a template that is such a text in braces has
  the expression of that text.

  Main declarations:
    * `Template.Passes`
    * `Template.closingBrace?_scanQuoted`
    * `Template.passesOver_of_scan`
    * `Template.passes_of_tokenize`
    * `Template.embed`
    * `Template.parse_embed`
    * `Template.parse_embed_iff`
-/

namespace PageExpr

namespace Template

------------------------------------------------------------
-- Plain Characters
------------------------------------------------------------

/- Outside quotes, does the search go on as it was? -/
def isPlain
    (c : Char) : Bool :=
  c != '\x7d' && !isQuote c

/-
  The characters of a sort that has neither closing braces nor
  quotes are plain.
-/
theorem isPlain_of_sort
    {sort : Char → Bool}
    {c : Char}
    (hOthers : ['\x7d', '"', '\''].all (fun d => !sort d) = true)
    (h : sort c = true) :
    isPlain c = true := by
  have hNe : ∀ d ∈ ['\x7d', '"', '\''], c ≠ d := by
    rintro d hMem rfl
    have hSort := List.all_eq_true.1 hOthers c hMem
    rw [h] at hSort
    cases hSort
  simp only [List.forall_mem_cons] at hNe
  simp [isPlain, isQuote, hNe]

/- A digit is plain. -/
theorem isPlain_of_isDigit
    {c : Char}
    (h : c.isDigit = true) :
    isPlain c = true :=
  isPlain_of_sort (by decide) h

/- A part of a name is plain. -/
theorem isPlain_of_isNamePart
    {c : Char}
    (h : Text.isNamePart c = true) :
    isPlain c = true :=
  isPlain_of_sort (by decide) h

/- A blank is plain. -/
theorem isPlain_of_isBlank
    {c : Char}
    (h : Text.isBlank c = true) :
    isPlain c = true :=
  isPlain_of_sort (by decide) h

/- A written numeral is plain. -/
theorem isPlain_of_mem_written
    {mark : Char}
    {n : Numeral}
    (hMark : Numeral.IsMark mark)
    (hProper : n.Proper) :
    ∀ c ∈ n.written mark, isPlain c = true := by
  have hDigits :
      ∀ {ds}, Numeral.AllDigits ds → ∀ c ∈ ds, isPlain c = true :=
    fun h c hMem => isPlain_of_isDigit (h c hMem)
  have hLetter : isPlain mark = true := by
    rcases hMark with rfl | rfl <;> decide
  have hSign : ∀ sign : Sign, ∀ c ∈ sign.text, isPlain c = true := by
    intro sign
    have hAll : sign.text.all isPlain = true := by
      cases sign <;> rfl
    exact List.all_eq_true.1 hAll
  simp only [Numeral.written, List.forall_mem_append]
  refine ⟨hDigits hProper.whole, ?_, ?_⟩
  · cases hFraction : n.fraction with
    | none => simp [Numeral.fractionText]
    | some ds =>
        rw [Numeral.fractionText, List.forall_mem_cons]
        exact ⟨by decide,
          hDigits (hProper.fraction ds hFraction).2⟩
  · cases hExponent : n.exponent with
    | none => simp [Numeral.writtenExponentText]
    | some e =>
        rw [Numeral.writtenExponentText, List.forall_mem_cons,
          List.forall_mem_append]
        exact ⟨hLetter, hSign e.1,
          hDigits (hProper.exponent e hExponent).2⟩

------------------------------------------------------------
-- Passing Over Texts
------------------------------------------------------------

/-
  Outside quotes, the search passes over the characters and is
  outside quotes again behind them.
-/
def Passes
    (cs : List Char) : Prop :=
  ∀ rest, closingBrace? none (cs ++ rest) =
    (closingBrace? none rest).map (· + cs.length)

/- The search stays where it is if there is nothing. -/
theorem passes_nil :
    Passes [] := by
  intro rest
  simp

/- The search passes over texts one behind the other. -/
theorem Passes.append
    {cs ds : List Char}
    (hFirst : Passes cs)
    (hSecond : Passes ds) :
    Passes (cs ++ ds) := by
  intro rest
  rw [List.append_assoc, hFirst, hSecond, Option.map_map,
    List.length_append]
  congr 1
  funext n
  simp only [Function.comp_apply]
  omega

/- The search passes over plain characters. -/
theorem passes_of_isPlain
    {cs : List Char}
    (h : ∀ c ∈ cs, isPlain c = true) :
    Passes cs := by
  induction cs with
  | nil => exact passes_nil
  | cons c cs ih =>
      rcases List.forall_mem_cons.1 h with ⟨hPlain, hRest⟩
      have hFirst : Passes [c] := by
        intro rest
        simp only [isPlain, Bool.and_eq_true, bne_iff_ne,
          Bool.not_eq_true'] at hPlain
        rw [List.singleton_append, closingBrace?]
        simp only [hPlain, if_false, Bool.false_eq_true,
          List.length_singleton]
      exact hFirst.append (ih hRest)

/- Behind a text that is passed over a brace is found. -/
theorem Passes.closingBrace?_eq
    {cs : List Char}
    (h : Passes cs)
    (rest : List Char) :
    closingBrace? none (cs ++ '\x7d' :: rest) = some cs.length := by
  rw [h, closingBrace?]
  simp

------------------------------------------------------------
-- Strings
------------------------------------------------------------

/-
  What is read as the rest of a string ends with its quote, and
  the search inside that quote ends there, too.
-/
theorem closingBrace?_scanQuoted
    {quote : Char}
    {offset stop : Nat}
    {cs content : List Char}
    (hQuote : quote ≠ '\\')
    (h : Lexer.scanQuoted quote offset cs = .ok (content, stop)) :
    ∃ ds rest, cs = ds ++ rest ∧ stop = offset + ds.length ∧
      ∀ others, closingBrace? (some quote) (ds ++ others) =
        (closingBrace? none others).map (· + ds.length) := by
  fun_induction Lexer.scanQuoted quote offset cs
    generalizing content stop with
  | case1 => cases h
  | case2 offset cs =>
      cases h
      refine ⟨[quote], cs, rfl, rfl, fun others => ?_⟩
      rw [List.singleton_append, closingBrace?.eq_def]
      simp only [if_neg hQuote, if_true, List.length_singleton]
  | case3 => cases h
  | case4 offset d rest hEscapable hOther ih =>
      rcases exists_of_map_eq_ok h with ⟨read, hRest, hRead⟩
      cases hRead
      rcases ih hRest with ⟨ds, others, rfl, hStop, hPass⟩
      refine ⟨'\\' :: d :: ds, others, rfl, ?_, fun others => ?_⟩
      · rw [hStop, List.length_cons, List.length_cons]
        omega
      · rw [List.cons_append, List.cons_append,
          closingBrace?.eq_def]
        simp only [if_true, hPass, Option.map_map, List.length_cons]
        rfl
  | case5 => cases h
  | case6 offset c cs hEnd hBackslash ih =>
      rcases exists_of_map_eq_ok h with ⟨read, hRest, hRead⟩
      cases hRead
      rcases ih hRest with ⟨ds, others, rfl, hStop, hPass⟩
      refine ⟨c :: ds, others, rfl, ?_, fun others => ?_⟩
      · rw [hStop, List.length_cons]
        omega
      · rw [List.cons_append, closingBrace?.eq_def]
        simp only [if_neg hBackslash, if_neg hEnd, hPass,
          Option.map_map, List.length_cons]
        rfl

------------------------------------------------------------
-- Tokens
------------------------------------------------------------

/-
  So many characters, the first among them, are there and are
  passed over.
-/
def PassesOver
    (length : Nat)
    (c : Char)
    (cs : List Char) : Prop :=
  ∃ ds rest, cs = ds ++ rest ∧ length = ds.length + 1 ∧
    Passes (c :: ds)

/- A plain character is passed over. -/
theorem passesOver_one
    {c : Char}
    (cs : List Char)
    (h : isPlain c = true) :
    PassesOver 1 c cs :=
  ⟨[], cs, rfl, rfl, passes_of_isPlain (by simpa using h)⟩

/- Two plain characters are passed over. -/
theorem passesOver_two
    {c d : Char}
    (cs : List Char)
    (hFirst : isPlain c = true)
    (hSecond : isPlain d = true) :
    PassesOver 2 c (d :: cs) :=
  ⟨[d], cs, rfl, rfl, passes_of_isPlain (by simp [hFirst, hSecond])⟩

/- A scanned number is passed over. -/
theorem passesOver_of_scanNumber
    {c : Char}
    {cs : List Char}
    {token : Token}
    {length : Nat}
    (hStart :
      (c.isDigit || (c = '.' && Lexer.startsWithDigit cs)) = true)
    (h : Lexer.scanNumber (c :: cs) = .ok (token, length)) :
    PassesOver length c cs := by
  rcases Lexer.exists_written_of_scanNumber hStart h with
    ⟨mark, ds, rest, hMark, hProper, hWritten, hSplit, hLength⟩
  have hPlain := isPlain_of_mem_written hMark hProper
  rw [hWritten] at hPlain
  exact ⟨ds, rest, hSplit, hLength, passes_of_isPlain hPlain⟩

/- A scanned string is passed over. -/
theorem passesOver_of_scanString
    {quote : Char}
    {cs : List Char}
    {token : Token}
    {length : Nat}
    (hQuote : isQuote quote = true)
    (h : Lexer.scanString quote cs = .ok (token, length)) :
    PassesOver length quote cs := by
  rcases exists_of_map_eq_ok h with ⟨read, hRead, hToken⟩
  cases hToken
  have hNe : quote ≠ '\\' ∧ quote ≠ '\x7d' := by
    constructor <;>
      · rintro rfl
        cases hQuote
  rcases closingBrace?_scanQuoted hNe.1 hRead with
    ⟨ds, rest, rfl, hStop, hPass⟩
  refine ⟨ds, rest, rfl, by omega, fun others => ?_⟩
  rw [List.cons_append, closingBrace?]
  simp only [if_neg hNe.2, hQuote, if_true, hPass, Option.map_map,
    List.length_cons]
  rfl

/- A scanned word is passed over. -/
theorem passesOver_of_scanWord
    {c : Char}
    {cs : List Char}
    {token : Token}
    {length : Nat}
    (hStart : Text.isNameStart c = true)
    (h : Lexer.scanWord c cs = .ok (token, length)) :
    PassesOver length c cs := by
  cases h
  refine ⟨cs.takeWhile Text.isNamePart,
    cs.dropWhile Text.isNamePart,
    List.takeWhile_append_dropWhile.symm, rfl, ?_⟩
  apply passes_of_isPlain
  rw [List.forall_mem_cons]
  refine ⟨isPlain_of_isNamePart
    (Text.isNamePart_of_isNameStart hStart), fun d hMem => ?_⟩
  have hAll := List.all_takeWhile (p := Text.isNamePart) (l := cs)
  exact isPlain_of_isNamePart (List.all_eq_true.1 hAll d hMem)

/- Either operator of a pair is passed over. -/
theorem passesOver_of_scanPair
    {c second : Char}
    {long short token : Token}
    {cs : List Char}
    {length : Nat}
    (hFirst : isPlain c = true)
    (hSecond : isPlain second = true)
    (h : Lexer.scanPair second long short cs = .ok (token, length)) :
    PassesOver length c cs := by
  cases cs with
  | nil =>
      cases h
      exact passesOver_one _ hFirst
  | cons d cs =>
      rw [Lexer.scanPair] at h
      split at h <;> cases h
      · rename_i hEq
        rw [hEq]
        exact passesOver_two _ hFirst hSecond
      · exact passesOver_one _ hFirst

/- An operator of one character twice is passed over. -/
theorem passesOver_of_scanDouble
    {c : Char}
    {double token : Token}
    {cs : List Char}
    {length : Nat}
    (hPlain : isPlain c = true)
    (h : Lexer.scanDouble c double cs = .ok (token, length)) :
    PassesOver length c cs := by
  cases cs with
  | nil => cases h
  | cons d cs =>
      rw [Lexer.scanDouble] at h
      split at h <;> cases h
      rename_i hEq
      rw [hEq]
      exact passesOver_two _ hPlain hPlain

/- A character that is a token is plain. -/
theorem isPlain_of_punctuation?
    {c : Char}
    {token : Token}
    (h : Lexer.punctuation? c = some token) :
    isPlain c = true := by
  unfold Lexer.punctuation? at h
  split at h <;> cases h <;> rfl

/- Every token is passed over. -/
theorem passesOver_of_scan
    {c : Char}
    {cs : List Char}
    {token : Token}
    {length : Nat}
    (h : Lexer.scan c cs = .ok (token, length)) :
    PassesOver length c cs := by
  cases Lexer.branch c cs with
  | number hStart hScan =>
      rw [hScan] at h
      exact passesOver_of_scanNumber hStart h
  | string hQuote hScan =>
      rw [hScan] at h
      exact passesOver_of_scanString (by simpa [isQuote] using hQuote) h
  | double op hSign hScan =>
      rw [hScan] at h
      have hPlain : isPlain c = true := by
        rcases hSign with rfl | rfl | rfl <;> rfl
      exact passesOver_of_scanDouble hPlain h
  | pair op short hSign hShort hScan =>
      rw [hScan] at h
      have hPlain : isPlain c = true := by
        rcases hSign with rfl | rfl | rfl <;> rfl
      exact passesOver_of_scanPair hPlain (by decide) h
  | word hStart hScan =>
      rw [hScan] at h
      exact passesOver_of_scanWord hStart h
  | sign token hSign hHere hScan =>
      rw [hHere] at h
      cases h
      exact passesOver_one _ (isPlain_of_punctuation? hSign)
  | fault hScan =>
      rw [hScan] at h
      cases h

/-
  The search passes over what can be split into tokens, as far
  as it is not owed to a token that has been read.
-/
theorem passes_of_tokenizeFrom
    {owed position stop : Nat}
    {cs : List Char}
    (h :
      (Lexer.tokenizeFrom owed position cs).ending =
        .complete stop) :
    Passes (cs.drop owed) := by
  induction cs generalizing owed position with
  | nil =>
      rw [List.drop_nil]
      exact passes_nil
  | cons c cs ih =>
      cases owed with
      | succ owed => exact ih h
      | zero =>
          rw [Lexer.tokenizeFrom] at h
          split at h
          · rename_i hBlank
            have hFirst : Passes [c] :=
              passes_of_isPlain (by simpa using isPlain_of_isBlank hBlank)
            exact hFirst.append (ih h)
          · cases hScan : Lexer.scan c cs with
            | error e =>
                rw [hScan] at h
                cases h
            | ok read =>
                rcases read with ⟨token, length⟩
                rw [hScan] at h
                rcases passesOver_of_scan hScan with
                  ⟨ds, rest, rfl, rfl, hToken⟩
                have hRest := ih h
                rw [Nat.add_sub_cancel, List.drop_left] at hRest
                exact hToken.append hRest

/- The search passes over a text that is split into tokens. -/
theorem passes_of_tokenize
    {source : List Char}
    {tokens : List SpannedToken}
    {stop : Nat}
    (h : Lexer.tokenize source 0 = ⟨tokens, .complete stop⟩) :
    Passes source :=
  passes_of_tokenizeFrom (congrArg TokenStream.ending h)

------------------------------------------------------------
-- Expressions in Braces
------------------------------------------------------------

/- The text of an expression as a part of a template. -/
def embed
    (source : String) : String :=
  "$\x7b" ++ source ++ "\x7d"

/- The characters of a text in braces. -/
theorem toList_embed
    (source : String) :
    (embed source).toList =
      '$' :: '\x7b' :: (source.toList ++ ['\x7d']) := by
  simp [embed]

/- What is owed has no segments of its own. -/
theorem segmentsFrom_length
    (position : Nat)
    (cs : List Char) :
    segmentsFrom cs.length position cs = .ok [] := by
  induction cs generalizing position with
  | nil => rfl
  | cons c cs ih => exact ih (position + 1)

/-
  If the search passes over a text, then the text in braces has
  the expression of the text as its only segment.
-/
theorem segments_embed
    {source : String}
    (h : Passes source.toList) :
    segments (embed source).toList =
      ((Expr.parse source).map fun expr =>
        [Segment.expression expr]).mapError (SyntaxError.shift 2) := by
  have hBrace := h.closingBrace?_eq []
  have hBody :
      (source.toList ++ ['\x7d']).take source.toList.length =
        source.toList :=
    List.take_left
  have hRest :=
    segmentsFrom_length 1 ('\x7b' :: (source.toList ++ ['\x7d']))
  rw [List.length_cons, List.length_append, List.length_singleton]
    at hRest
  rw [toList_embed, segments, segmentsFrom]
  simp only [if_true, behindBrace?, hBrace, hBody, hRest,
    Expr.parseAt_shift 2 0, Expr.parse]
  cases Expr.parseAt 0 source.toList <;> rfl

/- The template of a text in braces that is passed over. -/
theorem parse_embed
    {source : String}
    (h : Passes source.toList) :
    parse (embed source) =
      ((Expr.parse source).map Template.expression).mapError
        (SyntaxError.shift 2) := by
  rw [parse_eq_map_segments, segments_embed h]
  cases Expr.parse source <;> rfl

/-
  A text that can be split into tokens, whatever its strings
  hold, is ended by the brace behind it and by no other.  In
  braces it is a template of one expression just if it is an
  expression, and else the same error two positions further on.
-/
theorem parse_embed_iff
    (source : String)
    (tokens : List SpannedToken)
    (stop : Nat)
    (hTokens :
      Lexer.tokenize source.toList 0 = ⟨tokens, .complete stop⟩) :
    (∀ expr, parse (embed source) = .ok (.expression expr) ↔
      Expr.parse source = .ok expr) ∧
    (∀ e, parse (embed source) = .error e ↔
      ∃ inner, Expr.parse source = .error inner ∧
        e = inner.shift 2) ∧
    (∀ rest : String,
      (closingBrace? none
          ((embed source ++ rest).toList.drop 2)).map (2 + ·) =
        some (2 + source.length)) := by
  have hPasses := passes_of_tokenize hTokens
  have hParse := parse_embed hPasses
  refine ⟨fun expr => ?_, fun e => ?_, fun rest => ?_⟩
  · rw [hParse]
    cases Expr.parse source with
    | error inner => simp [Except.map, Except.mapError]
    | ok value => simp [Except.map, Except.mapError]
  · rw [hParse]
    cases Expr.parse source with
    | error inner =>
        simp [Except.map, Except.mapError, eq_comm]
    | ok value => simp [Except.map, Except.mapError]
  · have hDrop :
        (embed source ++ rest).toList.drop 2 =
          source.toList ++ '\x7d' :: rest.toList := by
      rw [String.toList_append, toList_embed]
      simp
    rw [hDrop, hPasses.closingBrace?_eq, Option.map_some,
      String.length_toList]

/- Braces and quotes of both kinds within strings. -/
theorem parse_embed_quotes :
    Lexer.tokenize "'\\'\x7d' + \"\x7d'\"".toList 0 =
        ⟨[⟨.string "'\x7d", "'\\'\x7d'", 0⟩,
          ⟨.operator (.arithmetic .add), "+", 6⟩,
          ⟨.string "\x7d'", "\"\x7d'\"", 8⟩], .complete 12⟩ ∧
      parse (embed "'\\'\x7d' + \"\x7d'\"") =
        .ok (.expression (.binary (.arithmetic .add)
          (.literal (.string "'\x7d"))
          (.literal (.string "\x7d'")))) := by
  have hTokens :
      Lexer.tokenize "'\\'\x7d' + \"\x7d'\"".toList 0 =
        ⟨[⟨.string "'\x7d", "'\\'\x7d'", 0⟩,
          ⟨.operator (.arithmetic .add), "+", 6⟩,
          ⟨.string "\x7d'", "\"\x7d'\"", 8⟩], .complete 12⟩ := by
    decide +kernel
  have hParse :
      Expr.parse "'\\'\x7d' + \"\x7d'\"" =
        .ok (.binary (.arithmetic .add)
          (.literal (.string "'\x7d"))
          (.literal (.string "\x7d'"))) := by
    rw [Expr.parse, Expr.parseAt, hTokens]
    rfl
  exact ⟨hTokens, ((parse_embed_iff _ _ _ hTokens).1 _).2 hParse⟩

end Template

end PageExpr
