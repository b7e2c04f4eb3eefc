import PageExpr.Proofs.Number.Notation
import PageExpr.Proofs.Text.Names
import PageExpr.Syntax.Template

/-
  How the first character of a text decides on its token.

  Each token is scanned by a branch of its own: a number, a
  string, an operator of one or two characters, a word, or a
  sign.  Whatever is shown of the tokens of a text is shown
  branch by branch.

  Main declarations:
    * `Lexer.scan_eq_scanWord`
    * `Lexer.exists_written_of_scanNumber`
    * `Lexer.Branch`, `Lexer.branch`
-/

namespace PageExpr

namespace Lexer

------------------------------------------------------------
-- Words and Numbers
------------------------------------------------------------

/- Where a name starts a word is scanned. -/
theorem scan_eq_scanWord
    {c : Char}
    (cs : List Char)
    (h : Text.isNameStart c = true) :
    scan c cs = scanWord c cs := by
  have hNe :
      ∀ d ∈ ['.', '"', '\'', '=', '!', '<', '>', '&', '|'],
        c ≠ d := by
    intro d hMem
    have hOther :
        ['.', '"', '\'', '=', '!', '<', '>', '&', '|'].all
          (fun d => Text.isNameStart d == false) = true := by
      decide
    rw [List.all_eq_true] at hOther
    exact Text.ne_of_isNameStart h (by simpa using hOther d hMem)
  simp only [List.forall_mem_cons] at hNe
  simp [scan, h, Text.isDigit_of_isNameStart h, hNe]

/- Where a digit stands a number is scanned. -/
theorem scan_eq_scanNumber
    {c : Char}
    (cs : List Char)
    (h : c.isDigit = true) :
    scan c cs = scanNumber (c :: cs) := by
  simp [scan, h]

/- Where a number starts there is a digit to scan. -/
theorem digits_scan_ne_nil
    {c : Char}
    {cs : List Char}
    (hStart :
      (c.isDigit || (c = '.' && startsWithDigit cs)) = true) :
    (Numeral.scan .absent (c :: cs)).whole ++
      (Numeral.scan .absent (c :: cs)).fraction.getD [] ≠ [] := by
  rcases Bool.or_eq_true_iff.1 hStart with hDigit | hPoint
  · simp [Numeral.scan, Numeral.digits, hDigit]
  · simp only [Bool.and_eq_true, decide_eq_true_eq] at hPoint
    rcases hPoint with ⟨rfl, hDigit⟩
    cases cs with
    | nil => cases hDigit
    | cons d cs =>
        have hDigits : Numeral.digits (d :: cs) ≠ [] := by
          simp only [startsWithDigit] at hDigit
          simp [Numeral.digits, hDigit]
        have hPointAlone : Char.isDigit '.' = false := rfl
        simp [Numeral.scan, Numeral.afterDigits,
          Numeral.scanFraction, hPointAlone, hDigits]

/- Where a number starts there is something to scan. -/
theorem written_scan_ne_nil
    {c : Char}
    {cs : List Char}
    (mark : Char)
    (hStart :
      (c.isDigit || (c = '.' && startsWithDigit cs)) = true) :
    (Numeral.scan .absent (c :: cs)).written mark ≠ [] := by
  have hDigits := digits_scan_ne_nil hStart
  intro hWritten
  rw [Numeral.written, List.append_eq_nil_iff,
    List.append_eq_nil_iff] at hWritten
  rcases hWritten with ⟨hWhole, hFraction, -⟩
  rw [hWhole, List.nil_append] at hDigits
  cases hCase : (Numeral.scan .absent (c :: cs)).fraction with
  | none =>
      rw [hCase] at hDigits
      exact hDigits rfl
  | some ds =>
      rw [hCase] at hFraction
      cases hFraction

/- The characters of a scanned number are a written numeral. -/
theorem exists_written_of_scanNumber
    {c : Char}
    {cs : List Char}
    {token : Token}
    {length : Nat}
    (hStart :
      (c.isDigit || (c = '.' && startsWithDigit cs)) = true)
    (h : scanNumber (c :: cs) = .ok (token, length)) :
    ∃ mark ds rest,
      Numeral.IsMark mark ∧
        (Numeral.scan .absent (c :: cs)).Proper ∧
        (Numeral.scan .absent (c :: cs)).written mark = c :: ds ∧
        cs = ds ++ rest ∧ length = ds.length + 1 := by
  have hLength :
      length = (Numeral.scan .absent (c :: cs)).text.length := by
    unfold scanNumber at h
    simp only at h
    split at h
    · split at h <;> cases h
      rfl
    · split at h <;> cases h
      rfl
  rcases Numeral.scan_split (c :: cs) with
    ⟨mark, rest, hMark, hProper, hSplit⟩
  rw [← Numeral.length_written mark hProper] at hLength
  cases hWritten : (Numeral.scan .absent (c :: cs)).written mark with
  | nil => exact absurd hWritten (written_scan_ne_nil mark hStart)
  | cons d ds =>
      rw [hWritten, List.cons_append, List.cons.injEq] at hSplit
      rw [hWritten] at hLength
      obtain ⟨rfl, hRest⟩ := hSplit
      exact ⟨mark, ds, rest, hMark, hProper, hWritten, hRest, hLength⟩

------------------------------------------------------------
-- Branches
------------------------------------------------------------

/-
  How the token at the start of a text is scanned.  Apart from
  numbers and dots, the first character alone decides.
-/
inductive Branch
    (c : Char)
    (cs : List Char) : Prop where
  | number
      (hStart :
        (c.isDigit || (c = '.' && startsWithDigit cs)) = true)
      (hScan : scan c cs = scanNumber (c :: cs))
  | string
      (hQuote : c = '"' ∨ c = '\'')
      (hScan : ∀ rest, scan c rest = scanString c rest)
  | double
      (op : BinaryOp)
      (hSign : c = '=' ∨ c = '&' ∨ c = '|')
      (hScan :
        ∀ rest, scan c rest = scanDouble c (.operator op) rest)
  | pair
      (op : BinaryOp)
      (short : Token)
      (hSign : c = '!' ∨ c = '<' ∨ c = '>')
      (hShort : short = .not ∨ ∃ other, short = .operator other)
      (hScan :
        ∀ rest, scan c rest = scanPair '=' (.operator op) short rest)
  | word
      (hStart : Text.isNameStart c = true)
      (hScan : ∀ rest, scan c rest = scanWord c rest)
  | sign
      (token : Token)
      (hSign : punctuation? c = some token)
      (hHere : scan c cs = .ok (token, 1))
      (hScan :
        ∀ rest, startsWithDigit rest = false →
          scan c rest = .ok (token, 1))
  | fault
      (hScan : scan c cs = .error ⟨.unexpectedCharacter c, 0⟩)

/- There is a branch for every start of a text. -/
theorem branch
    (c : Char)
    (cs : List Char) :
    Branch c cs := by
  by_cases hStart :
      (c.isDigit || (c = '.' && startsWithDigit cs)) = true
  · exact .number hStart (if_pos hStart)
  have hDigit : c.isDigit = false := by
    rw [Bool.or_eq_true, not_or] at hStart
    exact Bool.eq_false_iff.2 hStart.1
  by_cases hQuote : c = '"' ∨ c = '\''
  · refine .string hQuote fun rest => ?_
    rcases hQuote with rfl | rfl <;> rfl
  by_cases hDouble : c = '=' ∨ c = '&' ∨ c = '|'
  · rcases hDouble with rfl | rfl | rfl <;>
      exact .double _ (by simp) fun _ => rfl
  by_cases hPair : c = '!' ∨ c = '<' ∨ c = '>'
  · rcases hPair with rfl | rfl | rfl <;>
      exact .pair _ _ (by simp) (by simp) fun _ => rfl
  by_cases hName : Text.isNameStart c = true
  · exact .word hName fun rest => scan_eq_scanWord rest hName
  simp only [not_or] at hQuote hDouble hPair
  cases hSign : punctuation? c with
  | none =>
      refine .fault ?_
      simp [scan, hStart, hQuote, hDouble, hPair, hName, hSign]
  | some token =>
      refine .sign token hSign ?_ fun rest hRest => ?_
      · simp [scan, hStart, hQuote, hDouble, hPair, hName, hSign]
      · simp [scan, hDigit, hRest, hQuote, hDouble, hPair, hName,
          hSign]

end Lexer

end PageExpr
