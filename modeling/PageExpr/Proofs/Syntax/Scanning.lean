import PageExpr.Proofs.Syntax.Position
import PageExpr.Proofs.Syntax.Spelling

/-
  Tokens stand on their own.

  What is scanned as a token depends on no more of the text
  than the token and what follows it at once: in front of a
  blank, or at the end of a text, the same characters are
  scanned as the same token again.  A fault lies within the
  characters that are left.

  Main declarations:
    * `Lexer.Spaced`
    * `Lexer.Stands`
    * `Lexer.stands_of_scan`
    * `Lexer.position_of_scan_error`
-/

namespace PageExpr

namespace Lexer

------------------------------------------------------------
-- Gaps
------------------------------------------------------------

/- The text is at its end, or it goes on with a blank. -/
def Spaced
    (rest : List Char) : Prop :=
  ∀ c ∈ rest.head?, Text.isBlank c = true

/- A character that is no blank does not follow at once. -/
theorem Spaced.head_ne
    {c d : Char}
    {rest : List Char}
    (h : Spaced (c :: rest))
    (hOther : Text.isBlank d = false) :
    c ≠ d := by
  rintro rfl
  rw [h c (by simp)] at hOther
  cases hOther

/- No digit follows at once. -/
theorem Spaced.startsWithDigit
    {rest : List Char}
    (h : Spaced rest) :
    Lexer.startsWithDigit rest = false := by
  cases rest with
  | nil => rfl
  | cons c rest =>
      rw [Lexer.startsWithDigit, Bool.eq_false_iff]
      intro hDigit
      exact h.head_ne (Text.isBlank_of_isDigit hDigit) rfl

/- A gap ends words and numbers. -/
theorem Spaced.delimited
    {rest : List Char}
    (h : Spaced rest) :
    Delimited rest := by
  cases rest with
  | nil => exact delimited_nil
  | cons c rest =>
      have hWord : Text.isNamePart c = false := by
        rw [Bool.eq_false_iff]
        intro hPart
        exact h.head_ne (Text.isBlank_of_isNamePart hPart) rfl
      exact delimited_cons rest hWord (h.head_ne (by decide))

------------------------------------------------------------
-- Tokens on Their Own
------------------------------------------------------------

/-
  The characters are scanned as the token, whatever follows
  behind a gap.
-/
def Stands
    (token : Token) : List Char → Prop
  | [] => False
  | c :: cs =>
      Text.isBlank c = false ∧
        ∀ rest, Spaced rest →
          scan c (cs ++ rest) = .ok (token, cs.length + 1)

/- So many characters, the first among them, stand alone. -/
def StandsAlone
    (token : Token)
    (length : Nat)
    (c : Char)
    (cs : List Char) : Prop :=
  ∃ ds rest, cs = ds ++ rest ∧ length = ds.length + 1 ∧
    ∀ others, Spaced others →
      scan c (ds ++ others) = .ok (token, length)

/- The content of a string depends on no more than the string. -/
theorem scanQuoted_split
    {quote : Char}
    {offset stop : Nat}
    {cs content : List Char}
    (h : scanQuoted quote offset cs = .ok (content, stop)) :
    ∃ ds rest, cs = ds ++ rest ∧ stop = offset + ds.length ∧
      ∀ others,
        scanQuoted quote offset (ds ++ others) =
          .ok (content, stop) := by
  fun_induction scanQuoted quote offset cs
    generalizing content stop with
  | case1 => cases h
  | case2 offset cs =>
      cases h
      refine ⟨[quote], cs, rfl, rfl, fun others => ?_⟩
      rw [List.singleton_append, scanQuoted.eq_def]
      simp only [if_true]
  | case3 => cases h
  | case4 offset d rest hEscapable hOther ih =>
      rcases exists_of_map_eq_ok h with ⟨read, hRest, hRead⟩
      cases hRead
      rcases ih hRest with ⟨ds, others, rfl, hStop, hSame⟩
      refine ⟨'\\' :: d :: ds, others, rfl, ?_, fun others => ?_⟩
      · rw [hStop, List.length_cons, List.length_cons]
        omega
      · rw [List.cons_append, List.cons_append,
          scanQuoted.eq_def]
        simp only [if_neg hOther, if_true, hEscapable, hSame]
        rfl
  | case5 => cases h
  | case6 offset c cs hEnd hBackslash ih =>
      rcases exists_of_map_eq_ok h with ⟨read, hRest, hRead⟩
      cases hRead
      rcases ih hRest with ⟨ds, others, rfl, hStop, hSame⟩
      refine ⟨c :: ds, others, rfl, ?_, fun others => ?_⟩
      · rw [hStop, List.length_cons]
        omega
      · rw [List.cons_append, scanQuoted.eq_def]
        simp only [if_neg hEnd, if_neg hBackslash, hSame]
        rfl

/- A scanned string stands alone. -/
theorem standsAlone_of_scanString
    {quote : Char}
    {cs : List Char}
    {token : Token}
    {length : Nat}
    (hScan : ∀ rest, scan quote rest = scanString quote rest)
    (h : scanString quote cs = .ok (token, length)) :
    StandsAlone token length quote cs := by
  rcases exists_of_map_eq_ok h with ⟨read, hRead, hToken⟩
  cases hToken
  rcases scanQuoted_split hRead with ⟨ds, rest, rfl, hStop, hSame⟩
  refine ⟨ds, rest, rfl, by omega, fun others _ => ?_⟩
  rw [hScan, scanString, hSame]
  rfl

/- An operator of one character twice stands alone. -/
theorem standsAlone_of_scanDouble
    {c : Char}
    {double token : Token}
    {cs : List Char}
    {length : Nat}
    (hScan : ∀ rest, scan c rest = scanDouble c double rest)
    (h : scanDouble c double cs = .ok (token, length)) :
    StandsAlone token length c cs := by
  cases cs with
  | nil => cases h
  | cons d cs =>
      rw [scanDouble] at h
      split at h <;> cases h
      rename_i hEq
      refine ⟨[d], cs, rfl, rfl, fun others _ => ?_⟩
      rw [hScan, List.singleton_append, scanDouble, if_pos hEq]

/- Either operator of a pair stands alone. -/
theorem standsAlone_of_scanPair
    {c : Char}
    {long short token : Token}
    {cs : List Char}
    {length : Nat}
    (hScan : ∀ rest, scan c rest = scanPair '=' long short rest)
    (h : scanPair '=' long short cs = .ok (token, length)) :
    StandsAlone token length c cs := by
  have hShort :
      ∀ others, Spaced others →
        scan c ([] ++ others) = .ok (short, 1) := by
    intro others hOthers
    rw [hScan, List.nil_append]
    cases others with
    | nil => rfl
    | cons d others =>
        rw [scanPair, if_neg (hOthers.head_ne (by decide))]
  cases cs with
  | nil =>
      cases h
      exact ⟨[], [], rfl, rfl, hShort⟩
  | cons d cs =>
      rw [scanPair] at h
      split at h <;> cases h
      · rename_i hEq
        refine ⟨[d], cs, rfl, rfl, fun others _ => ?_⟩
        rw [hScan, List.singleton_append, scanPair, if_pos hEq]
      · exact ⟨[], d :: cs, rfl, rfl, hShort⟩

/- A scanned word stands alone. -/
theorem standsAlone_of_scanWord
    {c : Char}
    {cs : List Char}
    {token : Token}
    {length : Nat}
    (hStart : Text.isNameStart c = true)
    (h : scanWord c cs = .ok (token, length)) :
    StandsAlone token length c cs := by
  cases h
  have hAll := List.all_takeWhile (p := Text.isNamePart) (l := cs)
  rw [List.all_eq_true] at hAll
  refine ⟨cs.takeWhile Text.isNamePart,
    cs.dropWhile Text.isNamePart,
    List.takeWhile_append_dropWhile.symm, rfl,
    fun others hOthers => ?_⟩
  rw [scan_eq_scanWord _ hStart, scanWord,
    takeWhile_name hAll hOthers.delimited]

/- A number that starts with a point goes on with a digit. -/
theorem written_scan_point
    {cs : List Char}
    (mark : Char)
    (h : startsWithDigit cs = true) :
    ∃ ds, (Numeral.scan .absent ('.' :: cs)).written mark =
        '.' :: ds ∧
      ∀ others, startsWithDigit (ds ++ others) = true := by
  cases cs with
  | nil => cases h
  | cons d cs =>
      rw [startsWithDigit] at h
      have hPoint : Char.isDigit '.' = false := rfl
      have hDigits :
          Numeral.digits (d :: cs) = d :: Numeral.digits cs := by
        simp [Numeral.digits, h]
      refine ⟨Numeral.digits (d :: cs) ++
          Numeral.writtenExponentText mark
            (Numeral.scanExponent (Numeral.afterDigits (d :: cs))),
        ?_, fun others => ?_⟩
      · simp [Numeral.written, Numeral.scan, Numeral.digits_cons,
          Numeral.afterDigits, Numeral.scanFraction,
          Numeral.fractionText, hPoint, hDigits]
      · rw [hDigits]
        exact h

/- A number stays a number, whatever follows it. -/
theorem startsNumber_append
    {mark c : Char}
    {cs ds : List Char}
    (others : List Char)
    (hStart :
      (c.isDigit || (c = '.' && startsWithDigit cs)) = true)
    (hWritten :
      (Numeral.scan .absent (c :: cs)).written mark = c :: ds) :
    (c.isDigit || (c = '.' && startsWithDigit (ds ++ others))) =
      true := by
  rcases Bool.or_eq_true_iff.1 hStart with hDigit | hPoint
  · rw [hDigit, Bool.true_or]
  · simp only [Bool.and_eq_true, decide_eq_true_eq] at hPoint
    rcases hPoint with ⟨rfl, hDigit⟩
    rcases written_scan_point mark hDigit with ⟨es, hEq, hDigits⟩
    rw [hWritten] at hEq
    cases hEq
    simp [hDigits others]

/- A scanned number stands alone. -/
theorem standsAlone_of_scanNumber
    {c : Char}
    {cs : List Char}
    {token : Token}
    {length : Nat}
    (hStart :
      (c.isDigit || (c = '.' && startsWithDigit cs)) = true)
    (h : scanNumber (c :: cs) = .ok (token, length)) :
    StandsAlone token length c cs := by
  rcases exists_written_of_scanNumber hStart h with
    ⟨mark, ds, rest, hMark, hProper, hWritten, rfl, hLength⟩
  refine ⟨ds, rest, rfl, hLength, fun others hOthers => ?_⟩
  have hSame :
      Numeral.scan .absent (c :: (ds ++ others)) =
        Numeral.scan .absent (c :: (ds ++ rest)) := by
    rw [← List.cons_append, ← hWritten]
    exact Numeral.scan_written hMark hProper
      hOthers.delimited.number
  have hNumber := startsNumber_append others hStart hWritten
  rw [scan, if_pos hNumber, ← h, scanNumber, scanNumber, hSame]

/- What is scanned stands alone. -/
theorem standsAlone_of_scan
    {c : Char}
    {cs : List Char}
    {token : Token}
    {length : Nat}
    (h : scan c cs = .ok (token, length)) :
    StandsAlone token length c cs := by
  cases branch c cs with
  | number hStart hScan =>
      rw [hScan] at h
      exact standsAlone_of_scanNumber hStart h
  | string hQuote hScan =>
      rw [hScan] at h
      exact standsAlone_of_scanString hScan h
  | double op hSign hScan =>
      rw [hScan] at h
      exact standsAlone_of_scanDouble hScan h
  | pair op short hSign hShort hScan =>
      rw [hScan] at h
      exact standsAlone_of_scanPair hScan h
  | word hStart hScan =>
      rw [hScan] at h
      exact standsAlone_of_scanWord hStart h
  | sign token hSign hHere hScan =>
      rw [hHere] at h
      cases h
      exact ⟨[], cs, rfl, rfl, fun others hOthers =>
        hScan others hOthers.startsWithDigit⟩
  | fault hScan =>
      rw [hScan] at h
      cases h

/-
  The characters of a token that is scanned stand for it, and
  there are as many of them as the scan tells.
-/
theorem stands_of_scan
    {c : Char}
    {cs : List Char}
    {token : Token}
    {length : Nat}
    (hBlank : Text.isBlank c = false)
    (h : scan c cs = .ok (token, length)) :
    ∃ ds rest, cs = ds ++ rest ∧ length = ds.length + 1 ∧
      Stands token (c :: ds) := by
  rcases standsAlone_of_scan h with
    ⟨ds, rest, hSplit, rfl, hAlone⟩
  exact ⟨ds, rest, hSplit, rfl, hBlank, hAlone⟩

------------------------------------------------------------
-- Faults
------------------------------------------------------------

/- A fault of a string is within the text or at its start. -/
theorem position_of_scanQuoted_error
    {quote : Char}
    {offset : Nat}
    {cs : List Char}
    {e : LexError}
    (hOffset : 0 < offset)
    (h : scanQuoted quote offset cs = .error e) :
    e.position < offset + cs.length := by
  fun_induction scanQuoted quote offset cs generalizing e with
  | case1 =>
      cases h
      exact hOffset
  | case2 => cases h
  | case3 =>
      cases h
      exact Nat.add_pos_left hOffset _
  | case4 offset d rest hEscapable hOther ih =>
      have hRest := ih (by omega) (error_of_map_eq_error h)
      simp only [List.length_cons]
      omega
  | case5 =>
      cases h
      simp
  | case6 offset c cs hEnd hBackslash ih =>
      have hRest := ih (by omega) (error_of_map_eq_error h)
      rw [List.length_cons]
      omega

/- A fault is within the characters that are left. -/
theorem position_of_scan_error
    {c : Char}
    {cs : List Char}
    {e : LexError}
    (h : scan c cs = .error e) :
    e.position < (c :: cs).length := by
  have hFirst : 0 < (c :: cs).length := Nat.succ_pos _
  cases branch c cs with
  | number hStart hScan =>
      rw [hScan] at h
      unfold scanNumber at h
      simp only at h
      split at h <;> split at h <;> cases h <;> exact hFirst
  | string hQuote hScan =>
      rw [hScan] at h
      have hQuoted := position_of_scanQuoted_error (Nat.one_pos)
        (error_of_map_eq_error h)
      rw [List.length_cons]
      omega
  | double op hSign hScan =>
      rw [hScan] at h
      cases cs with
      | nil =>
          cases h
          exact hFirst
      | cons d cs =>
          rw [scanDouble] at h
          split at h <;> cases h
          exact hFirst
  | pair op short hSign hShort hScan =>
      rw [hScan] at h
      cases cs with
      | nil => cases h
      | cons d cs =>
          rw [scanPair] at h
          split at h <;> cases h
  | word hStart hScan =>
      rw [hScan] at h
      cases h
  | sign token hSign hHere hScan =>
      rw [hHere] at h
      cases h
  | fault hScan =>
      rw [hScan] at h
      cases h
      exact hFirst

end Lexer

end PageExpr
