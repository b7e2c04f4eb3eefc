import PageExpr.Proofs.Number.Notation
import PageExpr.Proofs.Text.Names

/-
  Which whole texts are read as numerals, and what they stand
  for.

  A numeral that can be read has a digit before or behind its
  point, and an exponent has one too.  A text is read as such a
  numeral just if it spells the numeral, and no text spells
  two.  The number of a numeral is the one that is nearest to
  its value.

  Main declarations:
    * `Numeral.Readable`
    * `Numeral.Spelled`
    * `Numeral.read?_eq_some_iff`
    * `Numeral.trim_of_spelled`
    * `Numeral.isWhole_of_spelled`
    * `Numeral.toRat`
    * `Numeral.toBinary64_eq_round`
-/

namespace PageExpr

/- Without blanks there is nothing to trim. -/
theorem Text.trim_of_not_blank
    {cs : List Char}
    (h : ∀ c ∈ cs, isBlank c = false) :
    trim cs = cs := by
  have hDrop {ds : List Char} (hAll : ∀ c ∈ ds, isBlank c = false) :
      ds.dropWhile isBlank = ds := by
    cases ds with
    | nil => rfl
    | cons d ds =>
        rw [List.dropWhile_cons_of_neg]
        rw [hAll d List.mem_cons_self]
        exact Bool.false_ne_true
  rw [trim, hDrop h, hDrop fun c hMem => h c (List.mem_reverse.1 hMem),
    List.reverse_reverse]

namespace Numeral

------------------------------------------------------------
-- Spelled Numerals
------------------------------------------------------------

/-
  The parts are digits.  There is one before or behind the
  point, and one in the exponent.
-/
structure Readable
    (n : Numeral) : Prop where
  whole : AllDigits n.whole
  fraction : ∀ ds ∈ n.fraction, AllDigits ds
  exponent : ∀ e ∈ n.exponent, e.2 ≠ [] ∧ AllDigits e.2
  nonempty : n.whole ++ n.fraction.getD [] ≠ []

/- The characters are a sign and the numeral behind it. -/
def Spelled
    (n : Numeral)
    (cs : List Char) : Prop :=
  n.Readable ∧
    ∃ mark, IsMark mark ∧ cs = n.sign.text ++ n.written mark

/- What is scanned of a text can be read, if it is anything. -/
theorem Proper.readable
    {n : Numeral}
    (hProper : n.Proper)
    (hNonempty : n.whole ++ n.fraction.getD [] ≠ []) :
    n.Readable :=
  ⟨hProper.whole, fun ds hMem => (hProper.fraction ds hMem).2,
    hProper.exponent, hNonempty⟩

/- Another sign makes no difference. -/
theorem Readable.withSign
    {n : Numeral}
    (sign : Sign)
    (hReadable : n.Readable) :
    Readable { n with sign := sign } :=
  ⟨hReadable.whole, hReadable.fraction, hReadable.exponent,
    hReadable.nonempty⟩

/- The end of a text stops a numeral. -/
theorem stops_nil :
    Stops [] :=
  ⟨rfl, rfl, rfl⟩

------------------------------------------------------------
-- Reading
------------------------------------------------------------

/- A written exponent is read. -/
theorem readExponent?_written
    {mark : Char}
    {exponent : Option (Sign × List Char)}
    (hMark : IsMark mark)
    (hExponent : ∀ e ∈ exponent, e.2 ≠ [] ∧ AllDigits e.2) :
    readExponent? (writtenExponentText mark exponent) =
      some exponent := by
  cases exponent with
  | none => rfl
  | some e =>
      rcases e with ⟨sign, ds⟩
      rcases hExponent _ rfl with ⟨hNonempty, hAll⟩
      have hRead := read_sign_append sign [] hNonempty hAll
      have hScan := digits_append hAll stops_nil.digits
      have hAfter := afterDigits_append hAll stops_nil.digits
      simp only [List.append_nil] at hRead hScan hAfter
      rw [writtenExponentText, readExponent?,
        if_pos (by rcases hMark with rfl | rfl <;> rfl), hRead]
      simp [hScan, hAfter, hNonempty]

/- An exponent that is read is the whole text. -/
theorem written_of_readExponent?
    {cs : List Char}
    {exponent : Option (Sign × List Char)}
    (h : readExponent? cs = some exponent) :
    (∀ e ∈ exponent, e.2 ≠ [] ∧ AllDigits e.2) ∧
      ∃ mark, IsMark mark ∧
        cs = writtenExponentText mark exponent := by
  cases cs with
  | nil =>
      cases h
      exact ⟨by simp, 'e', .inl rfl, rfl⟩
  | cons c rest =>
      rw [readExponent?] at h
      split at h
      · rename_i hMark
        simp only at h
        split at h <;> cases h
        rename_i hDigits
        simp only [Bool.and_eq_true, decide_eq_true_eq] at hDigits
        have hSign := Sign.text_append_read rest
        have hSplit := digits_append_afterDigits (Sign.read rest).2
        rw [hDigits.2, List.append_nil] at hSplit
        refine ⟨?_, c, by simpa [IsMark] using hMark, ?_⟩
        · rintro e hMem
          cases hMem
          exact ⟨hDigits.1, allDigits_digits _⟩
        · rw [writtenExponentText, hSplit, hSign]
      · cases h

/- A written numeral starts without a sign. -/
theorem read_written
    {n : Numeral}
    (mark : Char)
    (hReadable : n.Readable) :
    Sign.read (n.written mark) = (.absent, n.written mark) := by
  rcases n with ⟨sign, whole, fraction, exponent⟩
  cases whole with
  | nil =>
      cases fraction with
      | none => exact absurd rfl hReadable.nonempty
      | some ds => rfl
  | cons d ds =>
      rw [written]
      exact read_sign_append .absent _ (List.cons_ne_nil d ds)
        hReadable.whole

/- A sign in front of what has none is read. -/
theorem read_text_append
    {cs : List Char}
    (sign : Sign)
    (h : Sign.read cs = (.absent, cs)) :
    Sign.read (sign.text ++ cs) = (sign, cs) := by
  cases sign with
  | absent => exact h
  | plus => rfl
  | minus => rfl

/- A text that spells a numeral is read as this numeral. -/
theorem read?_of_spelled
    {n : Numeral}
    {cs : List Char}
    (h : n.Spelled cs) :
    read? cs = some n := by
  rcases h with ⟨hReadable, mark, hMark, rfl⟩
  have hSign :=
    read_text_append n.sign (read_written mark hReadable)
  have hBehind :=
    digits_behind_whole n.fraction n.exponent hMark stops_nil
  have hExponentText :=
    digits_writtenExponentText n.exponent hMark stops_nil
  have hExponent := readExponent?_written hMark hReadable.exponent
  simp only [List.append_nil] at hBehind hExponentText
  unfold read?
  rw [hSign]
  simp only [written, digits_append hReadable.whole hBehind,
    afterDigits_append hReadable.whole hBehind]
  rcases n with ⟨sign, whole, fraction, exponent⟩
  cases fraction with
  | some ds =>
      have hDigits := hReadable.fraction ds rfl
      have hNonempty : ¬ (whole = [] ∧ ds = []) := by
        rintro ⟨rfl, rfl⟩
        exact hReadable.nonempty rfl
      simp only [fractionText, List.cons_append,
        digits_append hDigits hExponentText,
        afterDigits_append hDigits hExponentText, hExponent]
      simp [hNonempty]
  | none =>
      have hNonempty : whole ≠ [] := by
        rintro rfl
        exact hReadable.nonempty rfl
      cases exponent with
      | none =>
          simp [fractionText, writtenExponentText, hNonempty,
            readExponent?]
      | some e =>
          have hPoint := hMark.ne.2
          rw [writtenExponentText] at hExponent
          simp [fractionText, writtenExponentText, hNonempty,
            hPoint, hExponent]

/- What is read from a text is spelled by the text. -/
theorem spelled_of_read?
    {n : Numeral}
    {cs : List Char}
    (h : read? cs = some n) :
    n.Spelled cs := by
  have hSign := Sign.text_append_read cs
  have hWhole := digits_append_afterDigits (Sign.read cs).2
  unfold read? at h
  simp only at h
  split at h
  · rename_i rest hAfter
    have hFraction := digits_append_afterDigits rest
    split at h
    · cases h
    · rename_i hNonempty
      rw [Option.map_eq_some_iff] at h
      rcases h with ⟨exponent, hExponent, rfl⟩
      rcases written_of_readExponent? hExponent with
        ⟨hDigits, mark, hMark, hText⟩
      refine ⟨⟨allDigits_digits _, ?_, hDigits, ?_⟩, mark, hMark, ?_⟩
      · rintro ds hMem
        cases hMem
        exact allDigits_digits rest
      · simpa using hNonempty
      · rw [written, fractionText, List.cons_append, ← hText,
          hFraction, ← hAfter, hWhole, hSign]
  · split at h
    · cases h
    · rename_i hNonempty
      rw [Option.map_eq_some_iff] at h
      rcases h with ⟨exponent, hExponent, rfl⟩
      rcases written_of_readExponent? hExponent with
        ⟨hDigits, mark, hMark, hText⟩
      refine ⟨⟨allDigits_digits _, by simp, hDigits, ?_⟩, mark,
        hMark, ?_⟩
      · simpa using hNonempty
      · rw [written, fractionText, List.nil_append, ← hText, hWhole,
          hSign]

/- Exactly the texts that spell a numeral are read as it. -/
theorem read?_eq_some_iff
    {n : Numeral}
    {cs : List Char} :
    read? cs = some n ↔ n.Spelled cs :=
  ⟨spelled_of_read?, read?_of_spelled⟩

------------------------------------------------------------
-- Characters
------------------------------------------------------------

/- The characters of a numeral that are no digits. -/
def marks : List Char :=
  ['+', '-', '.', 'e', 'E']

/- A sign is a mark. -/
theorem mem_marks_of_mem_text
    {sign : Sign}
    {c : Char}
    (h : c ∈ sign.text) :
    c ∈ marks := by
  cases sign with
  | absent => cases h
  | plus =>
      rw [List.mem_singleton.1 h]
      decide
  | minus =>
      rw [List.mem_singleton.1 h]
      decide

/- The characters of a spelled numeral are digits and marks. -/
theorem isDigit_or_mem_marks
    {n : Numeral}
    {cs : List Char}
    {c : Char}
    (h : n.Spelled cs)
    (hMem : c ∈ cs) :
    c.isDigit = true ∨ c ∈ marks := by
  rcases h with ⟨hReadable, mark, hMark, rfl⟩
  rw [written, List.mem_append, List.mem_append, List.mem_append]
    at hMem
  rcases hMem with hSign | hWhole | hFraction | hExponent
  · exact .inr (mem_marks_of_mem_text hSign)
  · exact .inl (hReadable.whole c hWhole)
  · cases hCase : n.fraction with
    | none =>
        rw [hCase] at hFraction
        cases hFraction
    | some ds =>
        rw [hCase, fractionText, List.mem_cons] at hFraction
        rcases hFraction with rfl | hDigit
        · exact .inr (by decide)
        · exact .inl (hReadable.fraction ds hCase c hDigit)
  · cases hCase : n.exponent with
    | none =>
        rw [hCase] at hExponent
        cases hExponent
    | some e =>
        rw [hCase, writtenExponentText, List.mem_cons,
          List.mem_append] at hExponent
        rcases hExponent with rfl | hSign | hDigit
        · rcases hMark with rfl | rfl <;> exact .inr (by decide)
        · exact .inr (mem_marks_of_mem_text hSign)
        · exact .inl ((hReadable.exponent e hCase).2 c hDigit)

/- No blank is part of a spelled numeral. -/
theorem isBlank_of_spelled
    {n : Numeral}
    {cs : List Char}
    (h : n.Spelled cs) :
    ∀ c ∈ cs, Text.isBlank c = false := by
  intro c hMem
  have hMarks : marks.all (fun c => Text.isBlank c == false) = true := by
    decide
  rcases isDigit_or_mem_marks h hMem with hDigit | hMark
  · exact Text.isBlank_of_isDigit hDigit
  · exact beq_iff_eq.1 (List.all_eq_true.1 hMarks c hMark)

/- Trimming leaves a spelled numeral as it is. -/
theorem trim_of_spelled
    {n : Numeral}
    {cs : List Char}
    (h : n.Spelled cs) :
    Text.trim cs = cs :=
  Text.trim_of_not_blank (isBlank_of_spelled h)

/- Is the character a point or the letter of an exponent? -/
def marksFloat
    (c : Char) : Bool :=
  c = '.' || c = 'e' || c = 'E'

/- A digit is neither. -/
theorem any_marksFloat_digits
    {ds : List Char}
    (h : AllDigits ds) :
    ds.any marksFloat = false := by
  rw [List.any_eq_false]
  intro c hMem hMark
  have hDigit := h c hMem
  simp only [marksFloat, Bool.or_eq_true, decide_eq_true_eq]
    at hMark
  rcases hMark with (rfl | rfl) | rfl <;>
    exact absurd hDigit (by decide)

/-
  A spelled numeral is whole if the text has neither a point
  nor the letter of an exponent.
-/
theorem isWhole_of_spelled
    {n : Numeral}
    {cs : List Char}
    (h : n.Spelled cs) :
    n.isWhole = !cs.any marksFloat := by
  rcases h with ⟨hReadable, mark, hMark, rfl⟩
  have hSign : n.sign.text.any marksFloat = false := by
    cases n.sign <;> decide
  have hPoint :
      (fractionText n.fraction).any marksFloat =
        n.fraction.isSome := by
    cases n.fraction <;> rfl
  have hLetter :
      (writtenExponentText mark n.exponent).any marksFloat =
        n.exponent.isSome := by
    cases n.exponent with
    | none => rfl
    | some e => rcases hMark with rfl | rfl <;> rfl
  rw [written, List.any_append, List.any_append, List.any_append,
    hSign, any_marksFloat_digits hReadable.whole, hPoint, hLetter]
  cases hFraction : n.fraction <;> cases hExponent : n.exponent <;>
    simp [isWhole, hFraction, hExponent]

------------------------------------------------------------
-- Values
------------------------------------------------------------

/- The value that is written. -/
def toRat
    (n : Numeral) : Rat :=
  let magnitude := (n.mantissa : Rat) * (10 : Rat) ^ n.lastPlace
  if n.sign.isMinus then -magnitude else magnitude

/- The number is the one nearest to the value. -/
theorem toBinary64_eq_round
    (n : Numeral) :
    n.toBinary64 = Binary64.round n.sign.isMinus n.toRat := by
  by_cases hDigits : n.mantissa = 0
  · have hZero : n.toRat = 0 := by
      simp [toRat, hDigits]
    rw [toBinary64, Binary64.ofDecimal, if_pos hDigits, hZero,
      Binary64.round, if_pos rfl]
  · exact Binary64.ofDecimal_eq_round _ _ hDigits

/- The value of a whole numeral is its integer. -/
theorem toRat_of_isWhole
    {n : Numeral}
    (h : n.isWhole = true) :
    n.toRat = n.toInt := by
  rcases n with ⟨sign, whole, fraction, exponent⟩
  simp only [isWhole, Bool.and_eq_true, Option.isNone_iff_eq_none]
    at h
  rcases h with ⟨rfl, rfl⟩
  cases sign <;>
    simp [toRat, toInt, mantissa, lastPlace, writtenExponent,
      Sign.isMinus]

/- A whole numeral whose integer fits a word is this word. -/
theorem toNumber_eq_integer_iff
    {n : Numeral}
    {asFloat : Bool}
    {w : Int64}
    (h : n.isWhole = !asFloat) :
    n.toNumber asFloat = .integer w ↔
      asFloat = false ∧ (w.toInt : Rat) = n.toRat := by
  unfold toNumber
  cases asFloat with
  | true => simp
  | false =>
      rw [toRat_of_isWhole h, Int.cast_inj,
        ← Integer.ofInt?_eq_some_iff]
      cases Integer.ofInt? n.toInt <;> simp

/- Any other numeral is the floating-point number nearest to it. -/
theorem toNumber_eq_float_iff
    {n : Numeral}
    {asFloat : Bool}
    {x : Binary64}
    (h : n.isWhole = !asFloat) :
    n.toNumber asFloat = .float x ↔
      (asFloat = true ∨ ¬ ∃ w : Int64, (w.toInt : Rat) = n.toRat) ∧
        x = Binary64.round n.sign.isMinus n.toRat := by
  rw [← toBinary64_eq_round, eq_comm (a := x)]
  unfold toNumber
  cases asFloat with
  | true => simp
  | false =>
      simp only [toRat_of_isWhole h, Int.cast_inj,
        ← Integer.ofInt?_eq_some_iff]
      cases Integer.ofInt? n.toInt <;> simp

end Numeral

end PageExpr
