import PageExpr.Number.Layout
import PageExpr.Number.Numeral
import PageExpr.Proofs.Number.ShortestDigits

/-
  Written numbers are scanned as they were written.

  A numeral is written with its digits, its point and a letter
  before its exponent.  From a text that begins so and does not
  go on like a numeral the same numeral is scanned.  The two
  layouts of digits write numerals of the same value.

  Main declarations:
    * `Numeral.written`
    * `Numeral.Proper`
    * `Numeral.Stops`
    * `Numeral.scan_written`
    * `Numeral.scan_split`
    * `Layout.positionalNumeral`, `Layout.scientificNumeral`
    * `Layout.value_positionalNumeral`
    * `Layout.value_scientificNumeral`
    * `Layout.toList_text`
    * `Layout.ofDecimal_numeral`
-/

namespace PageExpr

namespace Numeral

------------------------------------------------------------
-- Digits
------------------------------------------------------------

/- Are all characters ASCII digits? -/
def AllDigits
    (ds : List Char) : Prop :=
  ∀ c ∈ ds, c.isDigit = true

/- The digits of a natural number are digits. -/
theorem allDigits_toDigits
    (n : Nat) :
    AllDigits (Nat.toDigits 10 n) := by
  intro c hMem
  exact Nat.isDigit_of_mem_toDigits (by decide) (by decide) hMem

/- Digits are read up to where they end. -/
theorem digits_append
    {ds rest : List Char}
    (hDigits : AllDigits ds)
    (hRest : digits rest = []) :
    digits (ds ++ rest) = ds := by
  rw [digits, List.takeWhile_append_of_pos hDigits]
  rw [digits] at hRest
  rw [hRest, List.append_nil]

/- What follows the digits is left. -/
theorem afterDigits_append
    {ds rest : List Char}
    (hDigits : AllDigits ds)
    (hRest : digits rest = []) :
    afterDigits (ds ++ rest) = rest := by
  have hSplit := digits_append_afterDigits (ds ++ rest)
  rw [digits_append hDigits hRest] at hSplit
  exact List.append_cancel_left hSplit

/- A character that is no digit ends digits. -/
theorem digits_cons
    {c : Char}
    (rest : List Char)
    (h : c.isDigit = false) :
    digits (c :: rest) = [] := by
  simp [digits, h]

/- The value of digits, as the library reads them. -/
theorem value_eq_ofDigitChars
    (ds : List Char) :
    value ds = Nat.ofDigitChars 10 ds 0 :=
  Nat.ofDigitChars_eq_foldl.symm

/- The digits of a number have its value. -/
theorem value_toDigits
    (n : Nat) :
    value (Nat.toDigits 10 n) = n := by
  rw [value_eq_ofDigitChars, Nat.ofDigitChars_ten_toDigits]

/- Zeros in front do not count. -/
theorem value_zeros_append
    (n : Nat)
    (ds : List Char) :
    value (List.replicate n '0' ++ ds) = value ds := by
  simp [value_eq_ofDigitChars, Nat.ofDigitChars_append]

/- Each zero at the end counts ten times. -/
theorem value_append_zeros
    (ds : List Char)
    (n : Nat) :
    value (ds ++ List.replicate n '0') = value ds * 10 ^ n := by
  simp [value_eq_ofDigitChars, Nat.ofDigitChars_append,
    Nat.mul_comm]

------------------------------------------------------------
-- Written Numerals
------------------------------------------------------------

/- The exponent behind its letter. -/
def writtenExponentText
    (mark : Char) : Option (Sign × List Char) → List Char
  | none => []
  | some (sign, ds) => mark :: (sign.text ++ ds)

/- The numeral without a sign, with a letter of its own. -/
def written
    (mark : Char)
    (n : Numeral) : List Char :=
  n.whole ++ (fractionText n.fraction ++
    writtenExponentText mark n.exponent)

/-
  The parts of a numeral are digits, and a fraction and an
  exponent have at least one.
-/
structure Proper
    (n : Numeral) : Prop where
  sign : n.sign = .absent
  whole : AllDigits n.whole
  fraction : ∀ ds ∈ n.fraction, ds ≠ [] ∧ AllDigits ds
  exponent : ∀ e ∈ n.exponent, e.2 ≠ [] ∧ AllDigits e.2

/- The text does not go on with parts of a numeral. -/
structure Stops
    (rest : List Char) : Prop where
  digits : digits rest = []
  fraction : scanFraction rest = (none, rest)
  exponent : scanExponent rest = none

/- A letter that is a mark stands before an exponent. -/
def IsMark
    (mark : Char) : Prop :=
  mark = 'e' ∨ mark = 'E'

/- A mark is neither a digit nor the point. -/
theorem IsMark.ne
    {mark : Char}
    (h : IsMark mark) :
    mark.isDigit = false ∧ mark ≠ '.' := by
  rcases h with rfl | rfl <;> decide

/- A sign in front of digits is read. -/
theorem read_sign_append
    {ds : List Char}
    (sign : Sign)
    (rest : List Char)
    (hNonempty : ds ≠ [])
    (hDigits : AllDigits ds) :
    Sign.read (sign.text ++ ds ++ rest) = (sign, ds ++ rest) := by
  cases sign with
  | plus => rfl
  | minus => rfl
  | absent =>
      cases ds with
      | nil => exact absurd rfl hNonempty
      | cons d ds =>
          have hDigit := hDigits d List.mem_cons_self
          have hMinus : d ≠ '-' := by
            rintro rfl
            exact absurd hDigit (by decide)
          have hPlus : d ≠ '+' := by
            rintro rfl
            exact absurd hDigit (by decide)
          simp [Sign.read, Sign.text, hMinus, hPlus]

/- A written exponent is scanned. -/
theorem scanExponent_written
    {mark : Char}
    {exponent : Option (Sign × List Char)}
    {rest : List Char}
    (hMark : IsMark mark)
    (hExponent : ∀ e ∈ exponent, e.2 ≠ [] ∧ AllDigits e.2)
    (hRest : Stops rest) :
    scanExponent (writtenExponentText mark exponent ++ rest) =
      exponent := by
  cases exponent with
  | none => exact hRest.exponent
  | some e =>
      rcases e with ⟨sign, ds⟩
      rcases hExponent _ rfl with ⟨hNonempty, hDigits⟩
      have hRead := read_sign_append sign rest hNonempty hDigits
      have hScan := digits_append hDigits hRest.digits
      rw [writtenExponentText, List.cons_append, scanExponent,
        if_pos (by rcases hMark with rfl | rfl <;> rfl), hRead]
      simp only [hScan, if_neg hNonempty]

/- Neither an exponent nor what follows goes on with digits. -/
theorem digits_writtenExponentText
    {mark : Char}
    {rest : List Char}
    (exponent : Option (Sign × List Char))
    (hMark : IsMark mark)
    (hRest : Stops rest) :
    digits (writtenExponentText mark exponent ++ rest) = [] := by
  cases exponent with
  | none => exact hRest.digits
  | some e => exact digits_cons _ hMark.ne.1

/- A written fraction is scanned. -/
theorem scanFraction_written
    {mark : Char}
    {n : Numeral}
    {rest : List Char}
    (hMark : IsMark mark)
    (hProper : n.Proper)
    (hRest : Stops rest) :
    scanFraction
        (fractionText n.fraction ++
          (writtenExponentText mark n.exponent ++ rest)) =
      (n.fraction, writtenExponentText mark n.exponent ++ rest) := by
  have hAfter := digits_writtenExponentText n.exponent hMark hRest
  cases hFraction : n.fraction with
  | none =>
      cases hExponent : n.exponent with
      | none => exact hRest.fraction
      | some e =>
          have hPoint := hMark.ne.2
          simp [fractionText, writtenExponentText, scanFraction,
            hPoint]
  | some ds =>
      rcases hProper.fraction ds hFraction with
        ⟨hNonempty, hDigits⟩
      rw [fractionText, List.cons_append, scanFraction,
        digits_append hDigits hAfter, if_neg hNonempty,
        afterDigits_append hDigits hAfter]

/- Nothing behind the whole part goes on with digits. -/
theorem digits_behind_whole
    {mark : Char}
    {rest : List Char}
    (fraction : Option (List Char))
    (exponent : Option (Sign × List Char))
    (hMark : IsMark mark)
    (hRest : Stops rest) :
    digits
        (fractionText fraction ++
          (writtenExponentText mark exponent ++ rest)) = [] := by
  cases fraction with
  | none => exact digits_writtenExponentText exponent hMark hRest
  | some ds => exact digits_cons _ (by decide)

/- A written numeral is scanned as it is. -/
theorem scan_written
    {mark : Char}
    {n : Numeral}
    {rest : List Char}
    (hMark : IsMark mark)
    (hProper : n.Proper)
    (hRest : Stops rest) :
    scan .absent (n.written mark ++ rest) = n := by
  have hBehind :=
    digits_behind_whole n.fraction n.exponent hMark hRest
  unfold scan
  rw [written, List.append_assoc, List.append_assoc,
    digits_append hProper.whole hBehind,
    afterDigits_append hProper.whole hBehind,
    scanFraction_written hMark hProper hRest]
  simp only [scanExponent_written hMark hProper.exponent hRest,
    ← hProper.sign]

/- The letter of the exponent makes no difference in length. -/
theorem length_written
    {n : Numeral}
    (mark : Char)
    (hProper : n.Proper) :
    (n.written mark).length = n.text.length := by
  have hExponent :
      (writtenExponentText mark n.exponent).length =
        (exponentText n.exponent).length := by
    cases n.exponent <;> simp [writtenExponentText, exponentText]
  simp only [written, text, hProper.sign, Sign.text,
    List.length_append, hExponent, List.length_nil]
  omega

------------------------------------------------------------
-- Scanned Numerals
------------------------------------------------------------

/- What is read as digits consists of digits. -/
theorem allDigits_digits
    (cs : List Char) :
    AllDigits (digits cs) := by
  intro c hMem
  have hAll := List.all_takeWhile (p := Char.isDigit) (l := cs)
  exact List.all_eq_true.1 hAll c hMem

/- A scanned fraction has digits and stands where it was. -/
theorem scanFraction_split
    (cs : List Char) :
    cs = fractionText (scanFraction cs).1 ++ (scanFraction cs).2 ∧
      ∀ ds ∈ (scanFraction cs).1, ds ≠ [] ∧ AllDigits ds := by
  unfold scanFraction
  split
  · rename_i rest
    split
    · exact ⟨rfl, by simp⟩
    · rename_i hDigits
      refine ⟨?_, ?_⟩
      · rw [fractionText, List.cons_append, digits_append_afterDigits]
      · rintro ds hMem
        cases hMem
        exact ⟨hDigits, allDigits_digits rest⟩
  · exact ⟨rfl, by simp⟩

/- A scanned exponent has digits and stands at the start. -/
theorem scanExponent_split
    (cs : List Char) :
    (∃ mark rest, IsMark mark ∧
      cs = writtenExponentText mark (scanExponent cs) ++ rest) ∧
    ∀ e ∈ scanExponent cs, e.2 ≠ [] ∧ AllDigits e.2 := by
  have hNone :
      ∃ mark rest, IsMark mark ∧
        cs = writtenExponentText mark none ++ rest :=
    ⟨'e', cs, .inl rfl, rfl⟩
  unfold scanExponent
  split
  · exact ⟨hNone, by simp⟩
  · rename_i c rest
    split
    · rename_i hMark
      have hSign := Sign.text_append_read rest
      have hDigits := digits_append_afterDigits (Sign.read rest).2
      simp only
      split
      · exact ⟨hNone, by simp⟩
      · rename_i hNonempty
        refine ⟨⟨c, afterDigits (Sign.read rest).2, ?_, ?_⟩, ?_⟩
        · simpa [IsMark] using hMark
        · rw [writtenExponentText, List.cons_append, List.append_assoc,
            hDigits, hSign]
        · rintro e hMem
          cases hMem
          exact ⟨hNonempty, allDigits_digits _⟩
    · exact ⟨hNone, by simp⟩

/- A scanned numeral is proper and stands at the start. -/
theorem scan_split
    (cs : List Char) :
    ∃ mark rest, IsMark mark ∧ (scan .absent cs).Proper ∧
      cs = (scan .absent cs).written mark ++ rest := by
  rcases scanFraction_split (afterDigits cs) with
    ⟨hFraction, hFractionDigits⟩
  rcases scanExponent_split (scanFraction (afterDigits cs)).2 with
    ⟨⟨mark, rest, hMark, hExponent⟩, hExponentDigits⟩
  refine ⟨mark, rest, hMark, ?_, ?_⟩
  · exact ⟨rfl, allDigits_digits cs, hFractionDigits,
      hExponentDigits⟩
  · calc
      cs = digits cs ++ afterDigits cs :=
        (digits_append_afterDigits cs).symm
      _ = digits cs ++
            (fractionText (scanFraction (afterDigits cs)).1 ++
              (scanFraction (afterDigits cs)).2) := by
        rw [← hFraction]
      _ = (scan .absent cs).written mark ++ rest := by
        rw [hExponent]
        simp [written, scan, ← hExponent]

end Numeral

------------------------------------------------------------
-- Layouts
------------------------------------------------------------

namespace Layout

open Numeral

/- The numeral that is written with the point in its place. -/
def positionalNumeral
    (style : Layout)
    (d : Digits) : Numeral :=
  let digits := Nat.toDigits 10 d.units
  if 0 ≤ d.exponent then
    ⟨.absent, digits ++ List.replicate d.exponent.toNat '0',
      if style.keepsPoint then some ['0'] else none, none⟩
  else
    let whole := (digits.length + d.exponent : Int)
    if 0 < whole then
      ⟨.absent, digits.take whole.toNat,
        some (digits.drop whole.toNat), none⟩
    else
      ⟨.absent, ['0'],
        some (List.replicate (-whole).toNat '0' ++ digits), none⟩

/- The sign in front of an exponent. -/
def exponentSign
    (style : Layout)
    (exponent : Int) : Sign :=
  if exponent < 0 then .minus
  else if style.plusSign then .plus
  else .absent

/- The numeral that is written with an exponent. -/
def scientificNumeral
    (style : Layout)
    (d : Digits) : Numeral :=
  let digits := Nat.toDigits 10 d.units
  let fraction := digits.drop 1
  ⟨.absent, digits.take 1,
    if fraction.isEmpty then none else some fraction,
    some (style.exponentSign d.place,
      Nat.toDigits 10 d.place.natAbs)⟩

/- The layout with the point in its place writes its numeral. -/
theorem written_positionalNumeral
    (style : Layout)
    (d : Digits) :
    (style.positionalNumeral d).written style.mark =
      style.positional d := by
  unfold positionalNumeral positional
  simp only
  split
  · cases style.keepsPoint <;>
      simp [written, fractionText, writtenExponentText]
  · split <;> simp [written, fractionText, writtenExponentText]

/- The layout with an exponent writes its numeral. -/
theorem written_scientificNumeral
    (style : Layout)
    (d : Digits) :
    (style.scientificNumeral d).written style.mark =
      style.scientific d := by
  have hSign :
      (style.exponentSign d.place).text =
        if d.place < 0 then ['-']
        else if style.plusSign then ['+'] else [] := by
    unfold exponentSign
    split
    · rfl
    · split <;> rfl
  unfold scientificNumeral scientific
  simp only [written, writtenExponentText, hSign]
  split <;> simp [fractionText]

/- Zeros are digits. -/
theorem allDigits_zeros
    (n : Nat) :
    AllDigits (List.replicate n '0') := by
  intro c hMem
  rw [List.eq_of_mem_replicate hMem]
  decide

/- Digits behind digits are digits. -/
theorem allDigits_append
    {ds es : List Char}
    (hd : AllDigits ds)
    (he : AllDigits es) :
    AllDigits (ds ++ es) := by
  intro c hMem
  rcases List.mem_append.1 hMem with hMem | hMem
  · exact hd c hMem
  · exact he c hMem

/- The numeral with the point in its place is a proper one. -/
theorem proper_positionalNumeral
    (style : Layout)
    (d : Digits) :
    (style.positionalNumeral d).Proper := by
  have hDigits := allDigits_toDigits d.units
  unfold positionalNumeral
  simp only
  split
  · refine ⟨rfl, allDigits_append hDigits (allDigits_zeros _), ?_,
      by simp⟩
    intro ds hMem
    split at hMem
    · cases hMem
      exact ⟨by simp, allDigits_zeros 1⟩
    · cases hMem
  · rename_i hExponent
    split
    · rename_i hWhole
      refine ⟨rfl, ?_, ?_, by simp⟩
      · exact fun c hMem => hDigits c (List.mem_of_mem_take hMem)
      · intro ds hMem
        cases hMem
        refine ⟨?_, fun c hMem =>
          hDigits c (List.mem_of_mem_drop hMem)⟩
        rw [Ne, List.drop_eq_nil_iff]
        omega
    · refine ⟨rfl, allDigits_zeros 1, ?_, by simp⟩
      intro ds hMem
      cases hMem
      refine ⟨?_, allDigits_append (allDigits_zeros _) hDigits⟩
      simp [Nat.toDigits_ne_nil]

/- The numeral with an exponent is a proper one. -/
theorem proper_scientificNumeral
    (style : Layout)
    (d : Digits) :
    (style.scientificNumeral d).Proper := by
  have hDigits := allDigits_toDigits d.units
  refine ⟨rfl, ?_, ?_, ?_⟩
  · exact fun c hMem => hDigits c (List.mem_of_mem_take hMem)
  · intro ds hMem
    simp only [scientificNumeral] at hMem
    split at hMem
    · cases hMem
    · rename_i hNonempty
      cases hMem
      exact ⟨by simpa using hNonempty,
        fun c hMem => hDigits c (List.mem_of_mem_drop hMem)⟩
  · intro e hMem
    cases hMem
    exact ⟨Nat.toDigits_ne_nil, allDigits_toDigits _⟩

/- A point in its place keeps the value of the digits. -/
theorem value_positionalNumeral
    (style : Layout)
    (d : Digits) :
    ((style.positionalNumeral d).mantissa : Rat) *
        (10 : Rat) ^ (style.positionalNumeral d).lastPlace =
      d.toRat := by
  have hTen : (10 : Rat) ≠ 0 := by norm_num
  unfold positionalNumeral
  simp only
  split
  · rename_i hExponent
    rcases Int.eq_ofNat_of_zero_le hExponent with ⟨n, hn⟩
    have hValue :
        value (Nat.toDigits 10 d.units ++ List.replicate n '0') =
          d.units * 10 ^ n := by
      rw [value_append_zeros, value_toDigits]
    cases style.keepsPoint with
    | false =>
        simp [mantissa, lastPlace, writtenExponent, Digits.toRat,
          hn, hValue]
    | true =>
        have hPoint := value_append_zeros
          (Nat.toDigits 10 d.units ++ List.replicate n '0') 1
        rw [hValue] at hPoint
        simp only [List.replicate_one] at hPoint
        simp only [if_true, mantissa, lastPlace, writtenExponent,
          Option.getD_some, Digits.toRat, hn, Int.toNat_natCast,
          hPoint]
        push_cast
        rw [zpow_natCast]
        simp
  · split
    · rename_i hExponent hWhole
      have hLength :
          ((Nat.toDigits 10 d.units).drop
              ((Nat.toDigits 10 d.units).length +
                d.exponent).toNat).length =
            -d.exponent := by
        rw [List.length_drop]
        omega
      simp only [mantissa, lastPlace, writtenExponent,
        Option.getD_some, List.take_append_drop, value_toDigits,
        hLength, Digits.toRat]
      simp
    · rename_i hExponent hWhole
      have hLength :
          ((List.replicate
              (-((Nat.toDigits 10 d.units).length +
                d.exponent)).toNat '0' ++
              Nat.toDigits 10 d.units).length : Int) =
            -d.exponent := by
        rw [List.length_append, List.length_replicate]
        omega
      have hZeros :
          ∀ n : Nat,
            value (['0'] ++ (List.replicate n '0' ++
              Nat.toDigits 10 d.units)) = d.units := by
        intro n
        rw [← List.replicate_one, value_zeros_append,
          value_zeros_append, value_toDigits]
      simp only [mantissa, lastPlace, writtenExponent,
        Option.getD_some, hZeros, hLength, Digits.toRat]
      simp

/- The exponent that is written is the place of the digits. -/
theorem writtenExponent_scientificNumeral
    (style : Layout)
    (d : Digits) :
    (style.scientificNumeral d).writtenExponent = d.place := by
  simp only [scientificNumeral, writtenExponent, value_toDigits,
    exponentSign]
  split
  · simp only [Sign.isMinus, if_true]
    omega
  · split <;> simp only [Sign.isMinus] <;> simp <;> omega

/- An exponent keeps the value of the digits. -/
theorem value_scientificNumeral
    (style : Layout)
    (d : Digits) :
    ((style.scientificNumeral d).mantissa : Rat) *
        (10 : Rat) ^ (style.scientificNumeral d).lastPlace =
      d.toRat := by
  have hFraction :
      (style.scientificNumeral d).fraction.getD [] =
        (Nat.toDigits 10 d.units).drop 1 := by
    unfold scientificNumeral
    simp only
    split
    · rename_i hEmpty
      rw [List.isEmpty_iff.1 hEmpty]
      rfl
    · rfl
  have hMantissa :
      (style.scientificNumeral d).mantissa = d.units := by
    rw [mantissa, hFraction, scientificNumeral]
    simp only
    rw [List.take_append_drop, value_toDigits]
  have hPlace :
      (style.scientificNumeral d).lastPlace = d.exponent := by
    have hPos := Nat.length_toDigits_pos (b := 10) (n := d.units)
    rw [lastPlace, writtenExponent_scientificNumeral, hFraction,
      List.length_drop, Digits.place, Digits.count]
    omega
  rw [hMantissa, hPlace, Digits.toRat]

------------------------------------------------------------
-- Texts of Numbers
------------------------------------------------------------

/- The numeral that a layout writes for a number. -/
def numeral
    (style : Layout)
    (x : Binary64) : Numeral :=
  let d := x.shortest style.halfUp
  if style.isPositional d.place then style.positionalNumeral d
  else style.scientificNumeral d

/- The text of a number is a sign and its numeral. -/
theorem toList_text
    (style : Layout)
    (x : Binary64) :
    (style.text x).toList =
      (if x.isNegative then ['-'] else []) ++
        (style.numeral x).written style.mark := by
  unfold text numeral
  simp only [String.toList_ofList]
  split <;> split <;>
    simp [written_positionalNumeral, written_scientificNumeral]

/- The numeral of a number is a proper one. -/
theorem proper_numeral
    (style : Layout)
    (x : Binary64) :
    (style.numeral x).Proper := by
  unfold numeral
  simp only
  split
  · exact proper_positionalNumeral style _
  · exact proper_scientificNumeral style _

/- The numeral of a number has digits before its point. -/
theorem whole_numeral_ne_nil
    (style : Layout)
    (x : Binary64) :
    (style.numeral x).whole ≠ [] := by
  have hDigits :
      Nat.toDigits 10 (x.shortest style.halfUp).units ≠ [] :=
    Nat.toDigits_ne_nil
  unfold numeral positionalNumeral scientificNumeral
  simp only
  split
  · split
    · simp [hDigits]
    · split
      · rename_i hWhole
        simp only [ne_eq, List.take_eq_nil_iff, hDigits, or_false]
        omega
      · simp
  · simp [hDigits]

/- The numeral of a number has the value of its digits. -/
theorem value_numeral
    (style : Layout)
    (x : Binary64) :
    ((style.numeral x).mantissa : Rat) *
        (10 : Rat) ^ (style.numeral x).lastPlace =
      (x.shortest style.halfUp).toRat := by
  unfold numeral
  simp only
  split
  · exact value_positionalNumeral style _
  · exact value_scientificNumeral style _

/- The numeral of a finite number reads back as the number. -/
theorem ofDecimal_numeral
    (style : Layout)
    {x : Binary64}
    (hFinite : x.isFinite = true) :
    Binary64.ofDecimal x.isNegative (style.numeral x).mantissa
      (style.numeral x).lastPlace = x :=
  Binary64.ofDecimal_of_eq_shortest hFinite (style.value_numeral x)

/- A layout that keeps the point writes no whole numeral. -/
theorem isWhole_numeral
    (style : Layout)
    (x : Binary64)
    (hPoint : style.keepsPoint = true) :
    (style.numeral x).isWhole = false := by
  unfold numeral positionalNumeral scientificNumeral
  simp only [hPoint, if_true]
  split
  · split
    · rfl
    · split <;> rfl
  · simp [isWhole]

end Layout

end PageExpr
