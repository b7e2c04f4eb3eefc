import PageExpr.Evaluation.Evaluator
import PageExpr.Proofs.Number.Reading
import PageExpr.Proofs.Syntax.CanonicalTree
import PageExpr.Proofs.Syntax.Spacing

/-
  There is one reading of the texts of numbers.

  A string is a number just if it spells a numeral.  A literal
  in an expression is the number that its text is as a string,
  and the text of a number on a page is read back as the same
  number, so the number and its text are the same operand, the
  same index and the same key.

  Main declarations:
    * `Value.StandsFor`
    * `Value.parseNumber?_eq_some_iff`
    * `Token.number?`
    * `Lexer.parseNumber?_of_stands`
    * `Number.ReadsBack`
    * `Number.readsBack_integer`, `Number.readsBack_float`
    * `Value.numbers_read_alike`
-/

namespace PageExpr

------------------------------------------------------------
-- Strings
------------------------------------------------------------

namespace Value

/-
  The number that the numeral of a string stands for.  It is a
  word if the string does not look like a floating-point number
  and the value fits, else what is nearest to the value.
-/
def StandsFor
    (s : String)
    (n : Numeral) : Number → Prop
  | .integer w =>
      looksLikeFloat s = false ∧ (w.toInt : Rat) = n.toRat
  | .float x =>
      (looksLikeFloat s = true ∨
        ¬ ∃ w : Int64, (w.toInt : Rat) = n.toRat) ∧
        x = Binary64.round n.sign.isMinus n.toRat

/- The numeral of a string stands for its number. -/
theorem standsFor_iff
    {s : String}
    {n : Numeral}
    {number : Number}
    (h : n.Spelled s.toList) :
    StandsFor s n number ↔
      n.toNumber (looksLikeFloat s) = number := by
  have hWhole : n.isWhole = !looksLikeFloat s :=
    Numeral.isWhole_of_spelled h
  cases number with
  | integer w =>
      rw [StandsFor, Numeral.toNumber_eq_integer_iff hWhole]
  | float x =>
      rw [StandsFor, Numeral.toNumber_eq_float_iff hWhole]

/- The numeral that a string spells is its number. -/
theorem parseNumber?_of_spelled
    {s : String}
    {n : Numeral}
    (h : n.Spelled s.toList) :
    parseNumber? s = some (n.toNumber !n.isWhole) := by
  have hWhole : n.isWhole = !looksLikeFloat s :=
    Numeral.isWhole_of_spelled h
  rw [parseNumber?, Numeral.read?_of_spelled h, Option.map_some,
    hWhole, Bool.not_not]

/- A string is a number just if it spells a numeral. -/
theorem isSome_parseNumber?_iff
    (s : String) :
    (parseNumber? s).isSome = true ↔
      ∃ n : Numeral, n.Spelled s.toList := by
  simp only [parseNumber?, Option.isSome_map, Option.isSome_iff_exists,
    Numeral.read?_eq_some_iff]

/- The number of a string is what its numeral stands for. -/
theorem parseNumber?_eq_some_iff
    {s : String}
    {number : Number} :
    parseNumber? s = some number ↔
      ∃ n : Numeral, n.Spelled s.toList ∧ StandsFor s n number := by
  simp only [parseNumber?, Option.map_eq_some_iff,
    Numeral.read?_eq_some_iff]
  apply exists_congr
  intro n
  apply and_congr_right
  intro hSpelled
  exact (standsFor_iff hSpelled).symm

/- With a digit beyond ASCII a string is no number. -/
theorem parseNumber?_eq_none_of_isNumeric
    {s : String}
    {c : Char}
    (hMem : c ∈ s.toList)
    (hNumeric : Text.isNumeric c = true)
    (hDigit : c.isDigit = false) :
    parseNumber? s = none := by
  rw [← Option.not_isSome_iff_eq_none, isSome_parseNumber?_iff]
  rintro ⟨n, hSpelled⟩
  have hMarks :
      Numeral.marks.all (fun c => Text.isNumeric c == false) = true := by
    decide
  rcases Numeral.isDigit_or_mem_marks hSpelled hMem with h | h
  · rw [h] at hDigit
    cases hDigit
  · have hNone := List.all_eq_true.1 hMarks c h
    rw [beq_iff_eq, hNumeric] at hNone
    cases hNone

end Value

------------------------------------------------------------
-- Literals
------------------------------------------------------------

/- The number of a token that is a literal of one. -/
def Token.number? : Token → Option Number
  | .integer n => some (.integer n)
  | .float x => some (.float x)
  | _ => none

namespace Lexer

/- The token of a number is the number of what is scanned. -/
theorem number?_of_scanNumber
    {cs : List Char}
    {token : Token}
    {length : Nat}
    (h : scanNumber cs = .ok (token, length)) :
    token.number? =
      some ((Numeral.scan .absent cs).toNumber
        !(Numeral.scan .absent cs).isWhole) := by
  unfold scanNumber at h
  unfold Numeral.toNumber
  simp only at h
  split at h
  · rename_i hWhole
    split at h
    · rename_i w hFits
      cases h
      rw [hWhole, hFits]
      rfl
    · cases h
  · rename_i hWhole
    rw [Bool.not_eq_true] at hWhole
    split at h
    · cases h
    · cases h
      rw [hWhole]
      rfl

/- A word is no number. -/
theorem number?_ofWord
    (word : String) :
    (Token.ofWord word).number? = none :=
  Token.forall_ofWord (fun token => token.number? = none)
    (by simp [Token.keywords, Token.number?]) fun _ => rfl

/- Only what is scanned as a number is the token of one. -/
theorem scanNumber_of_number?
    {c : Char}
    {cs : List Char}
    {token : Token}
    {length : Nat}
    {number : Number}
    (h : scan c cs = .ok (token, length))
    (hNumber : token.number? = some number) :
    (c.isDigit || (c = '.' && startsWithDigit cs)) = true ∧
      scanNumber (c :: cs) = .ok (token, length) := by
  cases branch c cs with
  | number hStart hScan => exact ⟨hStart, hScan ▸ h⟩
  | string hQuote hScan =>
      rw [hScan] at h
      rcases exists_of_map_eq_ok h with ⟨read, -, hRead⟩
      cases hRead
      cases hNumber
  | double op hSign hScan =>
      rw [hScan] at h
      cases eq_of_scanDouble h
      cases hNumber
  | pair op short hSign hShort hScan =>
      rw [hScan] at h
      rcases eq_of_scanPair h with rfl | rfl
      · cases hNumber
      · rcases hShort with rfl | ⟨other, rfl⟩ <;> cases hNumber
  | word hStart hScan =>
      rw [hScan] at h
      cases h
      rw [number?_ofWord] at hNumber
      cases hNumber
  | sign token hSign hHere hScan =>
      rw [hHere] at h
      cases h
      unfold punctuation? at hSign
      split at hSign <;> cases hSign <;> cases hNumber
  | fault hScan =>
      rw [hScan] at h
      cases h

/- A literal is the number that its text is as a string. -/
theorem parseNumber?_of_stands
    {token : Token}
    {text : String}
    {number : Number}
    (hStands : Stands token text.toList)
    (hNumber : token.number? = some number) :
    Value.parseNumber? text = some number := by
  cases hText : text.toList with
  | nil =>
      rw [hText] at hStands
      exact hStands.elim
  | cons c cs =>
      rw [hText] at hStands
      have hScan := hStands.2 [] (by simp [Spaced])
      rw [List.append_nil] at hScan
      rcases scanNumber_of_number? hScan hNumber with
        ⟨hStart, hScanned⟩
      rcases exists_written_of_scanNumber hStart hScanned with
        ⟨mark, ds, rest, hMark, hProper, hWritten, hSplit, hLength⟩
      -- The number takes up the whole text.
      have hRest : rest = [] := by
        have hLengths := congrArg List.length hSplit
        rw [List.length_append] at hLengths
        exact List.eq_nil_of_length_eq_zero (by omega)
      rw [hRest, List.append_nil] at hSplit
      have hSpelled :
          (Numeral.scan .absent (c :: cs)).Spelled text.toList := by
        refine ⟨hProper.readable (digits_scan_ne_nil hStart), mark,
          hMark, ?_⟩
        rw [hText, hProper.sign, hWritten, hSplit]
        rfl
      rw [Value.parseNumber?_of_spelled hSpelled,
        ← number?_of_scanNumber hScanned, hNumber]

end Lexer

------------------------------------------------------------
-- Texts on a Page
------------------------------------------------------------

namespace Number

/- The sign of a number as it is written on a page. -/
def textSign
    (negative : Bool) : Sign :=
  if negative then .minus else .absent

/- The numeral that is the text of a number on a page. -/
def textNumeral : Number → Numeral
  | .integer n =>
      ⟨textSign (n.toInt < 0), Nat.toDigits 10 n.toInt.natAbs, none,
        none⟩
  | .float x =>
      { Value.floatLayout.numeral x with
        sign := textSign x.isNegative }

/- The text of an integer is a sign and the digits behind it. -/
theorem toList_toString_int
    (n : Int) :
    (toString n).toList =
      (textSign (n < 0)).text ++ Nat.toDigits 10 n.natAbs := by
  cases n with
  | ofNat k => exact Nat.toList_repr
  | negSucc k =>
      have hText : toString (Int.negSucc k) = "-" ++ toString (k + 1) :=
        rfl
      have hDigits :
          (toString (k + 1)).toList = Nat.toDigits 10 (k + 1) :=
        Nat.toList_repr
      have hSign : decide (Int.negSucc k < 0) = true :=
        decide_eq_true (Int.negSucc_lt_zero k)
      rw [hText, String.toList_append, hDigits, hSign]
      rfl

/- The text of a word spells its numeral. -/
theorem spelled_textNumeral_integer
    (n : Int64) :
    (textNumeral (.integer n)).Spelled (Value.integer n).text.toList := by
  have hDigits := Numeral.allDigits_toDigits n.toInt.natAbs
  refine ⟨⟨hDigits, by simp [textNumeral], by simp [textNumeral], ?_⟩,
    'e', .inl rfl, ?_⟩
  · simp [textNumeral, Nat.toDigits_ne_nil]
  · rw [Value.text, toList_toString_int]
    simp [textNumeral, Numeral.written, Numeral.fractionText,
      Numeral.writtenExponentText]

/- The text of a finite number spells its numeral. -/
theorem spelled_textNumeral_float
    {x : Binary64}
    (hFinite : x.isFinite = true) :
    (textNumeral (.float x)).Spelled (Value.float x).text.toList := by
  have hText :
      (Value.float x).text = Value.floatLayout.text x := by
    cases x <;> first | rfl | cases hFinite
  have hReadable :=
    (Value.floatLayout.proper_numeral x).readable
      (by simp [Value.floatLayout.whole_numeral_ne_nil x])
  refine ⟨hReadable.withSign _, 'E', .inr rfl, ?_⟩
  have hSign :
      (if x.isNegative then ['-'] else []) =
        (textSign x.isNegative).text := by
    cases x.isNegative <;> rfl
  rw [hText, Layout.toList_text, hSign]
  rfl

/- The numeral of a word is this word. -/
theorem toNumber_textNumeral_integer
    (n : Int64) :
    (textNumeral (.integer n)).toNumber false = .integer n := by
  rw [Numeral.toNumber_eq_integer_iff rfl]
  refine ⟨rfl, ?_⟩
  rw [Numeral.toRat_of_isWhole rfl, Int.cast_inj, Numeral.toInt]
  simp only [textNumeral, Numeral.value_toDigits]
  by_cases hSign : n.toInt < 0
  · simp only [textSign, hSign, decide_true, if_true, Sign.isMinus]
    omega
  · simp only [textSign, hSign, decide_false, Bool.false_eq_true,
      if_false, Sign.isMinus]
    omega

/- The numeral of a finite number is this number. -/
theorem toNumber_textNumeral_float
    {x : Binary64}
    (hFinite : x.isFinite = true) :
    (textNumeral (.float x)).toNumber true = .float x := by
  have hRead := Value.floatLayout.ofDecimal_numeral hFinite
  have hSign :
      (textSign x.isNegative).isMinus = x.isNegative := by
    cases x.isNegative <;> rfl
  have hValue : (textNumeral (.float x)).toBinary64 = x := by
    rw [Numeral.toBinary64, textNumeral, hSign]
    exact hRead
  simp only [Numeral.toNumber, hValue]

/-
  The text of a number on a page is as good as the number: it
  is read as this number, and it is the same operand, the same
  index and the same key.
-/
structure ReadsBack
    (number : Number) : Prop where
  parse :
    Value.parseNumber? (Value.ofNumber number).text = some number
  operand :
    (Value.string (Value.ofNumber number).text).toNumber =
      (Value.ofNumber number).toNumber
  index :
    (Value.string (Value.ofNumber number).text).toIndex =
      (Value.ofNumber number).toIndex
  key :
    ∀ (owner : Value) fresh,
      owner.access (.string (Value.ofNumber number).text) fresh =
        owner.access (Value.ofNumber number) fresh

/- If the text spells a numeral of the number, it is as good. -/
theorem readsBack_of_spelled
    {number : Number}
    {n : Numeral}
    (hSpelled : n.Spelled (Value.ofNumber number).text.toList)
    (hNumber : (n.toNumber !n.isWhole) = number) :
    number.ReadsBack := by
  have hParse :
      Value.parseNumber? (Value.ofNumber number).text =
        some number := by
    rw [Value.parseNumber?_of_spelled hSpelled, hNumber]
  have hNonempty : (Value.ofNumber number).text.isEmpty = false := by
    rw [Bool.eq_false_iff]
    intro hEmpty
    rw [String.isEmpty_iff.1 hEmpty] at hParse
    cases hParse
  have hIndex :
      (Value.string (Value.ofNumber number).text).toIndex =
        (Value.ofNumber number).toIndex := by
    rw [Value.toIndex, Numeral.trim_of_spelled hSpelled,
      String.ofList_toList, hParse]
    cases number <;> rfl
  have hKey :
      (Value.string (Value.ofNumber number).text).toKey =
        (Value.ofNumber number).toKey := by
    rw [Value.toKey, Value.text, Value.toKey]
  refine ⟨hParse, ?_, hIndex, fun owner fresh => ?_⟩
  · rw [Value.toNumber, hNonempty, hParse]
    cases number <;> rfl
  · unfold Value.access
    rw [hIndex, hKey]

/- The text of every word is as good as the word. -/
theorem readsBack_integer
    (n : Int64) :
    ReadsBack (.integer n) :=
  readsBack_of_spelled (spelled_textNumeral_integer n)
    (toNumber_textNumeral_integer n)

/- The text of every finite number is as good as the number. -/
theorem readsBack_float
    {x : Binary64}
    (hFinite : x.isFinite = true) :
    ReadsBack (.float x) := by
  have hWhole : (textNumeral (.float x)).isWhole = false :=
    Value.floatLayout.isWhole_numeral x rfl
  refine readsBack_of_spelled (spelled_textNumeral_float hFinite) ?_
  rw [hWhole]
  exact toNumber_textNumeral_float hFinite

end Number

------------------------------------------------------------
-- All Readings
------------------------------------------------------------

namespace Value

/-
  The numbers that strings spell, literals, and the texts of
  numbers on a page are read in one and the same way.
-/
theorem numbers_read_alike :
    (∀ s,
      ((parseNumber? s).isSome = true ↔
        ∃ n : Numeral, n.Spelled s.toList) ∧
      (∀ number,
        parseNumber? s = some number ↔
          ∃ n : Numeral, n.Spelled s.toList ∧
            StandsFor s n number) ∧
      ∀ c ∈ s.toList,
        Text.isNumeric c = true → c.isDigit = false →
          parseNumber? s = none) ∧
    (∀ source offset,
      ∀ spanned ∈ (Lexer.tokenize source offset).tokens,
        ∀ number, spanned.token.number? = some number →
          parseNumber? spanned.text = some number) ∧
    (∀ n, Number.ReadsBack (.integer n)) ∧
    ∀ x : Binary64, x.isFinite = true →
      Number.ReadsBack (.float x) := by
  refine ⟨fun s => ⟨isSome_parseNumber?_iff s, ?_, ?_⟩, ?_,
    Number.readsBack_integer, fun x => Number.readsBack_float⟩
  · exact fun number => parseNumber?_eq_some_iff
  · exact fun c hMem => parseNumber?_eq_none_of_isNumeric hMem
  · intro source offset spanned hMem number hNumber
    have hStands := Lexer.stands_of_mem_tokenize source offset
    exact Lexer.parseNumber?_of_stands (hStands spanned hMem) hNumber

/-
  The least word, an integer that is no word, a digit beyond
  ASCII, a literal with an exponent, and the texts of a word as
  an index and of a floating-point number as a key.
-/
theorem numbers_read_alike_limits :
    parseNumber? "-9223372036854775808" =
        some (.integer Int64.minValue) ∧
      parseNumber? "+9223372036854775808" =
        some (.float (Binary64.round false (2 ^ 63))) ∧
      parseNumber? "1\u0663" = none ∧
      parseNumber? "1.5E2" =
        some (.float (Binary64.ofDecimal false 15 1)) ∧
      (Value.string "-12").toIndex = .ok (-12) ∧
      ∀ (owner : Value) fresh,
        owner.access (.string "-1.5") fresh =
          owner.access (.float (Binary64.ofDecimal true 15 (-1)))
            fresh := by
  rcases numbers_read_alike with ⟨hStrings, hTokens, hWords, hFloats⟩
  let above : Numeral :=
    ⟨.plus, "9223372036854775808".toList, none, none⟩
  have hAbove : above.toRat = 2 ^ 63 := by decide +kernel
  refine ⟨?_, ?_, ?_, ?_, ?_, ?_⟩
  · refine ((hStrings _).2.1 _).2
      ⟨⟨.minus, "9223372036854775808".toList, none, none⟩, ?_, ?_⟩
    · exact Numeral.read?_eq_some_iff.1 (by decide +kernel)
    · exact ⟨by decide +kernel, by decide +kernel⟩
  · refine ((hStrings _).2.1 _).2 ⟨above, ?_, .inr ?_, ?_⟩
    · exact Numeral.read?_eq_some_iff.1 (by decide +kernel)
    · rintro ⟨w, hw⟩
      have hBound := w.toInt_lt
      rw [hAbove] at hw
      have hSame : w.toInt = 2 ^ 63 := by exact_mod_cast hw
      omega
    · rw [hAbove]
      rfl
  · exact (hStrings _).2.2 '\u0663' (by decide) (by decide) (by decide)
  · exact hTokens "x[1.5E2]".toList 0
      ⟨.float (Binary64.ofDecimal false 15 1), "1.5E2", 2⟩
      (by decide +kernel) _ rfl
  · exact (hWords (-12)).index
  · have hText :
        (Value.float (Binary64.ofDecimal true 15 (-1))).text =
          "-1.5" := by
      decide +kernel
    have hKey :=
      (hFloats (Binary64.ofDecimal true 15 (-1))
        (by decide +kernel)).key
    rw [Value.ofNumber, hText] at hKey
    exact hKey

end Value

end PageExpr
