import PageExpr.Proofs.Json.RoundTrip
import PageExpr.Proofs.Number.Reading

/-
  The compact texts of documents.

  The rules below say which text a document has: words, numbers
  in decimal notation, strings between quotes, and items and
  members with commas between them.  The text that is written for
  a document is one that it has by these rules, and the only one
  if all numbers are integers.

  Main declarations:
    * `Json.Escaped`, `Json.Quoted`
    * `Json.Decimal`
    * `Json.Written`
    * `Json.quoted_quoted`
    * `Json.decimal_numeral`
    * `Json.written_compact`
    * `Json.Integral`, `Json.Written.eq_compact`
-/

namespace PageExpr

/- Is the number an integer? -/
def JsonNumber.isWhole : JsonNumber → Bool
  | .whole .. => true
  | .float .. => false

namespace Json

------------------------------------------------------------
-- Rules
------------------------------------------------------------

/- Characters that have a letter behind a backslash. -/
def letters : List (Char × Char) :=
  [('"', '"'), ('\\', '\\'), ('\x08', 'b'), ('\t', 't'),
    ('\n', 'n'), ('\x0c', 'f'), ('\r', 'r')]

/-
  How a character stands between quotes: as it is, by its letter,
  or by its code if it is another control character.
-/
inductive Escaped : Char → List Char → Prop where
  | plain
      {c : Char}
      (hControl : 0x20 ≤ c.toNat)
      (hLetter : ∀ letter, (c, letter) ∉ letters) :
      Escaped c [c]
  | letter
      {c letter : Char}
      (hLetter : (c, letter) ∈ letters) :
      Escaped c ['\\', letter]
  | code
      {c high low : Char}
      (hControl : c.toNat < 0x20)
      (hLetter : ∀ letter, (c, letter) ∉ letters)
      (hHigh :
        "0123456789abcdef".toList[c.toNat / 16]? = some high)
      (hLow :
        "0123456789abcdef".toList[c.toNat % 16]? = some low) :
      Escaped c ['\\', 'u', '0', '0', high, low]

/- A string between quotes. -/
def Quoted
    (s text : String) : Prop :=
  ∃ parts : List (List Char),
    List.Forall₂ Escaped s.toList parts ∧
      text.toList = '"' :: parts.flatten ++ ['"']

/-
  A number in decimal notation.  There is a point or an exponent,
  and an exponent only for numbers that are small or large; then
  it has a sign, and a single digit is before the point.
-/
structure Decimal
    (x : Binary64)
    (n : Numeral) : Prop where
  readable : n.Readable
  sign : n.sign = if x.isNegative then .minus else .absent
  whole : n.whole ≠ []
  notWhole : n.isWhole = false
  value : Binary64.round x.isNegative n.toRat = x
  positional :
    n.exponent = none ↔
      n.toRat = 0 ∨
        (10 : Rat) ^ (-5 : Int) ≤ |n.toRat| ∧ |n.toRat| < 10 ^ 16
  exponent : ∀ e ∈ n.exponent, e.1 ≠ .absent ∧ n.whole.length = 1

/- The text of a document. -/
inductive Written : Json → String → Prop where
  | null : Written .null "null"
  | yes : Written (.boolean true) "true"
  | no : Written (.boolean false) "false"
  | whole
      {n : Int} {fits : JsonNumber.Fits n} :
      Written (.number (.whole n fits)) (toString n)
  | float
      {x : Binary64} {finite : x.isFinite = true}
      {n : Numeral} {text : String}
      (hDecimal : Decimal x n)
      (hText : text.toList = n.sign.text ++ n.written 'e') :
      Written (.number (.float x finite)) text
  | string
      {s text : String}
      (hQuoted : Quoted s text) :
      Written (.string s) text
  | array
      {items : List Json} {texts : List String}
      (hItems : List.Forall₂ Written items texts) :
      Written (.array items) ("[" ++ ",".intercalate texts ++ "]")
  | object
      {members : List (String × Json)}
      {names values : List String}
      (hNames : List.Forall₂ Quoted (members.map Prod.fst) names)
      (hValues :
        List.Forall₂ Written (members.map Prod.snd) values) :
      Written (.object members)
        ("\x7b" ++
          ",".intercalate
            (List.zipWith (fun name value => name ++ ":" ++ value)
              names values) ++
          "\x7d")

------------------------------------------------------------
-- Strings
------------------------------------------------------------

/- What is related to one thing only is its image. -/
theorem map_eq_of_forall₂
    {α β : Type}
    {related : α → β → Prop}
    {f : α → β}
    {xs : List α}
    {ys : List β}
    (h : List.Forall₂ related xs ys)
    (hImage : ∀ x ∈ xs, ∀ y, related x y → f x = y) :
    xs.map f = ys := by
  induction h with
  | nil => rfl
  | cons hFirst hRest ih =>
      rw [List.forall_mem_cons] at hImage
      rw [List.map_cons, hImage.1 _ hFirst, ih hImage.2]

/- The code of a control character has two digits of its own. -/
theorem codeEscape_spec :
    ∀ n < 0x20,
      codeEscape (Char.ofNat n) =
          ['\\', 'u', '0', '0', Nat.digitChar (n / 16),
            Nat.digitChar (n % 16)] ∧
        "0123456789abcdef".toList[n / 16]? =
          some (Nat.digitChar (n / 16)) ∧
        "0123456789abcdef".toList[n % 16]? =
          some (Nat.digitChar (n % 16)) := by
  decide

/- A character with a letter has its letter behind a backslash. -/
theorem escape_of_letter :
    ∀ entry ∈ letters, escape entry.1 = ['\\', entry.2] := by
  decide

/- Others are written by their codes, or as they are. -/
theorem escape_of_no_letter
    {c : Char}
    (hLetter : ∀ letter, (c, letter) ∉ letters) :
    escape c = if c.toNat < 0x20 then codeEscape c else [c] := by
  have hOther : ∀ entry ∈ letters, c ≠ entry.1 := by
    rintro ⟨_, letter⟩ hEntry rfl
    exact hLetter letter hEntry
  simp only [letters, List.forall_mem_cons] at hOther
  simp only [escape, hOther, if_false]

/- A character is escaped by the rules. -/
theorem escaped_escape
    (c : Char) :
    Escaped c (escape c) := by
  by_cases hLetter : ∃ letter, (c, letter) ∈ letters
  · rcases hLetter with ⟨letter, hLetter⟩
    rw [escape_of_letter _ hLetter]
    exact .letter hLetter
  · rw [not_exists] at hLetter
    rw [escape_of_no_letter hLetter]
    split
    · rename_i hControl
      rcases codeEscape_spec c.toNat hControl with
        ⟨hCode, hHigh, hLow⟩
      rw [Char.ofNat_toNat] at hCode
      rw [hCode]
      exact .code hControl hLetter hHigh hLow
    · rename_i hControl
      exact .plain (Nat.le_of_not_lt hControl) hLetter

/- The rules leave no choice. -/
theorem Escaped.eq_escape
    {c : Char}
    {cs : List Char}
    (h : Escaped c cs) :
    escape c = cs := by
  cases h with
  | plain hControl hLetter =>
      rw [escape_of_no_letter hLetter,
        if_neg (Nat.not_lt_of_le hControl)]
  | letter hLetter => exact escape_of_letter _ hLetter
  | code hControl hLetter hHigh hLow =>
      rcases codeEscape_spec c.toNat hControl with
        ⟨hCode, hFirst, hSecond⟩
      rw [Char.ofNat_toNat] at hCode
      rw [escape_of_no_letter hLetter, if_pos hControl, hCode,
        Option.some.inj (hFirst.symm.trans hHigh),
        Option.some.inj (hSecond.symm.trans hLow)]

/- Between quotes the characters are escaped one by one. -/
theorem toList_quoted
    (s : String) :
    (quoted s).toList =
      '"' :: (s.toList.map escape).flatten ++ ['"'] := by
  simp only [quoted, String.toList_append, String.toList_ofList,
    List.flatMap_def]
  rfl

/- A string is quoted by the rules. -/
theorem quoted_quoted
    (s : String) :
    Quoted s (quoted s) := by
  refine ⟨s.toList.map escape, ?_, toList_quoted s⟩
  rw [List.forall₂_map_right_iff]
  exact List.forall₂_same.2 fun c _ => escaped_escape c

/- And in no other way. -/
theorem Quoted.eq_quoted
    {s text : String}
    (h : Quoted s text) :
    quoted s = text := by
  rcases h with ⟨parts, hParts, hText⟩
  have hEscape :=
    map_eq_of_forall₂ hParts fun _ _ _ => Escaped.eq_escape
  rw [← String.toList_inj, hText, toList_quoted, hEscape]

------------------------------------------------------------
-- Numbers
------------------------------------------------------------

/- The first digit of a number stands at its place. -/
theorem place_bounds
    {d : Digits}
    (h : d.units ≠ 0) :
    (10 : Rat) ^ d.place ≤ d.toRat ∧
      d.toRat < (10 : Rat) ^ (d.place + 1) := by
  have hTen : (10 : Rat) ≠ 0 := by norm_num
  have hUnit : (0 : Rat) < (10 : Rat) ^ d.exponent := by positivity
  obtain ⟨k, hCount⟩ : ∃ k, Digits.count d.units = k + 1 :=
    Nat.exists_eq_succ_of_ne_zero
      (Nat.ne_of_gt Nat.length_toDigits_pos)
  have hUpper : d.units < 10 ^ (k + 1) :=
    (Nat.length_toDigits_le_iff (by decide) (Nat.succ_pos k)).1
      (Nat.le_of_eq hCount)
  have hLower : 10 ^ k ≤ d.units := by
    cases k with
    | zero => exact Nat.one_le_iff_ne_zero.2 h
    | succ k =>
        rw [← Nat.not_lt,
          ← Nat.length_toDigits_le_iff (by decide) (Nat.succ_pos k)]
        intro hShort
        rw [← Digits.count, hCount] at hShort
        exact Nat.not_succ_le_self _ hShort
  have hPlace : d.place = k + d.exponent := by
    rw [Digits.place, hCount]
    push_cast
    ring
  have hNext : d.place + 1 = ((k + 1 : Nat) : Int) + d.exponent := by
    rw [hPlace]
    push_cast
    ring
  rw [hNext, hPlace, Digits.toRat, zpow_add₀ hTen, zpow_add₀ hTen,
    zpow_natCast, zpow_natCast]
  constructor
  · exact mul_le_mul_of_nonneg_right (by exact_mod_cast hLower)
      hUnit.le
  · exact mul_lt_mul_of_pos_right (by exact_mod_cast hUpper) hUnit

/- Only zero has no digits. -/
theorem shortest_of_units_eq_zero
    {x : Binary64}
    {halfUp : Bool}
    (h : (x.shortest halfUp).units = 0) :
    x.shortest halfUp = ⟨0, 0⟩ := by
  cases x with
  | nan => rfl
  | infinity negative => rfl
  | finite negative significand exponent canonical =>
      by_cases hZero : significand = 0
      · simp [Binary64.shortest, hZero]
      · have hRound := Binary64.round_shortest negative halfUp
          canonical hZero
        rw [Digits.toRat, h, Nat.cast_zero, zero_mul,
          Binary64.round, if_pos rfl] at hRound
        cases hRound
        exact absurd rfl hZero

/- The value of a numeral is that of its digits and its sign. -/
theorem abs_toRat_numeral
    (style : Layout)
    (x : Binary64)
    (sign : Sign) :
    |Numeral.toRat { style.numeral x with sign := sign }| =
      (x.shortest style.halfUp).toRat := by
  have hNonneg : 0 ≤ (x.shortest style.halfUp).toRat := by
    unfold Digits.toRat
    positivity
  have hValue :
      Numeral.toRat { style.numeral x with sign := sign } =
        if sign.isMinus then -(x.shortest style.halfUp).toRat
        else (x.shortest style.halfUp).toRat := by
    rw [← style.value_numeral x]
    rfl
  rw [hValue]
  split
  · rw [abs_neg, abs_of_nonneg hNonneg]
  · exact abs_of_nonneg hNonneg

/- The place of the first digit decides on an exponent. -/
theorem exponent_numeral_eq_none_iff
    (style : Layout)
    (x : Binary64) :
    (style.numeral x).exponent = none ↔
      style.isPositional (x.shortest style.halfUp).place = true := by
  unfold Layout.numeral
  simp only
  split
  · rename_i hPositional
    refine iff_of_true ?_ hPositional
    unfold Layout.positionalNumeral
    simp only
    split
    · rfl
    · split <;> rfl
  · rename_i hScientific
    exact iff_of_false nofun hScientific

/- Few digits in front of the point, or behind it, are written. -/
theorem isPositional_shortest_iff
    (x : Binary64) :
    floatLayout.isPositional (x.shortest floatLayout.halfUp).place =
        true ↔
      (x.shortest floatLayout.halfUp).toRat = 0 ∨
        (10 : Rat) ^ (-5 : Int) ≤
            (x.shortest floatLayout.halfUp).toRat ∧
          (x.shortest floatLayout.halfUp).toRat < 10 ^ 16 := by
  by_cases hUnits : (x.shortest floatLayout.halfUp).units = 0
  · rw [shortest_of_units_eq_zero hUnits]
    exact iff_of_true rfl (.inl (by simp [Digits.toRat]))
  · rcases place_bounds hUnits with ⟨hLower, hUpper⟩
    generalize (x.shortest floatLayout.halfUp).place = place at *
    generalize (x.shortest floatLayout.halfUp).toRat = q at *
    have hPositive : 0 < q :=
      lt_of_lt_of_le (by positivity) hLower
    have hSmall : -5 ≤ place ↔ (10 : Rat) ^ (-5 : Int) ≤ q := by
      constructor
      · exact fun h => (zpow_le_zpow_right₀ (by norm_num) h).trans
          hLower
      · intro h
        have hNext := (zpow_lt_zpow_iff_right₀ (by norm_num)).1
          (h.trans_lt hUpper)
        omega
    have hLarge : place < 16 ↔ q < (10 : Rat) ^ (16 : Int) := by
      constructor
      · exact fun h => hUpper.trans_le
          (zpow_le_zpow_right₀ (by norm_num) h)
      · exact fun h => (zpow_lt_zpow_iff_right₀ (by norm_num)).1
          (hLower.trans_lt h)
    rw [or_iff_right hPositive.ne', ← hSmall]
    simp only [floatLayout, Bool.and_eq_true, decide_eq_true_eq]
    exact and_congr_right' hLarge

/- A floating-point number is written in decimal notation. -/
theorem decimal_numeral
    {x : Binary64}
    (hFinite : x.isFinite = true) :
    Decimal x
      { floatLayout.numeral x with
        sign := if x.isNegative then .minus else .absent } := by
  have hReadable :=
    (floatLayout.proper_numeral x).readable
      (by simp [floatLayout.whole_numeral_ne_nil x])
  have hSign :
      (if x.isNegative then Sign.minus else Sign.absent).isMinus =
        x.isNegative := by
    cases x.isNegative <;> rfl
  have hAbs := abs_toRat_numeral floatLayout x
    (if x.isNegative then .minus else .absent)
  constructor
  case readable => exact hReadable.withSign _
  case sign => rfl
  case whole => exact floatLayout.whole_numeral_ne_nil x
  case notWhole => exact floatLayout.isWhole_numeral x rfl
  case value =>
    have hRound := Numeral.toBinary64_eq_round
      { floatLayout.numeral x with
        sign := if x.isNegative then .minus else .absent }
    simp only [hSign] at hRound
    rw [← hRound, Numeral.toBinary64]
    simp only [hSign]
    exact floatLayout.ofDecimal_numeral hFinite
  case positional =>
    rw [← abs_eq_zero, hAbs, ← isPositional_shortest_iff]
    exact exponent_numeral_eq_none_iff floatLayout x
  case exponent =>
    intro e hExponent
    have hScientific :
        floatLayout.numeral x =
          floatLayout.scientificNumeral
            (x.shortest floatLayout.halfUp) := by
      refine if_neg fun hPositional => ?_
      rw [← exponent_numeral_eq_none_iff] at hPositional
      simp [hPositional] at hExponent
    simp only [hScientific] at hExponent ⊢
    cases hExponent
    refine ⟨?_, ?_⟩
    · simp only [Layout.exponentSign, floatLayout, if_true]
      split <;> decide
    · exact List.length_take_of_le Nat.length_toDigits_pos

------------------------------------------------------------
-- Documents
------------------------------------------------------------

/- The texts of items have commas between them. -/
theorem compactItems_eq
    (items : List Json) :
    compactItems items = ",".intercalate (items.map compact) := by
  induction items with
  | nil => rfl
  | cons item rest ih =>
      cases rest with
      | nil => rfl
      | cons next rest =>
          rw [compactItems, ih]
          · exact String.intercalate_cons_cons.symm
          · exact nofun

/- The texts of members do as well. -/
theorem compactMembers_eq
    (members : List (String × Json)) :
    compactMembers members =
      ",".intercalate
        (List.zipWith (fun name value => name ++ ":" ++ value)
          (members.map fun member => quoted member.1)
          (members.map fun member => compact member.2)) := by
  induction members with
  | nil => rfl
  | cons member rest ih =>
      obtain ⟨name, value⟩ := member
      cases rest with
      | nil => rfl
      | cons next rest =>
          rw [compactMembers, ih]
          · exact String.intercalate_cons_cons.symm
          · exact nofun

/- The text of a number is in decimal notation. -/
theorem written_number
    (n : JsonNumber) :
    Written (.number n) (numberText n) := by
  cases n with
  | whole n fits => exact .whole
  | float x finite =>
      refine .float (decimal_numeral finite) ?_
      rw [numberText, Layout.toList_text]
      cases x.isNegative <;> rfl

/- The text that is written for a document is its text. -/
theorem written_compact
    (document : Json) :
    Written document document.compact := by
  induction document with
  | null =>
      rw [compact]
      exact .null
  | boolean b =>
      rw [compact]
      cases b
      · exact .no
      · exact .yes
  | number n =>
      rw [compact]
      exact written_number n
  | string s =>
      rw [compact]
      exact .string (quoted_quoted s)
  | array items ih =>
      rw [compact, compactItems_eq]
      refine .array ?_
      rw [List.forall₂_map_right_iff]
      exact List.forall₂_same.2 ih
  | object members ih =>
      rw [compact, compactMembers_eq]
      refine .object ?_ ?_
      · rw [List.forall₂_map_left_iff, List.forall₂_map_right_iff]
        exact List.forall₂_same.2 fun member _ =>
          quoted_quoted member.1
      · rw [List.forall₂_map_left_iff, List.forall₂_map_right_iff]
        exact List.forall₂_same.2 fun member hMember =>
          ih member.1 member.2 hMember

------------------------------------------------------------
-- No Other Text
------------------------------------------------------------

/- Are all numbers of the document integers? -/
def Integral
    (document : Json) : Prop :=
  ∀ n, document.HasNumber n → n.isWhole = true

/- Then those of an item are. -/
theorem Integral.item
    {item : Json}
    {items : List Json}
    (h : Integral (.array items))
    (hItem : item ∈ items) :
    item.Integral :=
  fun n hNumber => h n (.item hItem hNumber)

/- And those of a member are. -/
theorem Integral.member
    {member : String × Json}
    {members : List (String × Json)}
    (h : Integral (.object members))
    (hMember : member ∈ members) :
    member.2.Integral :=
  fun n hNumber => h n (.member hMember hNumber)

/- If all numbers are integers, a document has no other text. -/
theorem Written.eq_compact
    {document : Json}
    {text : String}
    (hIntegral : document.Integral)
    (h : Written document text) :
    document.compact = text := by
  induction document generalizing text with
  | null =>
      cases h
      rw [compact]
  | boolean b =>
      cases h <;> rfl
  | number n =>
      cases h with
      | whole => rw [compact, numberText]
      | float hDecimal hText => cases hIntegral _ .number
  | string s =>
      cases h with
      | string hQuoted => rw [compact, hQuoted.eq_quoted]
  | array items ih =>
      cases h with
      | array hItems =>
          have hTexts :=
            map_eq_of_forall₂ hItems fun item hItem text h =>
              ih item hItem (hIntegral.item hItem) h
          rw [compact, compactItems_eq, hTexts]
  | object members ih =>
      cases h with
      | object hNames hValues =>
          rw [List.forall₂_map_left_iff] at hNames hValues
          have hQuoted :=
            map_eq_of_forall₂ hNames fun _ _ _ => Quoted.eq_quoted
          have hTexts :=
            map_eq_of_forall₂ hValues fun member hMember text h =>
              ih member.1 member.2 hMember
                (hIntegral.member hMember) h
          rw [compact, compactMembers_eq, hQuoted, hTexts]

end Json

end PageExpr
