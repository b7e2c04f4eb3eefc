import PageExpr.Syntax.Token
import PageExpr.Text.Blank
import PageExpr.Text.Name

/-
  The characters of names beside blanks, digits and signs, and
  the names beside the keywords.

  Main declarations:
    * `Text.inRanges_eq_false_of_disjoint`
    * `Text.isBlank_of_isNameStart`
    * `Text.isDigit_of_isNameStart`
    * `Text.isBlank_of_isNamePart`
    * `Text.IsIdentifier`
    * `Token.lookup_keywords_eq_none_iff`
    * `Token.forall_ofWord`
-/

namespace PageExpr

namespace Text

------------------------------------------------------------
-- Tables
------------------------------------------------------------

/- No range of one table meets a range of the other. -/
def Disjoint
    (table others : List CodeRange) : Prop :=
  ∀ r ∈ table, ∀ s ∈ others, r.2 < s.1 ∨ s.2 < r.1

instance
    (table others : List CodeRange) :
    Decidable (Disjoint table others) := by
  unfold Disjoint
  infer_instance

/- A character of one table is in no table disjoint from it. -/
theorem inRanges_eq_false_of_disjoint
    {table others : List CodeRange}
    {c : Char}
    (hDisjoint : Disjoint table others)
    (h : inRanges table c = true) :
    inRanges others c = false := by
  rw [inRanges, List.any_eq_true] at h
  rcases h with ⟨r, hr, hIn⟩
  rw [inRanges, List.any_eq_false]
  intro s hs hOther
  have hApart := hDisjoint r hr s hs
  simp only [Bool.and_eq_true, decide_eq_true_eq] at hIn hOther
  omega

/- No letter is a blank. -/
theorem disjoint_alphabetic_blank :
    Disjoint alphabeticRanges blankRanges := by
  decide +kernel

/- No number character beyond ASCII is a blank. -/
theorem disjoint_numeric_blank :
    Disjoint numericRanges blankRanges := by
  decide +kernel

/- No ASCII letter or underscore is a blank. -/
theorem disjoint_ascii_blank :
    Disjoint [(65, 90), (95, 95), (97, 122)] blankRanges := by
  decide

------------------------------------------------------------
-- Starts of Names
------------------------------------------------------------

/- A letter of ASCII is in one of two ranges. -/
theorem toNat_of_isAlpha
    {c : Char}
    (h : c.isAlpha = true) :
    (65 ≤ c.toNat ∧ c.toNat ≤ 90) ∨
      (97 ≤ c.toNat ∧ c.toNat ≤ 122) := by
  have hCase : c.isUpper = true ∨ c.isLower = true :=
    Bool.or_eq_true_iff.1 h
  rcases hCase with hUpper | hLower
  · left
    exact of_decide_eq_true hUpper
  · right
    rcases Bool.and_eq_true_iff.1 hLower with ⟨hLeast, hMost⟩
    exact ⟨of_decide_eq_true hLeast, of_decide_eq_true hMost⟩

/-
  A character that starts a name is an ASCII letter, an
  underscore, or a letter beyond ASCII.
-/
theorem inRanges_of_isNameStart
    {c : Char}
    (h : isNameStart c = true) :
    inRanges [(65, 90), (95, 95), (97, 122)] c = true ∨
      (0x80 ≤ c.toNat ∧ inRanges alphabeticRanges c = true) := by
  simp only [isNameStart, isAlphabetic, Bool.or_eq_true,
    Bool.and_eq_true, decide_eq_true_eq, beq_iff_eq] at h
  rcases h with (hAscii | hLetter) | rfl
  · left
    rcases toNat_of_isAlpha hAscii with hUpper | hLower
    · simp [inRanges, hUpper]
    · simp [inRanges, hLower]
  · exact Or.inr hLetter
  · exact Or.inl (by decide)

/- A blank starts no name. -/
theorem isBlank_of_isNameStart
    {c : Char}
    (h : isNameStart c = true) :
    isBlank c = false := by
  rcases inRanges_of_isNameStart h with h | ⟨-, h⟩
  · exact inRanges_eq_false_of_disjoint disjoint_ascii_blank h
  · exact inRanges_eq_false_of_disjoint disjoint_alphabetic_blank h

/- A digit starts no name. -/
theorem isDigit_of_isNameStart
    {c : Char}
    (h : isNameStart c = true) :
    c.isDigit = false := by
  rw [Bool.eq_false_iff]
  intro hDigit
  simp only [Char.isDigit, Bool.and_eq_true,
    decide_eq_true_eq] at hDigit
  have hLower : 48 ≤ c.toNat := hDigit.1
  have hUpper : c.toNat ≤ 57 := hDigit.2
  rcases inRanges_of_isNameStart h with h | ⟨h, -⟩
  · simp only [inRanges, List.any_cons, List.any_nil, Bool.or_false,
      Bool.or_eq_true, Bool.and_eq_true, decide_eq_true_eq] at h
    omega
  · omega

/- A digit is no blank. -/
theorem isBlank_of_isDigit
    {c : Char}
    (h : c.isDigit = true) :
    isBlank c = false := by
  have hRange : inRanges [(48, 57)] c = true := by
    simp only [Char.isDigit, Bool.and_eq_true,
      decide_eq_true_eq] at h
    have hLower : 48 ≤ c.toNat := h.1
    have hUpper : c.toNat ≤ 57 := h.2
    simp [inRanges, hLower, hUpper]
  exact inRanges_eq_false_of_disjoint (by decide) hRange

/- No part of a name is a blank. -/
theorem isBlank_of_isNamePart
    {c : Char}
    (h : isNamePart c = true) :
    isBlank c = false := by
  simp only [isNamePart, isAlphanumeric, isNumeric,
    Bool.or_eq_true, Bool.and_eq_true, beq_iff_eq] at h
  rcases h with (hLetter | hDigit | ⟨-, hRange⟩) | rfl
  · exact isBlank_of_isNameStart (by simp [isNameStart, hLetter])
  · exact isBlank_of_isDigit hDigit
  · exact inRanges_eq_false_of_disjoint disjoint_numeric_blank
      hRange
  · decide

/- A character that starts no name differs from one that does. -/
theorem ne_of_isNameStart
    {c d : Char}
    (h : isNameStart c = true)
    (hOther : isNameStart d = false) :
    c ≠ d := by
  rintro rfl
  rw [h] at hOther
  cases hOther

------------------------------------------------------------
-- Identifiers
------------------------------------------------------------

/- A start of a name and then only parts of a name. -/
def IsIdentifier
    (name : String) : Prop :=
  ∃ c cs, name.toList = c :: cs ∧ isNameStart c = true ∧
    ∀ d ∈ cs, isNamePart d = true

/- The first character is looked at, and then the others. -/
theorem isIdentifier_iff
    {name : String}
    {c : Char}
    {cs : List Char}
    (hChars : name.toList = c :: cs) :
    IsIdentifier name ↔
      (isNameStart c && cs.all isNamePart) = true := by
  rw [Bool.and_eq_true, List.all_eq_true]
  constructor
  · rintro ⟨d, ds, hEq, h⟩
    rw [hChars] at hEq
    cases hEq
    exact h
  · intro h
    exact ⟨c, cs, hChars, h⟩

instance
    (name : String) :
    Decidable (IsIdentifier name) :=
  match hChars : name.toList with
  | [] => isFalse (by simp [IsIdentifier, hChars])
  | _ :: _ => decidable_of_iff' _ (isIdentifier_iff hChars)

end Text

namespace Token

/- The words without an entry in the table are no keywords. -/
theorem lookup_keywords_eq_none_iff
    {word : String} :
    keywords.lookup word = none ↔ isKeyword word = false := by
  rw [List.lookup_eq_none_iff, isKeyword, List.any_eq_false]
  apply forall₂_congr
  intro entry _
  rw [bne_iff_ne, beq_iff_eq, ne_comm]

/- What holds of keywords and identifiers holds of words. -/
theorem forall_ofWord
    (p : Token → Prop)
    {word : String}
    (hKeyword : ∀ entry ∈ keywords, p entry.2)
    (hIdentifier : isKeyword word = false → p (.identifier word)) :
    p (ofWord word) := by
  unfold ofWord
  cases hLookup : keywords.lookup word with
  | none => exact hIdentifier (lookup_keywords_eq_none_iff.1 hLookup)
  | some token =>
      rcases List.lookup_eq_some_iff.1 hLookup with
        ⟨before, after, hSplit, -⟩
      exact hKeyword (word, token) (by simp [hSplit])

end Token

end PageExpr
