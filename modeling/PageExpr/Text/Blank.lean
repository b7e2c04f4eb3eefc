import PageExpr.Text.CodeRange

/-
  White space, by the White_Space property of Unicode, and
  trimming.

  Main declarations:
    * `Text.blankRanges`
    * `Text.isBlank`
    * `Text.trim`
    * `Text.isBlank_of_isWhitespace`
-/

namespace PageExpr

namespace Text

/- The code points with the White_Space property. -/
def blankRanges : List CodeRange :=
  [(0x9, 0xd), (0x20, 0x20), (0x85, 0x85), (0xa0, 0xa0),
    (0x1680, 0x1680), (0x2000, 0x200a), (0x2028, 0x2029),
    (0x202f, 0x202f), (0x205f, 0x205f), (0x3000, 0x3000)]

/- Is the character white space? -/
def isBlank
    (c : Char) : Bool :=
  inRanges blankRanges c

/- Drop the white space at both ends. -/
def trim
    (cs : List Char) : List Char :=
  ((cs.dropWhile isBlank).reverse.dropWhile isBlank).reverse

/- Whatever core calls white space is white space. -/
theorem isBlank_of_isWhitespace
    {c : Char}
    (h : c.isWhitespace = true) :
    isBlank c = true := by
  simp only [Char.isWhitespace, Bool.or_eq_true,
    decide_eq_true_eq] at h
  rcases h with (((h | h) | h) | h) <;> subst h <;> decide

end Text

end PageExpr
