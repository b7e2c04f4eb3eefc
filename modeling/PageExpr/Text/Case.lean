/-
  Comparing words without regard to the case of the ASCII
  letters.

  Main declarations:
    * `Text.lowerAscii`
    * `Text.sameIgnoringCase`
-/

namespace PageExpr

namespace Text

/-
  The word in lower case.  Only the letters A to Z have a
  lower case here.
-/
def lowerAscii
    (s : String) : List Char :=
  s.toList.map Char.toLower

/- Do two words differ at most in the case of ASCII letters? -/
def sameIgnoringCase
    (s t : String) : Bool :=
  lowerAscii s == lowerAscii t

/- A word is the same as itself. -/
theorem sameIgnoringCase_self
    (s : String) :
    sameIgnoringCase s s = true := by
  simp [sameIgnoringCase]

end Text

end PageExpr
