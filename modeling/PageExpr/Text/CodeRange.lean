/-
  Sets of characters given as closed ranges of code points.

  Main declarations:
    * `Text.CodeRange`
    * `Text.inRanges`
-/

namespace PageExpr

namespace Text

/- The first and the last code point of a closed range. -/
abbrev CodeRange :=
  Nat × Nat

/- Does the character lie in one of the ranges? -/
def inRanges
    (table : List CodeRange)
    (c : Char) : Bool :=
  table.any fun (first, last) =>
    first ≤ c.toNat && c.toNat ≤ last

end Text

end PageExpr
