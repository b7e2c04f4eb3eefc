import PageExpr.Syntax.Parser

/-
  The grammar of expressions over tokens, in levels.

  Each level stands for one nonterminal, from the loosest to
  the tightest.  Binary operators are left-associative: their
  left operand may be of their own level, their right operand
  is of the next one.

  Main declarations:
    * `Grammar.Level`
    * `Grammar.Level.next`
    * `Grammar.levelOf`
    * `Grammar.Derives`
    * `Grammar.Derives.loosen`
    * `Grammar.strength_eq_rank`
-/

namespace PageExpr

namespace Grammar

------------------------------------------------------------
-- Levels
------------------------------------------------------------

/- The nonterminals, from the loosest to the tightest. -/
inductive Level where
  | conditional
  | disjunction
  | conjunction
  | equality
  | relation
  | sum
  | product
  | prefixed
  | access
  | primary
deriving DecidableEq

namespace Level

/- The level that binds one step tighter. -/
def next : Level → Level
  | .conditional => .disjunction
  | .disjunction => .conjunction
  | .conjunction => .equality
  | .equality => .relation
  | .relation => .sum
  | .sum => .product
  | .product => .prefixed
  | .prefixed => .access
  | .access => .primary
  | .primary => .primary

/- The place of a level in the order of binding. -/
def rank : Level → Nat
  | .conditional => 0
  | .disjunction => 1
  | .conjunction => 2
  | .equality => 3
  | .relation => 4
  | .sum => 5
  | .product => 6
  | .prefixed => 7
  | .access => 8
  | .primary => 9

/- The next level is one rank tighter. -/
theorem rank_next
    {level : Level}
    (h : level ≠ .primary) :
    level.next.rank = level.rank + 1 := by
  cases level <;> first | rfl | exact absurd rfl h

/- A level is known by its rank. -/
theorem eq_of_rank_eq
    {a b : Level}
    (h : a.rank = b.rank) :
    a = b := by
  cases a <;> cases b <;> first | rfl | cases h

end Level

/- The level of the phrases that a binary operator joins. -/
def levelOf : BinaryOp → Level
  | .logical .or => .disjunction
  | .logical .and => .conjunction
  | .equality _ => .equality
  | .ordering _ => .relation
  | .arithmetic .add => .sum
  | .arithmetic .subtract => .sum
  | .arithmetic .multiply => .product
  | .arithmetic .divide => .product
  | .arithmetic .modulo => .product

/- The token that writes an operator before its operand. -/
def prefixToken : UnaryOp → Token
  | .negate => .operator (.arithmetic .subtract)
  | .not => .not
  | .empty => .empty

/- The constant that a token writes, if it writes one. -/
def constant? : Token → Option Value
  | .float x => some (.float x)
  | .integer n => some (.integer n)
  | .string s => some (.string s)
  | .boolean b => some (.boolean b)
  | .null => some .null
  | _ => none

------------------------------------------------------------
-- Derivations
------------------------------------------------------------

/-
  The tokens derive the expression at the level.  A name is an
  implicit object exactly if one bears it, and a name behind a
  dot is always a string key.
-/
inductive Derives : Level → List Token → Expr → Prop where
  | conditional
      {cs ts es : List Token}
      {c t e : Expr}
      (hCondition : Derives .disjunction cs c)
      (hThen : Derives .conditional ts t)
      (hElse : Derives .conditional es e) :
      Derives .conditional
        (cs ++ .question :: (ts ++ .colon :: es))
        (.conditional c t e)
  | binary
      {level : Level}
      {ls rs : List Token}
      {l r : Expr}
      (op : BinaryOp)
      (hLevel : levelOf op = level)
      (hLeft : Derives level ls l)
      (hRight : Derives level.next rs r) :
      Derives level (ls ++ .operator op :: rs) (.binary op l r)
  | unary
      {ts : List Token}
      {e : Expr}
      (op : UnaryOp)
      (hOperand : Derives .prefixed ts e) :
      Derives .prefixed (prefixToken op :: ts) (.unary op e)
  | subscript
      {os ks : List Token}
      {o k : Expr}
      (hObject : Derives .access os o)
      (hKey : Derives .conditional ks k) :
      Derives .access
        (os ++ .leftBracket :: (ks ++ [.rightBracket]))
        (.access o k)
  | property
      {os : List Token}
      {o : Expr}
      {name : String}
      (hObject : Derives .access os o) :
      Derives .access (os ++ [.dot, .identifier name])
        (.access o (.literal (.string name)))
  | literal
      {token : Token}
      {value : Value}
      (hConstant : constant? token = some value) :
      Derives .primary [token] (.literal value)
  | implicit
      {object : ImplicitObject} :
      Derives .primary [.identifier object.name]
        (.implicit object)
  | var
      {name : String}
      (hName : ∀ object : ImplicitObject, object.name ≠ name) :
      Derives .primary [.identifier name] (.var name)
  | group
      {ts : List Token}
      {e : Expr}
      (hInner : Derives .conditional ts e) :
      Derives .primary (.leftParen :: (ts ++ [.rightParen])) e
  | tighter
      {level : Level}
      {ts : List Token}
      {e : Expr}
      (hLevel : level ≠ .primary)
      (hNext : Derives level.next ts e) :
      Derives level ts e

namespace Derives

/- What a tight level derives, every looser one derives too. -/
theorem loosen
    {tight : Level}
    {ts : List Token}
    {e : Expr}
    (loose : Level)
    (h : Derives tight ts e)
    (hRank : loose.rank ≤ tight.rank) :
    Derives loose ts e := by
  rcases Nat.exists_eq_add_of_le hRank with ⟨n, hn⟩
  induction n generalizing loose with
  | zero =>
      have hEq : tight = loose := Level.eq_of_rank_eq hn
      exact hEq ▸ h
  | succ n ih =>
      have hLoose : loose ≠ .primary := by
        rintro rfl
        cases tight <;> simp [Level.rank] at hn
        all_goals omega
      have hNext := Level.rank_next hLoose
      exact .tighter hLoose (ih _ (by omega) (by omega))

end Derives

------------------------------------------------------------
-- Strengths
------------------------------------------------------------

/- The parser's strengths are the ranks of the levels. -/
theorem strength_eq_rank
    (op : BinaryOp) :
    op.strength = (levelOf op).rank := by
  rcases op with op | op | op | op <;> cases op <;> rfl

/- Binary operators live between disjunctions and products. -/
theorem rank_levelOf
    (op : BinaryOp) :
    1 ≤ (levelOf op).rank ∧ (levelOf op).rank ≤ 6 := by
  rcases op with op | op | op | op <;> cases op <;> decide

/- The right operand of an operator is one rank tighter. -/
theorem rank_next_levelOf
    (op : BinaryOp) :
    (levelOf op).next.rank = (levelOf op).rank + 1 := by
  apply Level.rank_next
  intro h
  have hRank := (rank_levelOf op).2
  rw [h] at hRank
  exact absurd hRank (by decide)

end Grammar

end PageExpr
