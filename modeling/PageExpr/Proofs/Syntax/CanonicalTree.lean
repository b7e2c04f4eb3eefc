import PageExpr.Proofs.Number.Rounding
import PageExpr.Proofs.Syntax.Branching
import PageExpr.Proofs.Syntax.GrammarAgreement

/-
  The expressions that can come out of the parser.

  Tokens carry numbers without a sign and names that are no
  keywords, so the expressions that they derive do.

  Main declarations:
    * `Value.IsConstant`
    * `Expr.Canonical`
    * `Token.Proper`
    * `Lexer.proper_of_scan`
    * `Lexer.proper_of_mem_tokenize`
    * `Grammar.canonical_of_derives`
    * `Expr.canonical_of_parse`
-/

namespace PageExpr

------------------------------------------------------------
-- Canonical Expressions
------------------------------------------------------------

/-
  The constants that can be written: null, truth values,
  strings, and numbers without a sign.
-/
def Value.IsConstant : Value → Prop
  | .null => True
  | .boolean _ => True
  | .string _ => True
  | .integer n => 0 ≤ n.toInt
  | .float x => x.isFinite = true ∧ x.isNegative = false
  | _ => False

/-
  All constants can be written, and all variables have names
  that are neither keywords nor names of implicit objects.
-/
def Expr.Canonical : Expr → Prop
  | .literal value => value.IsConstant
  | .implicit _ => True
  | .var name =>
      Text.IsIdentifier name ∧ Token.isKeyword name = false ∧
        ∀ object : ImplicitObject, object.name ≠ name
  | .access object key => object.Canonical ∧ key.Canonical
  | .binary _ left right => left.Canonical ∧ right.Canonical
  | .unary _ operand => operand.Canonical
  | .conditional condition thenBranch elseBranch =>
      condition.Canonical ∧ thenBranch.Canonical ∧
        elseBranch.Canonical

------------------------------------------------------------
-- Tokens
------------------------------------------------------------

namespace Token

/- A token that can be found in a text. -/
def Proper : Token → Prop
  | .float x => x.isFinite = true ∧ x.isNegative = false
  | .integer n => 0 ≤ n.toInt
  | .identifier name =>
      Text.IsIdentifier name ∧ isKeyword name = false
  | _ => True

/- A word is a keyword, or its token is an identifier. -/
theorem proper_ofWord
    {word : String}
    (h : Text.IsIdentifier word) :
    (ofWord word).Proper :=
  forall_ofWord Proper (by simp [keywords, Proper])
    fun hName => ⟨h, hName⟩

/- A constant that is read from a proper token can be written. -/
theorem Proper.isConstant
    {token : Token}
    {value : Value}
    (hProper : token.Proper)
    (h : Grammar.constant? token = some value) :
    value.IsConstant := by
  cases token <;> cases h <;> trivial

end Token

namespace Lexer

/- The number at the start of a text has no sign. -/
theorem proper_of_scanNumber
    {cs : List Char}
    {token : Token}
    {length : Nat}
    (h : scanNumber cs = .ok (token, length)) :
    token.Proper := by
  unfold scanNumber at h
  simp only at h
  split at h
  · split at h
    · rename_i n hFits
      cases h
      rw [Integer.ofInt?_eq_some_iff] at hFits
      simp only [Token.Proper, hFits, Numeral.toInt, Numeral.scan,
        Sign.isMinus]
      exact Int.natCast_nonneg _
    · cases h
  · split at h
    · cases h
    · rename_i x hInfinite
      cases h
      rcases
          Binary64.ofDecimal_sign
            (Numeral.scan .absent cs).sign.isMinus
            (Numeral.scan .absent cs).mantissa
            (Numeral.scan .absent cs).lastPlace with
        ⟨hNan, hSign⟩
      refine ⟨?_, hSign⟩
      cases hx : (Numeral.scan .absent cs).toBinary64 with
      | nan =>
          rw [Numeral.toBinary64] at hx
          rw [hx] at hNan
          cases hNan
      | infinity negative => exact absurd hx (hInfinite negative)
      | finite => rfl

/- Either token of a pair may be found. -/
theorem eq_of_scanPair
    {second : Char}
    {long short token : Token}
    {cs : List Char}
    {length : Nat}
    (h : scanPair second long short cs = .ok (token, length)) :
    token = long ∨ token = short := by
  cases cs with
  | nil =>
      cases h
      exact .inr rfl
  | cons c cs =>
      rw [scanPair] at h
      split at h <;> cases h
      · exact .inl rfl
      · exact .inr rfl

/- A doubled character is one token. -/
theorem eq_of_scanDouble
    {c : Char}
    {double token : Token}
    {cs : List Char}
    {length : Nat}
    (h : scanDouble c double cs = .ok (token, length)) :
    token = double := by
  cases cs with
  | nil => cases h
  | cons d cs =>
      rw [scanDouble] at h
      split at h <;> cases h
      rfl

/- A scanned string is a proper token. -/
theorem proper_of_scanString
    {quote : Char}
    {cs : List Char}
    {token : Token}
    {length : Nat}
    (h : scanString quote cs = .ok (token, length)) :
    token.Proper := by
  unfold scanString at h
  cases hContent : scanQuoted quote 1 cs with
  | error e =>
      rw [hContent] at h
      cases h
  | ok content =>
      rw [hContent] at h
      cases h
      trivial

/- A scanned word is a proper token. -/
theorem proper_of_scanWord
    {c : Char}
    {cs : List Char}
    {token : Token}
    {length : Nat}
    (hStart : Text.isNameStart c = true)
    (h : scanWord c cs = .ok (token, length)) :
    token.Proper := by
  cases h
  apply Token.proper_ofWord
  refine ⟨c, cs.takeWhile Text.isNamePart, String.toList_ofList,
    hStart, ?_⟩
  intro d hMem
  have hAll := List.all_takeWhile (p := Text.isNamePart) (l := cs)
  exact List.all_eq_true.1 hAll d hMem

/- A scanned character is a proper token. -/
theorem proper_of_punctuation?
    {c : Char}
    {token : Token}
    (h : punctuation? c = some token) :
    token.Proper := by
  unfold punctuation? at h
  split at h <;> cases h <;> trivial

/- What is scanned is a proper token. -/
theorem proper_of_scan
    {c : Char}
    {cs : List Char}
    {token : Token}
    {length : Nat}
    (h : scan c cs = .ok (token, length)) :
    token.Proper := by
  cases branch c cs with
  | number hStart hScan =>
      rw [hScan] at h
      exact proper_of_scanNumber h
  | string hQuote hScan =>
      rw [hScan] at h
      exact proper_of_scanString h
  | double op hSign hScan =>
      rw [hScan] at h
      rw [eq_of_scanDouble h]
      trivial
  | pair op short hSign hShort hScan =>
      rw [hScan] at h
      rcases eq_of_scanPair h with rfl | rfl
      · trivial
      · rcases hShort with rfl | ⟨other, rfl⟩ <;> trivial
  | word hStart hScan =>
      rw [hScan] at h
      exact proper_of_scanWord hStart h
  | sign token hSign hHere hScan =>
      rw [hHere] at h
      cases h
      exact proper_of_punctuation? hSign
  | fault hScan =>
      rw [hScan] at h
      cases h

/- All tokens of a text are proper ones. -/
theorem proper_of_mem_tokenizeFrom
    (cs : List Char)
    (owed position : Nat) :
    ∀ spanned ∈ (tokenizeFrom owed position cs).tokens,
      spanned.token.Proper := by
  induction cs generalizing owed position with
  | nil => simp [tokenizeFrom]
  | cons c cs ih =>
      cases owed with
      | succ owed => exact ih owed (position + 1)
      | zero =>
          rw [tokenizeFrom]
          split
          · exact ih 0 (position + 1)
          · cases hScan : scan c cs with
            | error e => simp
            | ok found =>
                rcases found with ⟨token, length⟩
                simp only [TokenStream.cons, List.forall_mem_cons]
                exact ⟨proper_of_scan hScan, ih _ _⟩

end Lexer

------------------------------------------------------------
-- Parsed Expressions
------------------------------------------------------------

namespace Grammar

/- Proper tokens derive canonical expressions only. -/
theorem canonical_of_derives
    {level : Level}
    {ts : List Token}
    {e : Expr}
    (h : Derives level ts e)
    (hProper : ∀ token ∈ ts, token.Proper) :
    e.Canonical := by
  induction h with
  | conditional hCondition hThen hElse ihCondition ihThen ihElse =>
      simp only [List.forall_mem_append, List.forall_mem_cons]
        at hProper
      rcases hProper with ⟨hc, -, ht, -, he⟩
      exact ⟨ihCondition hc, ihThen ht, ihElse he⟩
  | binary op hLevel hLeft hRight ihLeft ihRight =>
      simp only [List.forall_mem_append, List.forall_mem_cons]
        at hProper
      rcases hProper with ⟨hl, -, hr⟩
      exact ⟨ihLeft hl, ihRight hr⟩
  | unary op hOperand ih =>
      exact ih (List.forall_mem_cons.1 hProper).2
  | subscript hObject hKey ihObject ihKey =>
      simp only [List.forall_mem_append, List.forall_mem_cons]
        at hProper
      rcases hProper with ⟨ho, -, hk, -⟩
      exact ⟨ihObject ho, ihKey hk⟩
  | property hObject ih =>
      exact ⟨ih (List.forall_mem_append.1 hProper).1, trivial⟩
  | literal hConstant =>
      exact (hProper _ (by simp)).isConstant hConstant
  | implicit => trivial
  | var hName =>
      rcases hProper _ List.mem_cons_self with ⟨hWord, hKeyword⟩
      exact ⟨hWord, hKeyword, hName⟩
  | group hInner ih =>
      simp only [List.forall_mem_append, List.forall_mem_cons]
        at hProper
      exact ih hProper.2.1
  | tighter hLevel hNext ih => exact ih hProper

end Grammar

/- Whatever comes out of the parser is canonical. -/
theorem Expr.canonical_of_parse
    {source : String}
    {e : Expr}
    (h : parse source = .ok e) :
    e.Canonical := by
  rcases tokenize_of_parse h with ⟨tokens, position, hTokens⟩
  have hDerives := (parse_eq_ok_iff_of_tokens hTokens e).1 h
  apply Grammar.canonical_of_derives hDerives
  intro token hMem
  rcases List.mem_map.1 hMem with ⟨spanned, hSpanned, rfl⟩
  have hProper :=
    Lexer.proper_of_mem_tokenizeFrom source.toList 0 0 spanned
  rw [← Lexer.tokenize, hTokens] at hProper
  exact hProper hSpanned

end PageExpr
