import Mathlib.Data.List.Forall2
import Mathlib.Data.List.TakeWhile
import PageExpr.Host.Form
import PageExpr.Proofs.Text.Octets

/-
  What query strings stand for.

  The rules below say which pairs a query string stands for, and
  the parser follows them: the pieces between the ampersands, less
  the empty ones, are names and values with an equals sign between
  them, whose escapes stand for octets of UTF-8.  Each list of
  pairs can be written as a query string that stands for it.

  Main declarations:
    * `Form.Splits`
    * `Form.Unescapes`
    * `Form.Spells`
    * `Form.Says`
    * `Form.Reads`
    * `Form.parse_eq_iff`
    * `Form.written`
    * `Form.parse_written`
-/

namespace PageExpr

namespace Form

------------------------------------------------------------
-- Rules
------------------------------------------------------------

/- The pieces of a query string, which are between ampersands. -/
structure Splits
    (query : List Char)
    (parts : List (List Char)) : Prop where
  joined : ['&'].intercalate parts = query
  notNone : parts ≠ []
  apart : ∀ part ∈ parts, '&' ∉ part

/- Hexadecimal digits and their values, in either case. -/
def HexDigit
    (octet value : Nat) : Prop :=
  ("0123456789abcdef".toList.map Char.toNat)[value]? = some octet ∨
    ("0123456789ABCDEF".toList.map Char.toNat)[value]? = some octet

instance
    (octet value : Nat) :
    Decidable (HexDigit octet value) := by
  unfold HexDigit
  infer_instance

/- A percent sign and two digits are an escape of an octet. -/
inductive Escape : List Nat → Nat → Prop where
  | mk
      {high low h l : Nat}
      (hHigh : HexDigit high h)
      (hLow : HexDigit low l) :
      Escape ['%'.toNat, high, low] (16 * h + l)

/- What octets are once the escapes are undone. -/
inductive Unescapes : List Nat → List Nat → Prop where
  | nil : Unescapes [] []
  | plus
      {rest octets : List Nat}
      (hRest : Unescapes rest octets) :
      Unescapes ('+'.toNat :: rest) (' '.toNat :: octets)
  | escape
      {escape rest octets : List Nat} {value : Nat}
      (hEscape : Escape escape value)
      (hRest : Unescapes rest octets) :
      Unescapes (escape ++ rest) (value :: octets)
  /- Other octets stay, and so does what is no escape. -/
  | other
      {octet : Nat} {rest octets : List Nat}
      (hPlus : octet ≠ '+'.toNat)
      (hEscape : ∀ escape value,
        Escape escape value → ¬ escape <+: octet :: rest)
      (hRest : Unescapes rest octets) :
      Unescapes (octet :: rest) (octet :: octets)

/- The text that an escaped text spells. -/
def Spells
    (cs : List Char)
    (text : String) : Prop :=
  ∃ octets,
    Unescapes (Utf8.encode cs) octets ∧
      Utf8.Reads octets text.toList

/- The name and the value of a piece. -/
inductive Says : List Char → String × String → Prop where
  | both
      {name value : List Char} {n v : String}
      (hEquals : '=' ∉ name)
      (hName : Spells name n)
      (hValue : Spells value v) :
      Says (name ++ '=' :: value) (n, v)
  | bare
      {name : List Char} {n : String}
      (hEquals : '=' ∉ name)
      (hName : Spells name n) :
      Says name (n, "")

/- The pairs that a query string stands for, in their order. -/
def Reads
    (query : String)
    (pairs : List (String × String)) : Prop :=
  ∃ parts,
    Splits query.toList parts ∧
      List.Forall₂ Says (parts.filter (· ≠ [])) pairs

------------------------------------------------------------
-- Pieces
------------------------------------------------------------

/- There is always a piece, which may be empty. -/
theorem pieces_ne_nil
    (cs : List Char) :
    pieces cs ≠ [] := by
  cases cs with
  | nil => exact List.cons_ne_nil _ _
  | cons c cs =>
      rw [pieces]
      split
      · exact List.cons_ne_nil _ _
      · split <;> exact List.cons_ne_nil _ _

/- An ampersand ends a piece. -/
theorem pieces_append
    (cs others : List Char) :
    pieces (cs ++ '&' :: others) = pieces cs ++ pieces others := by
  induction cs with
  | nil => rfl
  | cons c cs ih =>
      rw [List.cons_append, pieces, pieces, ih]
      split
      · rfl
      · -- The first piece goes on, and there is one.
        cases hPieces : pieces cs with
        | nil => exact absurd hPieces (pieces_ne_nil cs)
        | cons piece rest => rfl

/- Query strings may be parsed one by one. -/
theorem parse_append
    (query other : String) :
    parse (query ++ "&" ++ other) = parse query ++ parse other := by
  have hText :
      (query ++ "&" ++ other).toList =
        query.toList ++ '&' :: other.toList := by
    simp
  rw [parse, hText, pieces_append, List.filter_append,
    List.map_append]
  rfl

/- Without ampersands there is one piece. -/
theorem pieces_of_notMem
    {cs : List Char}
    (h : '&' ∉ cs) :
    pieces cs = [cs] := by
  induction cs with
  | nil => rfl
  | cons c cs ih =>
      rw [List.mem_cons, not_or] at h
      rw [pieces, if_neg (Ne.symm h.1), ih h.2]

/- More pieces than one have an ampersand behind the first. -/
theorem intercalate_cons_cons
    (part next : List Char)
    (parts : List (List Char)) :
    ['&'].intercalate (part :: next :: parts) =
      part ++ '&' :: ['&'].intercalate (next :: parts) := by
  simp [List.intercalate]

/- The pieces are those between the ampersands. -/
theorem splits_pieces
    (cs : List Char) :
    Splits cs (pieces cs) := by
  induction cs with
  | nil => exact ⟨rfl, List.cons_ne_nil _ _, by simp [pieces]⟩
  | cons c cs ih =>
      obtain ⟨hJoined, hNotNone, hApart⟩ := ih
      rcases List.exists_cons_of_ne_nil hNotNone with
        ⟨part, parts, hParts⟩
      rw [hParts] at hJoined hApart
      rw [pieces]
      split
      · rename_i hAmpersand
        rw [hParts]
        refine ⟨?_, List.cons_ne_nil _ _,
          List.forall_mem_cons.2 ⟨List.not_mem_nil, hApart⟩⟩
        rw [intercalate_cons_cons, hJoined, hAmpersand,
          List.nil_append]
      · rename_i hOther
        rw [hParts]
        have hFirst := List.forall_mem_cons.1 hApart
        refine ⟨?_, List.cons_ne_nil _ _,
          List.forall_mem_cons.2 ⟨?_, hFirst.2⟩⟩
        · rw [← hJoined]
          cases parts <;> simp [List.intercalate]
        · rw [List.mem_cons, not_or]
          exact ⟨Ne.symm hOther, hFirst.1⟩

/- No other pieces are between the ampersands. -/
theorem Splits.pieces_eq
    {cs : List Char}
    {parts : List (List Char)}
    (h : Splits cs parts) :
    pieces cs = parts := by
  obtain ⟨rfl, hNotNone, hApart⟩ := h
  induction parts with
  | nil => exact absurd rfl hNotNone
  | cons part parts ih =>
      rw [List.forall_mem_cons] at hApart
      cases parts with
      | nil =>
          have hOne : ['&'].intercalate [part] = part := by
            simp [List.intercalate]
          rw [hOne, pieces_of_notMem hApart.1]
      | cons next parts =>
          rw [intercalate_cons_cons, pieces_append,
            pieces_of_notMem hApart.1,
            ih (List.cons_ne_nil _ _) hApart.2]
          rfl

------------------------------------------------------------
-- Escapes
------------------------------------------------------------

/- The digits that are recognized are those with a value. -/
theorem hexDigit?_eq_some_iff
    {octet value : Nat} :
    hexDigit? octet = some value ↔ HexDigit octet value := by
  constructor
  · have hDigits :
        ∀ octet < 103,
          ∀ value ∈ hexDigit? octet, HexDigit octet value := by
      decide
    intro h
    by_cases hOctet : octet < 103
    · exact hDigits octet hOctet value h
    · unfold hexDigit? at h
      grind
  · rintro (h | h) <;>
      obtain ⟨hValue, rfl⟩ := List.getElem?_eq_some_iff.1 h <;>
      revert value <;> decide

/- What is recognized is an escape and what it stands for. -/
theorem escaped?_eq_some_iff
    {cs : List Nat}
    {value : Nat} :
    escaped? cs = some value ↔
      ∃ escape rest,
        Escape escape value ∧ escape ++ rest = 37 :: cs := by
  constructor
  · intro h
    match cs with
    | [] => cases h
    | [_] => cases h
    | high :: low :: rest =>
        simp only [escaped?, Option.bind_eq_bind,
          Option.bind_eq_some_iff, Option.pure_def,
          Option.some.injEq] at h
        rcases h with ⟨h, hHigh, l, hLow, rfl⟩
        exact ⟨_, rest, .mk (hexDigit?_eq_some_iff.1 hHigh)
          (hexDigit?_eq_some_iff.1 hLow), rfl⟩
  · rintro ⟨_, rest, ⟨hHigh, hLow⟩, hRest⟩
    rw [← (List.cons.inj hRest).2, List.append_eq, List.cons_append,
      List.cons_append, escaped?, hexDigit?_eq_some_iff.2 hHigh,
      hexDigit?_eq_some_iff.2 hLow]
    rfl

/- An octet begins no escape if none is recognized. -/
theorem not_escape_iff
    {octet : Nat}
    {rest : List Nat} :
    (∀ escape value,
      Escape escape value → ¬ escape <+: octet :: rest) ↔
      (octet = 37 → escaped? rest = none) := by
  constructor
  · rintro h rfl
    rw [Option.eq_none_iff_forall_ne_some]
    intro value hValue
    rcases escaped?_eq_some_iff.1 hValue with
      ⟨escape, others, hEscape, hOthers⟩
    exact h escape value hEscape ⟨others, hOthers⟩
  · rintro h escape value hEscape ⟨others, hOthers⟩
    have hPercent : octet = 37 := by
      cases hEscape
      exact (List.cons.inj hOthers).1.symm
    subst hPercent
    have hValue :=
      escaped?_eq_some_iff.2 ⟨escape, others, hEscape, hOthers⟩
    rw [h rfl] at hValue
    cases hValue

/- An escape is undone, and its digits are left out. -/
theorem unescapeFrom_escape
    {rest : List Nat}
    {value : Nat}
    (h : escaped? rest = some value) :
    unescapeFrom 0 (37 :: rest) = value :: unescapeFrom 2 rest := by
  rw [unescapeFrom, if_pos rfl, h]

/- What is neither a plus sign nor an escape stays. -/
theorem unescapeFrom_other
    {octet : Nat}
    {rest : List Nat}
    (hPlus : octet ≠ 43)
    (hEscape : octet = 37 → escaped? rest = none) :
    unescapeFrom 0 (octet :: rest) =
      octet :: unescapeFrom 0 rest := by
  rw [unescapeFrom]
  split
  · rename_i hPercent
    rw [hEscape hPercent]
  · rfl

/- Undoing the escapes follows the rules. -/
theorem unescapes_unescapeFrom
    (owed : Nat)
    (cs : List Nat) :
    Unescapes (cs.drop owed) (unescapeFrom owed cs) := by
  induction cs generalizing owed with
  | nil =>
      rw [List.drop_nil]
      exact .nil
  | cons octet rest ih =>
      cases owed with
      | succ owed => exact ih owed
      | zero =>
          rw [List.drop_zero]
          by_cases hPlus : octet = 43
          · subst hPlus
            exact .plus (ih 0)
          cases hValue : escaped? rest with
          | none =>
              rw [unescapeFrom_other hPlus fun _ => hValue]
              exact .other hPlus
                (not_escape_iff.2 fun _ => hValue) (ih 0)
          | some value =>
              by_cases hPercent : octet = 37
              · subst hPercent
                rcases escaped?_eq_some_iff.1 hValue with
                  ⟨_, others, hEscape, hOthers⟩
                rw [unescapeFrom_escape hValue, ← hOthers]
                have hRest := ih 2
                cases hEscape with
                | mk hHigh hLow =>
                    rw [← (List.cons.inj hOthers).2] at hRest ⊢
                    exact .escape (.mk hHigh hLow) hRest
              · have hNone (h : octet = 37) :
                    escaped? rest = none :=
                  absurd h hPercent
                rw [unescapeFrom_other hPlus hNone]
                exact .other hPlus (not_escape_iff.2 hNone) (ih 0)

/- The rules leave no other choice. -/
theorem Unescapes.unescapeFrom_eq
    {cs octets : List Nat}
    (h : Unescapes cs octets) :
    unescapeFrom 0 cs = octets := by
  induction h with
  | nil => rfl
  | plus hRest ih =>
      rw [← ih]
      rfl
  | @escape escape rest octets value hEscape hRest ih =>
      cases hEscape with
      | mk hHigh hLow =>
          rw [← ih]
          exact unescapeFrom_escape
            (escaped?_eq_some_iff.2
              ⟨_, rest, .mk hHigh hLow, rfl⟩)
  | other hPlus hEscape hRest ih =>
      rw [unescapeFrom_other hPlus (not_escape_iff.1 hEscape), ih]

/- An escaped text is read as the text that it spells. -/
theorem unescape_eq_iff
    {cs : List Char}
    {text : String} :
    unescape cs = text ↔ Spells cs text := by
  have hOctets := unescapes_unescapeFrom 0 (Utf8.encode cs)
  constructor
  · rintro rfl
    refine ⟨_, hOctets, ?_⟩
    rw [unescape, String.toList_ofList]
    exact Utf8.decode_eq_iff.1 rfl
  · rintro ⟨octets, hUnescapes, hReads⟩
    rw [unescape, hUnescapes.unescapeFrom_eq,
      Utf8.decode_eq_iff.2 hReads, String.ofList_toList]

------------------------------------------------------------
-- Names and Values
------------------------------------------------------------

/- Before the first equals sign there is none. -/
theorem bne_equals
    {name : List Char}
    (hEquals : '=' ∉ name) :
    ∀ c ∈ name, (c != '=') = true := by
  intro c hc
  rw [bne_iff_ne]
  rintro rfl
  exact hEquals hc

/- A piece is split at its first equals sign. -/
theorem pair_append
    {name : List Char}
    (hEquals : '=' ∉ name)
    (value : List Char) :
    pair (name ++ '=' :: value) = (unescape name, unescape value) := by
  have hName := bne_equals hEquals
  rw [pair, List.takeWhile_append_of_pos hName,
    List.dropWhile_append_of_pos hName]
  simp

/- Without an equals sign a piece is a name. -/
theorem pair_of_notMem
    {name : List Char}
    (hEquals : '=' ∉ name) :
    pair name = (unescape name, "") := by
  have hName := bne_equals hEquals
  rw [pair, List.takeWhile_eq_self_iff.2 hName,
    List.dropWhile_eq_nil_iff.2 hName]
  rfl

/- A piece has the name and the value that it says. -/
theorem pair_eq_iff
    {piece : List Char}
    {entry : String × String} :
    pair piece = entry ↔ Says piece entry := by
  constructor
  · rintro rfl
    by_cases hEquals : '=' ∈ piece
    · rcases List.eq_append_cons_of_mem hEquals with
        ⟨name, value, rfl, hFirst⟩
      rw [pair_append hFirst]
      exact .both hFirst (unescape_eq_iff.1 rfl)
        (unescape_eq_iff.1 rfl)
    · rw [pair_of_notMem hEquals]
      exact .bare hEquals (unescape_eq_iff.1 rfl)
  · intro h
    cases h with
    | both hEquals hName hValue =>
        rw [pair_append hEquals, unescape_eq_iff.2 hName,
          unescape_eq_iff.2 hValue]
    | bare hEquals hName =>
        rw [pair_of_notMem hEquals, unescape_eq_iff.2 hName]

/- The parser gives the pairs that the rules give, in order. -/
theorem parse_eq_iff
    {query : String}
    {pairs : List (String × String)} :
    parse query = pairs ↔ Reads query pairs := by
  have hPairs (parts : List (List Char)) :
      parts.map pair = pairs ↔ List.Forall₂ Says parts pairs := by
    rw [← List.forall₂_eq_eq_eq, List.forall₂_map_left_iff]
    simp only [pair_eq_iff]
  constructor
  · intro h
    exact ⟨_, splits_pieces _, (hPairs _).1 h⟩
  · rintro ⟨parts, hSplits, hSays⟩
    rw [parse, hSplits.pieces_eq]
    exact (hPairs _).2 hSays

------------------------------------------------------------
-- Writing Pairs
------------------------------------------------------------

/- Digits, letters and some signs are written as they are. -/
def isPlain
    (octet : Nat) : Bool :=
  (48 ≤ octet && octet ≤ 57) || (65 ≤ octet && octet ≤ 90) ||
    (97 ≤ octet && octet ≤ 122) ||
    octet ∈ "*-._".toList.map Char.toNat

/- A hexadecimal digit. -/
def digit
    (value : Nat) : Char :=
  "0123456789ABCDEF".toList.getD value '0'

/- An octet as it is, as a plus sign, or escaped. -/
def escapeOctet
    (octet : Nat) : List Char :=
  if isPlain octet then [Char.ofNat octet]
  else if octet = 32 then ['+']
  else ['%', digit (octet / 16), digit (octet % 16)]

/- A text with its octets escaped. -/
def escape
    (text : String) : List Char :=
  (Utf8.encode text.toList).flatMap escapeOctet

/- A pair as a piece of a query string. -/
def piece
    (entry : String × String) : List Char :=
  escape entry.1 ++ '=' :: escape entry.2

/- The query string of pairs. -/
def written
    (pairs : List (String × String)) : String :=
  String.ofList (['&'].intercalate (pairs.map piece))

/- An escaped octet has no separators, and is undone. -/
theorem escapeOctet_spec :
    ∀ octet < 256,
      ('&' ∉ escapeOctet octet ∧ '=' ∉ escapeOctet octet) ∧
        if isPlain octet then
          Utf8.encode (escapeOctet octet) = [octet] ∧
            octet ≠ 37 ∧ octet ≠ 43
        else if octet = 32 then
          Utf8.encode (escapeOctet octet) = [43]
        else
          Utf8.encode (escapeOctet octet) =
              [37, (digit (octet / 16)).toNat,
                (digit (octet % 16)).toNat] ∧
            HexDigit (digit (octet / 16)).toNat (octet / 16) ∧
            HexDigit (digit (octet % 16)).toNat (octet % 16) := by
  decide +kernel

/- Octets are less than 256. -/
theorem lt_of_mem_encode
    {cs : List Char}
    {octet : Nat}
    (h : octet ∈ Utf8.encode cs) :
    octet < 256 := by
  rw [Utf8.encode, List.mem_flatMap] at h
  rcases h with ⟨c, -, h⟩
  rcases List.mem_map.1 h with ⟨byte, -, rfl⟩
  exact byte.toNat_lt

/- An escaped octet stands for itself. -/
theorem unescapes_escapeOctet
    {octet : Nat}
    {rest octets : List Nat}
    (hOctet : octet < 256)
    (hRest : Unescapes rest octets) :
    Unescapes (Utf8.encode (escapeOctet octet) ++ rest)
      (octet :: octets) := by
  have hSpec := (escapeOctet_spec octet hOctet).2
  split at hSpec
  · rw [hSpec.1]
    refine .other hSpec.2.2 ?_ hRest
    exact not_escape_iff.2 fun h => absurd h hSpec.2.1
  · split at hSpec
    · rename_i hSpace
      rw [hSpec, hSpace]
      exact .plus hRest
    · have hEscape := Escape.mk hSpec.2.1 hSpec.2.2
      rw [Nat.div_add_mod] at hEscape
      rw [hSpec.1]
      exact .escape hEscape hRest

/- Escaped octets stand for themselves. -/
theorem unescapes_flatMap
    {octets : List Nat}
    (h : ∀ octet ∈ octets, octet < 256) :
    Unescapes (Utf8.encode (octets.flatMap escapeOctet)) octets := by
  induction octets with
  | nil => exact .nil
  | cons octet octets ih =>
      rw [List.forall_mem_cons] at h
      rw [List.flatMap_cons, Utf8.encode_append]
      exact unescapes_escapeOctet h.1 (ih h.2)

/- An escaped text spells the text. -/
theorem spells_escape
    (text : String) :
    Spells (escape text) text := by
  refine ⟨_, unescapes_flatMap fun _ => lt_of_mem_encode, ?_⟩
  have hDecode := Utf8.decode_encode text.toList []
  rw [List.append_nil] at hDecode
  exact Utf8.decode_eq_iff.1 (hDecode.trans (List.append_nil _))

/- An escaped text has no separators. -/
theorem notMem_escape
    (text : String) :
    '&' ∉ escape text ∧ '=' ∉ escape text := by
  simp only [escape, List.mem_flatMap, not_exists, not_and]
  constructor <;> intro octet hOctet
  · exact (escapeOctet_spec octet (lt_of_mem_encode hOctet)).1.1
  · exact (escapeOctet_spec octet (lt_of_mem_encode hOctet)).1.2

/- A piece says its pair. -/
theorem says_piece
    (entry : String × String) :
    Says (piece entry) entry :=
  .both (notMem_escape entry.1).2 (spells_escape entry.1)
    (spells_escape entry.2)

/- A piece is not empty, and has no ampersand. -/
theorem piece_spec
    (entry : String × String) :
    piece entry ≠ [] ∧ '&' ∉ piece entry := by
  constructor
  · exact List.append_ne_nil_of_right_ne_nil _ (List.cons_ne_nil _ _)
  · rw [piece, List.mem_append, List.mem_cons, not_or, not_or]
    exact ⟨(notMem_escape _).1, by decide, (notMem_escape _).1⟩

/- Pairs that are written are read back. -/
theorem parse_written
    (pairs : List (String × String)) :
    parse (written pairs) = pairs := by
  cases pairs with
  | nil => rfl
  | cons entry entries =>
      rw [parse_eq_iff]
      refine ⟨(entry :: entries).map piece,
        ⟨String.toList_ofList.symm, List.cons_ne_nil _ _, ?_⟩, ?_⟩
      · rw [List.forall_mem_map]
        exact fun entry _ => (piece_spec entry).2
      · rw [List.filter_eq_self.2, List.forall₂_map_left_iff]
        · exact List.forall₂_same.2 fun entry _ => says_piece entry
        · rw [List.forall_mem_map]
          exact fun entry _ => decide_eq_true (piece_spec entry).1

end Form

end PageExpr
