import PageExpr.Number.Layout
import PageExpr.Value.Fields

/-
  JSON documents and their texts.

  A number is an integer of sixty-four bits, with a sign or
  without one, or a finite floating-point number.  The members
  of an object are in the order of their names.

  Main declarations:
    * `Json`
    * `Json.ofInt`, `Json.ofFloat`
    * `Json.compact`
    * `Json.pretty`
-/

namespace PageExpr

------------------------------------------------------------
-- Documents
------------------------------------------------------------

/- Does an integer fit a word with a sign or without one? -/
def JsonNumber.Fits
    (n : Int) : Prop :=
  -0x8000000000000000 ≤ n ∧ n < 0x10000000000000000

instance
    (n : Int) :
    Decidable (JsonNumber.Fits n) := by
  unfold JsonNumber.Fits
  infer_instance

/- A number in a document. -/
inductive JsonNumber where
  | whole (n : Int) (fits : JsonNumber.Fits n)
  | float (x : Binary64) (finite : x.isFinite = true)
deriving DecidableEq

/- A JSON document. -/
inductive Json where
  | null
  | boolean (b : Bool)
  | number (n : JsonNumber)
  | string (s : String)
  | array (items : List Json)
  | object (members : List (String × Json))

namespace Json

instance :
    Inhabited Json :=
  ⟨.null⟩

/- The number, or null if it is not finite. -/
def ofFloat
    (x : Binary64) : Json :=
  if h : x.isFinite = true then .number (.float x h) else .null

/- The integer, as a floating-point number if it is too large. -/
def ofInt
    (n : Int) : Json :=
  if h : JsonNumber.Fits n then .number (.whole n h)
  else ofFloat (Binary64.ofInt n)

/- The member of a name, if the document is an object. -/
def member?
    (name : String) : Json → Option Json
  | .object members => Fields.get? name members
  | _ => none

/- The text of a string. -/
def string? : Json → Option String
  | .string s => some s
  | _ => none

/- The members of an object. -/
def members? : Json → Option (Fields Json)
  | .object members => some members
  | _ => none

------------------------------------------------------------
-- Texts
------------------------------------------------------------

/-
  Numbers from `0.00001` up to ten quadrillions are written
  without an exponent; of two equally near digits the even ones
  are taken.
-/
def floatLayout : Layout where
  halfUp := false
  isPositional := fun place => -5 ≤ place && place < 16
  keepsPoint := true
  mark := 'e'
  plusSign := true

/- A control character by its code in four digits. -/
def codeEscape
    (c : Char) : List Char :=
  let digits := Nat.toDigits 16 c.toNat
  '\\' :: 'u' :: List.replicate (4 - digits.length) '0' ++ digits

/- A character as it stands between quotes. -/
def escape
    (c : Char) : List Char :=
  if c = '"' then ['\\', '"']
  else if c = '\\' then ['\\', '\\']
  else if c = '\x08' then ['\\', 'b']
  else if c = '\t' then ['\\', 't']
  else if c = '\n' then ['\\', 'n']
  else if c = '\x0c' then ['\\', 'f']
  else if c = '\r' then ['\\', 'r']
  else if c.toNat < 0x20 then codeEscape c
  else [c]

/- A string between quotes. -/
def quoted
    (s : String) : String :=
  "\"" ++ String.ofList (s.toList.flatMap escape) ++ "\""

/- A number in decimal notation. -/
def numberText : JsonNumber → String
  | .whole n _ => toString n
  | .float x _ => floatLayout.text x

mutual

/- The text without any blanks. -/
def compact : Json → String
  | .null => "null"
  | .boolean b => if b then "true" else "false"
  | .number n => numberText n
  | .string s => quoted s
  | .array items => "[" ++ compactItems items ++ "]"
  | .object members =>
      "\x7b" ++ compactMembers members ++ "\x7d"

/- Values with commas between them. -/
def compactItems : List Json → String
  | [] => ""
  | [item] => compact item
  | item :: rest => compact item ++ "," ++ compactItems rest

/- Members with commas between them. -/
def compactMembers : List (String × Json) → String
  | [] => ""
  | [(name, value)] => quoted name ++ ":" ++ compact value
  | (name, value) :: rest =>
      quoted name ++ ":" ++ compact value ++ "," ++
        compactMembers rest

end

/- A new line with an indentation of two blanks a level. -/
def newLine
    (level : Nat) : String :=
  "\n" ++ String.ofList (List.replicate (2 * level) ' ')

mutual

/- The text with a line for each item and each member. -/
def prettyAt
    (level : Nat) : Json → String
  | .array items =>
      if items.isEmpty then "[]"
      else
        "[" ++ prettyItems (level + 1) items ++
          newLine level ++ "]"
  | .object members =>
      if members.isEmpty then "\x7b\x7d"
      else
        "\x7b" ++ prettyMembers (level + 1) members ++
          newLine level ++ "\x7d"
  | .null => "null"
  | .boolean b => if b then "true" else "false"
  | .number n => numberText n
  | .string s => quoted s

/- Values on a line each. -/
def prettyItems
    (level : Nat) : List Json → String
  | [] => ""
  | [item] => newLine level ++ prettyAt level item
  | item :: rest =>
      newLine level ++ prettyAt level item ++ "," ++
        prettyItems level rest

/- Members on a line each. -/
def prettyMembers
    (level : Nat) : List (String × Json) → String
  | [] => ""
  | [(name, value)] =>
      newLine level ++ quoted name ++ ": " ++
        prettyAt level value
  | (name, value) :: rest =>
      newLine level ++ quoted name ++ ": " ++
        prettyAt level value ++ "," ++ prettyMembers level rest

end

/- The text in several lines. -/
def pretty
    (json : Json) : String :=
  prettyAt 0 json

end Json

end PageExpr
