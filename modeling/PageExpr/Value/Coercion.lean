import PageExpr.Number.Numeral
import PageExpr.Text.Blank
import PageExpr.Text.Case
import PageExpr.Value.Text

/-
  Taking a value for a number, a truth value, an index or a
  name.

  Main declarations:
    * `CoercionError`
    * `Value.parseNumber?`
    * `Value.toNumber`
    * `Value.toBoolean`
    * `Value.toIndex`
    * `Value.toKey`
-/

namespace PageExpr

------------------------------------------------------------
-- Failures
------------------------------------------------------------

/- What a value was to be taken for. -/
inductive CoercionTarget where
  | number
  | index
deriving DecidableEq

namespace CoercionTarget

/- The target, as messages show it. -/
def text : CoercionTarget → String
  | .number => "number"
  | .index => "index"

end CoercionTarget

/- A value that cannot be taken for what was wanted. -/
structure CoercionError where
  found : String
  target : CoercionTarget
deriving DecidableEq

namespace CoercionError

/- The error, as messages show it. -/
def message
    (e : CoercionError) : String :=
  "cannot coerce " ++ e.found ++ " to " ++ e.target.text

/- The failure on a value: strings are shown in quotes. -/
def on
    (target : CoercionTarget) : Value → CoercionError
  | .string s => ⟨"string \"" ++ s ++ "\"", target⟩
  | v => ⟨v.typeName, target⟩

end CoercionError

namespace Value

------------------------------------------------------------
-- Strings
------------------------------------------------------------

/- Does a string look like a floating-point number? -/
def looksLikeFloat
    (s : String) : Bool :=
  s.toList.any fun c => c = '.' || c = 'e' || c = 'E'

/- The number that a string spells; its looks decide which. -/
def parseNumber?
    (s : String) : Option Number :=
  (Numeral.read? s.toList).map
    (Numeral.toNumber (looksLikeFloat s))

/- The truth value that a string spells, in any case. -/
def parseBoolean?
    (s : String) : Option Bool :=
  if Text.sameIgnoringCase s "true" then some true
  else if Text.sameIgnoringCase s "false" then some false
  else none

------------------------------------------------------------
-- Values
------------------------------------------------------------

/- Null and the empty string count as zero. -/
def toNumber : Value → Except CoercionError Number
  | .null => .ok (.integer 0)
  | .integer n => .ok (.integer n)
  | .float x => .ok (.float x)
  | .string s =>
      if s.isEmpty then .ok (.integer 0)
      else
        match parseNumber? s with
        | some n => .ok n
        | none => .error (.on .number (.string s))
  | v => .error (.on .number v)

/- Null, the empty string and `false` in any case are false. -/
def toBoolean : Value → Bool
  | .null => false
  | .boolean b => b
  | .string s =>
      !(s.isEmpty || Text.sameIgnoringCase s "false")
  | _ => true

/- The whole part of a number is an index. -/
def indexOf : Number → Int64
  | .integer n => n
  | .float x => x.toInt64

/- Numbers and strings that spell one are indices. -/
def toIndex : Value → Except CoercionError Int64
  | .integer n => .ok n
  | .float x => .ok x.toInt64
  | .string s =>
      match parseNumber? (String.ofList (Text.trim s.toList)) with
      | some n => .ok (indexOf n)
      | none => .error (.on .index (.string s))
  | v => .error (.on .index v)

/- The name of a field or a property. -/
def toKey
    (v : Value) : String :=
  v.text

end Value

end PageExpr
