import PageExpr.Evaluation.Diagnostic

/-
  The settings of an engine, and how they are read from init
  parameters.

  Main declarations:
    * `Config.defaultCapacity`
    * `Config`
    * `Config.readCapacity?`
    * `Config.readStrict?`
    * `Config.ofInitParameters`
    * `Config.override`
-/

namespace PageExpr

/- How many parsed templates are kept unless something else is set. -/
def Config.defaultCapacity : Nat :=
  100

/-
  How many parsed templates are kept, and whether the first
  failure ends an evaluation.
-/
structure Config where
  cacheCapacity : Nat := Config.defaultCapacity
  strict : Bool := false
deriving DecidableEq

namespace Config

/- The init parameter of the capacity. -/
def capacityName : String :=
  "jstl.el.expressionCacheSize"

/- The init parameter of the mode. -/
def strictName : String :=
  "jstl.el.strictMode"

/-
  A capacity: digits between blanks, with a plus sign before
  them or without.  It must be less than `2 ^ 64`.
-/
def readCapacity?
    (raw : String) : Option Nat :=
  let cs := Text.trim raw.toList
  let digits :=
    match cs with
    | '+' :: rest => rest
    | cs => cs
  if digits ≠ [] && digits.all Char.isDigit then
    let n := Numeral.value digits
    if n < 0x10000000000000000 then some n else none
  else none

/- A mode: one of two words, in any case, between blanks. -/
def readStrict?
    (raw : String) : Option Bool :=
  let word := String.ofList (Text.trim raw.toList)
  if Text.sameIgnoringCase word "true" then some true
  else if Text.sameIgnoringCase word "false" then some false
  else none

/- What is logged about a capacity that cannot be read. -/
def capacityWarning
    (raw : String) : LogLine :=
  ⟨.warn,
    "Ignoring " ++ capacityName ++ "='" ++ raw ++
      "': not a non-negative integer, using " ++
      toString defaultCapacity⟩

/- What is logged about a mode that cannot be read. -/
def strictWarning
    (raw : String) : LogLine :=
  ⟨.warn,
    "Ignoring " ++ strictName ++ "='" ++ raw ++
      "': expected true or false"⟩

/-
  Read one setting.  Without a parameter the setting stays as
  it is; with one that cannot be read, this is logged.
-/
def setting
    {α : Type}
    (default : α)
    (read? : String → Option α)
    (warning : String → LogLine) :
    Option String → α × List LogLine
  | none => (default, [])
  | some raw =>
      match read? raw with
      | some value => (value, [])
      | none => (default, [warning raw])

/- The settings of init parameters, and what is logged. -/
def ofInitParameters
    (parameters : Fields String) : Config × List LogLine :=
  let initial : Config := {}
  let (cacheCapacity, capacityLog) :=
    setting initial.cacheCapacity readCapacity? capacityWarning
      (parameters.get? capacityName)
  let (strict, strictLog) :=
    setting initial.strict readStrict? strictWarning
      (parameters.get? strictName)
  (⟨cacheCapacity, strict⟩, capacityLog ++ strictLog)

/- Other settings where they are given. -/
def override
    (config : Config)
    (cacheCapacity : Option Nat)
    (strict : Option Bool) : Config where
  cacheCapacity := cacheCapacity.getD config.cacheCapacity
  strict := strict.getD config.strict

end Config

end PageExpr
