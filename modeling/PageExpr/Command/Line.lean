import PageExpr.Command.Check

/-
  The command line: `check`, a template and options.

  Options may stand anywhere behind the command.  Short ones
  may be joined, and the value of an option may be joined to it
  or follow it.  Behind `--` nothing is an option.

  Main declarations:
    * `CommandLine`
    * `CommandLine.parse?`
    * `CommandLine.readsInput`
    * `CommandLine.run`
-/

namespace PageExpr

/- A check, and whether its output has several lines. -/
structure CommandLine where
  expression : Option String := none
  context : Option String := none
  pretty : Bool := false
  strict : Bool := false
  syntaxOnly : Bool := false

/- What a program leaves behind. -/
structure CommandLine.Output where
  exitCode : Nat
  stdout : String
  stderr : String

namespace CommandLine

------------------------------------------------------------
-- Arguments
------------------------------------------------------------

/- Add an argument that is no option. -/
def withExpression
    (expression : String)
    (line : CommandLine) : Option CommandLine :=
  match line.expression with
  | none => some { line with expression := some expression }
  | some _ => none

/- A value without the equals sign before it. -/
def joinedValue : List Char → String
  | '=' :: value => String.ofList value
  | value => String.ofList value

/-
  What joined short options mean: other settings, or a context
  that is the rest, or one that follows.
-/
def shortOptions?
    (line : CommandLine) :
    List Char → Option (CommandLine × Bool)
  | [] => some (line, false)
  | 'p' :: rest => shortOptions? { line with pretty := true } rest
  | ['c'] => some (line, true)
  | 'c' :: value =>
      some ({ line with context := some (joinedValue value) },
        false)
  | _ => none

/- What an option means, and whether a context follows it. -/
def option?
    (line : CommandLine)
    (argument : String) : Option (CommandLine × Bool) :=
  match argument.toList with
  | '-' :: '-' :: name =>
      if name = "pretty".toList then
        some ({ line with pretty := true }, false)
      else if name = "strict".toList then
        some ({ line with strict := true }, false)
      else if name = "syntax-only".toList then
        some ({ line with syntaxOnly := true }, false)
      else if name = "context".toList then some (line, true)
      else if "context=".toList.isPrefixOf name then
        some ({ line with
          context := some (String.ofList (name.drop 8)) }, false)
      else none
  | '-' :: options => shortOptions? line options
  | _ => none

/- Is the argument an option?  A single minus sign is not. -/
def isOption
    (argument : String) : Bool :=
  match argument.toList with
  | '-' :: _ :: _ => true
  | _ => false

/- Arguments behind which nothing is an option. -/
def operands?
    (line : CommandLine) : List String → Option CommandLine
  | [] => some line
  | argument :: rest =>
      (line.withExpression argument).bind fun line =>
        line.operands? rest

/- Take the arguments of a check. -/
def arguments?
    (line : CommandLine) : List String → Option CommandLine
  | [] => some line
  | argument :: rest =>
      if argument = "--" then line.operands? rest
      else if isOption argument then
        match line.option? argument, rest with
        | some (line, false), rest => line.arguments? rest
        | some (line, true), value :: rest =>
            { line with context := some value }.arguments? rest
        | _, _ => none
      else
        match line.withExpression argument with
        | some line => line.arguments? rest
        | none => none

/- The command line of arguments, if they make one. -/
def parse? : List String → Option CommandLine
  | "check" :: rest =>
      (arguments? {} rest).filter fun line =>
        line.expression.isSome
  | _ => none

------------------------------------------------------------
-- Runs
------------------------------------------------------------

/- Is the context read from the input? -/
def readsInput
    (line : CommandLine) : Bool :=
  line.context.isNone && !line.syntaxOnly

/- The check of a command line. -/
def check
    (line : CommandLine)
    (input : String) : Check where
  expression := line.expression.getD ""
  context := if line.readsInput then some input else line.context
  strict := line.strict
  syntaxOnly := line.syntaxOnly

/- The lines that warn of failures. -/
def warnings
    (diagnostics : List Diagnostic) : String :=
  String.join (diagnostics.map fun d =>
    "warning: " ++ d.text ++ "\n")

/- The output of a check. -/
def output
    (line : CommandLine) :
    Except CheckError CheckResult → Output
  | .error e => ⟨1, "", e.message ++ "\n"⟩
  | .ok .syntaxValid => ⟨0, "Syntax is valid\n", ""⟩
  | .ok (.evaluated json diagnostics) =>
      let text := if line.pretty then json.pretty else json.compact
      ⟨0, text ++ "\n", warnings diagnostics⟩

/- Carry out a command line. -/
def run
    (line : CommandLine)
    (input : String) : Output :=
  line.output (line.check input).run

/- What is written if the arguments make no command line. -/
def usage : String :=
  "usage: check TEMPLATE [-c JSON | --context JSON] " ++
    "[-p | --pretty] [--strict] [--syntax-only]\n"

/- The output for arguments, whatever they are. -/
def execute
    (arguments : List String)
    (input : String) : Output :=
  match parse? arguments with
  | some line => line.run input
  | none => ⟨2, "", usage⟩

end CommandLine

end PageExpr
