import PageExpr.Command.Line

/-
  The program: it reads the input if the command line asks for
  it, and writes what `CommandLine.run` gives.
-/

namespace PageExpr

/- Carry out the arguments, and give the exit code. -/
def runProgram
    (arguments : List String) : IO UInt32 := do
  let reads :=
    (CommandLine.parse? arguments).any CommandLine.readsInput
  let input ←
    if reads then (← IO.getStdin).readToEnd else pure ""
  let output := CommandLine.execute arguments input
  IO.eprint output.stderr
  IO.print output.stdout
  return output.exitCode.toUInt32

end PageExpr

/- The entry of the program. -/
def main
    (arguments : List String) : IO UInt32 :=
  PageExpr.runProgram arguments
