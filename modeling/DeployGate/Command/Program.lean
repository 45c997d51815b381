import DeployGate.Command.Arguments
import DeployGate.Command.LogFilter
import DeployGate.Command.Run
import DeployGate.Command.Usage
import DeployGate.Text.Lines

/-!
# The program

From the arguments to the exit code. The code is zero if the deployment may proceed, one if it may
not or a command came to no answer, and two if the command line is wrong.
-/

namespace DeployGate.Command

open Files (Inputs)
open Gate (LogRecord)

structure Exit where
  code : Nat
  output : String := ""
  log : List LogRecord := []
  complaint : String := ""
  deriving DecidableEq, Repr

/-- What is printed about trouble, with every line of the cause indented. -/
def Trouble.report (trouble : Trouble) : String :=
  let lines := (Text.pieces trouble.cause.toList).map fun line =>
    "    " ++ String.ofList line ++ "\n"
  "Error: " ++ trouble.context ++ "\n\nCaused by:\n" ++ String.join lines

def Stop.exit (stop : Stop) : Exit where
  code := stop.exitCode
  output := stop.output
  complaint := stop.complaint

def Finish.exit (finish : Finish) (filter : LogFilter) : Exit where
  code := match finish.result with
    | .ok true => 0
    | _ => 1
  output := finish.output
  log := finish.records.filter filter.admits
  complaint := match finish.result with
    | .ok _ => ""
    | .error trouble => trouble.report

/-- The whole program, given the arguments after its name and the filter set for its log. -/
def program (arguments : List String) (logFilter : Option String) (inputs : Inputs)
    (style : Style) : Exit :=
  match Invocation.ofArguments arguments with
  | .error stop => stop.exit
  | .ok invocation =>
    (invocation.run inputs style).exit (.ofSettings logFilter invocation.verbose)

end DeployGate.Command
