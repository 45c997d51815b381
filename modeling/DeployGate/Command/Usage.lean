import DeployGate.Command.Invocation

/-!
# Usage

What is printed when no command runs.
-/

namespace DeployGate.Command

def helpLines : List String :=
  ["nplan — pre-deployment plan gate for scheduler jobs",
    "",
    "Usage: nplan [OPTIONS] <COMMAND>",
    "",
    "Commands:",
    "  check   Decide whether a planned job change should be deployed",
    "  config  Print the effective gate configuration",
    "  help    Print this message",
    "",
    "Options:",
    "  -v, --verbose          Log at the debug level",
    "  -c, --config <CONFIG>  Gate configuration file (TOML)",
    "      --format <FORMAT>  [default: text] [possible values: text, json]",
    "  -h, --help             Print help",
    "  -V, --version          Print version",
    "",
    "Usage: nplan check [OPTIONS] <PLAN>",
    "",
    "  <PLAN>                 Plan response JSON file, or - for stdin",
    "      --bare-diff        The input is a bare job diff rather than a full plan response",
    "      --skip-empty-tasks",
    "                         Keep reporting past edited tasks that carry no object diffs",
    "      --allow-unrecognized",
    "                         Proceed when the job diff type is not recognized"]

def helpText : String := String.join (helpLines.map (· ++ "\n"))

namespace Stop

def reason : Stop → String
  | help | version | nothingGiven => ""
  | missingCommand => "a command is required but none was given"
  | missingPlan => "the plan is required but was not given"
  | badValue => "an option has no value or an invalid one"
  | repeated => "an option cannot be used multiple times"
  | unknownArgument => "unexpected argument"
  | unexpectedValue => "an option takes no value but one was given"
  | unknownCommand => "unrecognized command"

/-- What goes to the standard output. -/
def output : Stop → String
  | help => helpText
  | version => programVersion
  | _ => ""

/-- What goes to the standard error. -/
def complaint : Stop → String
  | help | version => ""
  | nothingGiven => helpText
  | stop => "error: " ++ stop.reason ++ "\n\nFor more information, try '--help'.\n"

end Stop

end DeployGate.Command
