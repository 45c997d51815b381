/-!
# Invocations

What a command line asks for, or why it runs no command.
-/

namespace DeployGate.Command

/-- How the verdict on a plan is printed. -/
inductive Format
  | text
  | json
  deriving DecidableEq, Repr

structure CheckOptions where
  -- A file, or `-` for the standard input.
  plan : String
  -- The plan is a job's diff alone and not a whole response.
  bareDiff : Bool := false
  -- An edited task without objects is skipped, whatever the configuration says.
  skipEmptyTasks : Bool := false
  -- A deleted job and one of unrecognized type proceed, whatever the configuration says.
  allowUnrecognized : Bool := false
  deriving DecidableEq, Repr

inductive Action
  | check (options : CheckOptions)
  -- Prints the configuration.
  | config
  deriving DecidableEq, Repr

structure Invocation where
  action : Action
  verbose : Bool := false
  config : Option String := none
  format : Format := .text
  deriving DecidableEq, Repr

/-- Why a command line runs no command. -/
inductive Stop
  | help
  | version
  -- Nothing at all is given, so that help is due.
  | nothingGiven
  | missingCommand
  | missingPlan
  -- A setting has no value, or one that it does not take.
  | badValue
  -- An option is repeated on one side of the command.
  | repeated
  | unknownArgument
  -- A switch has a value.
  | unexpectedValue
  | unknownCommand
  deriving DecidableEq, Repr

/-- Help and the version are no errors. -/
def Stop.exitCode : Stop → Nat
  | help | version => 0
  | _ => 2

def programVersion : String := "nplan 0.1.0\n"

end DeployGate.Command
