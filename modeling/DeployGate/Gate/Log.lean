/-!
# Log records

What a run says about itself, as data: a level, the part of the program that speaks, a message and
named values.
-/

namespace DeployGate.Gate

inductive Level
  | debug
  | info
  | warn
  | error
  deriving DecidableEq, Repr

/-- The parts of the program that write log records. -/
inductive Speaker
  | run
  | gate
  | reporter
  | walk
  | planFile
  deriving DecidableEq, Repr

/-- The name under which a part's records can be filtered. -/
def Speaker.name : Speaker → String
  | run => "nplan_gate::source"
  | gate => "nplan_gate::gate"
  | reporter => "nplan_gate::report"
  | walk => "nplan_diff::walk"
  | planFile => "nplan::source"

inductive LogValue
  | text (value : String)
  | count (value : Nat)
  deriving DecidableEq, Repr

structure LogRecord where
  level : Level
  speaker : Speaker
  message : String
  values : List (String × LogValue) := []
  deriving DecidableEq, Repr

end DeployGate.Gate
