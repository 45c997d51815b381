import DeployGate.Gate.Log
import DeployGate.Walk.Change

/-!
# Plan events

What the gate has to say about a plan.
-/

namespace DeployGate.Gate

open Walk (FieldChange)

inductive Severity
  | info
  | error
  deriving DecidableEq, Repr

inductive Event
  -- The job does not run yet.
  | newJob
  -- The candidate is the running job.
  | noChanges
  | fieldChanged (change : FieldChange)
  -- Nothing is decided about the type of the job's diff.
  | unrecognized (raw : String)
  deriving DecidableEq, Repr

namespace Event

def severity : Event → Severity
  | newJob | fieldChanged _ => .info
  | noChanges | unrecognized _ => .error

def message : Event → String
  | newJob => "job is a new addition to the cluster"
  | noChanges => "no changes detected for job"
  | fieldChanged change => change.message
  | unrecognized raw => "job diff has unrecognized type '" ++ raw ++ "'"

def change? : Event → Option FieldChange
  | fieldChanged change => some change
  | _ => none

/-- The event as a log record. A changed field is also named by its place. -/
def toLog (event : Event) : LogRecord where
  level := match event.severity with
    | .info => .info
    | .error => .error
  speaker := .reporter
  message := event.message
  values := match event with
    | fieldChanged change =>
      [("group", .text change.group), ("task", .text change.task),
        ("object", .text change.object), ("field", .text change.field)]
    | _ => []

end Event

end DeployGate.Gate
