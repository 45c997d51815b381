/-!
# Failures

Why the gate could not decide.
-/

namespace DeployGate.Gate

inductive Failure
  -- The type of the job's diff is rejected.
  | unrecognizedDiffType (raw : String)
  -- The plan response has no diff.
  | missingDiff
  -- The plan could not be had.
  | source (reason : String)
  | config (reason : String)
  deriving DecidableEq, Repr

namespace Failure

def message : Failure → String
  | unrecognizedDiffType raw => "unrecognized job diff type '" ++ raw ++ "'"
  | missingDiff => "plan response does not contain a job diff"
  | source reason => "plan source error: " ++ reason
  | config reason => "configuration error: " ++ reason

/-- Failures are told apart by their messages. -/
def agrees (a b : Failure) : Bool := a.message == b.message

end Failure

end DeployGate.Gate
