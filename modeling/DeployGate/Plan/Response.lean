import DeployGate.Json.Canonical
import DeployGate.Plan.Diff
import DeployGate.Text.Lines

/-!
# Plan responses

The scheduler's answer to a plan request. Only the diff decides about a deployment; the warnings
and the groups that found no place are shown next to it.
-/

namespace DeployGate.Plan

structure Response where
  diff : Option JobDiff := none
  jobModifyIndex : UInt64 := 0
  warnings : String := ""
  -- The task groups that could not be placed, with what the scheduler says about each.
  unplaced : Option Json.Members := none
  deriving DecidableEq, Repr

namespace Response

/-- The names of the groups that could not be placed, ascending. -/
def unplacedGroups (response : Response) : List String :=
  match response.unplaced with
  | none => []
  | some members => members.keys

def warningLines (response : Response) : List String :=
  (Text.solidLines response.warnings.toList).map String.ofList

end Response

end DeployGate.Plan
