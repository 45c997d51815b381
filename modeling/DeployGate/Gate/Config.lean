import DeployGate.Walk.Traversal

/-!
# Gate configuration

Two policies: what happens on a type of diff about which nothing is decided, and what happens on an
edited task without objects.
-/

namespace DeployGate.Gate

open Walk (EmptyTaskPolicy)

/-- What happens on a deleted job or one of unrecognized type. -/
inductive UnrecognizedPolicy
  | reject
  | proceed
  deriving DecidableEq, Repr

structure Config where
  unrecognized : UnrecognizedPolicy := .reject
  emptyTask : EmptyTaskPolicy := .abortWalk
  deriving DecidableEq, Repr, Inhabited

/-- Unrecognized types proceed, and an empty edited task ends the walk. -/
def Config.legacy : Config := ⟨.proceed, .abortWalk⟩

def unrecognizedPolicies : List (String × UnrecognizedPolicy) :=
  [("reject", .reject), ("proceed", .proceed)]

def emptyTaskPolicies : List (String × EmptyTaskPolicy) :=
  [("abort-walk", .abortWalk), ("skip-task", .skipTask)]

def UnrecognizedPolicy.name : UnrecognizedPolicy → String
  | reject => "reject"
  | proceed => "proceed"

end DeployGate.Gate
