import DeployGate.Files.Reading
import DeployGate.Gate.Run
import DeployGate.Plan.Reading

/-!
# Plans in files

A plan that is read from a file or from the standard input: a plan response, or a job's diff alone,
which stands for a response with nothing else in it. Fetching the diff also logs the warnings of the
response and the groups that could not be placed, even when there is no diff.
-/

namespace DeployGate.Gate

open Files (Inputs Location)
open Plan (JobDiff Response)

/-- A plan cannot be had of a document that cannot be decoded. -/
def Failure.undecodable (detail : String) : Failure := .source (Plan.unreadable detail)

structure PlanFile where
  location : Location
  bareDiff : Bool := false
  deriving DecidableEq, Repr

namespace PlanFile

/-- The plan that an argument names; `-` is the standard input. -/
def ofArgument (plan : String) (bareDiff : Bool) : PlanFile :=
  ⟨if plan = "-" then .standardInput else .file plan, bareDiff⟩

def decode (file : PlanFile) (document : String) : Except Json.Defect Response :=
  if file.bareDiff then (JobDiff.ofJson document).map fun job => { diff := some job }
  else Response.ofJson document

def load (file : PlanFile) (inputs : Inputs) : Except Failure Response :=
  match inputs.text file.location with
  | .error fault =>
    .error (.source ("reading " ++ file.location.describe ++ ": " ++ fault.message))
  | .ok document =>
    (file.decode document).mapError fun defect => .undecodable defect.message

def warnings (response : Response) : List LogRecord :=
  response.warningLines.map (fun line =>
    ⟨.warn, .planFile, "scheduler warning", [("line", .text line)]⟩)
  ++ response.unplacedGroups.map fun group =>
    ⟨.warn, .planFile, "scheduler could not place all allocations for group",
      [("group", .text group)]⟩

def fetch (file : PlanFile) (inputs : Inputs) : Source :=
  match file.load inputs with
  | .error failure => .failing failure
  | .ok response => { Source.ofResponse response with records := warnings response }

end PlanFile

end DeployGate.Gate
