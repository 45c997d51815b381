import DeployGate.Gate.Decision
import DeployGate.Plan.Response

/-!
# Runs

A run fetches a diff from a source and puts it before the gate. A plan that cannot be had and a
failure of the gate are logged, and do not proceed.
-/

namespace DeployGate.Gate

open Plan (JobDiff)

/-- What fetching a diff comes to, and the log records it writes. -/
structure Source where
  diff : Except Failure JobDiff
  records : List LogRecord := []

namespace Source

def ofJob (job : JobDiff) : Source := ⟨.ok job, []⟩

def ofResponse (response : Plan.Response) : Source :=
  ⟨match response.diff with
    | some job => .ok job
    | none => .error .missingDiff, []⟩

def failing (failure : Failure) : Source := ⟨.error failure, []⟩

end Source

def runPlan (observe : Observer σ) (config : Config) (source : Source) (state : σ) : Bool × σ :=
  let state := observe state (.log ⟨.debug, .run, "triggering job plan", []⟩)
  let state := source.records.foldl (fun state record => observe state (.log record)) state
  match source.diff with
  | .error failure =>
    (false, observe state (.log ⟨.error, .run, "unable to run a job plan",
      [("error", .text failure.message)]⟩))
  | .ok job =>
    match decide observe config job state with
    | (.ok verdict, state) => (verdict.proceeds, state)
    | (.error failure, state) =>
      (false, observe state (.log ⟨.debug, .run, "gate refused job diff",
        [("job", .text job.id), ("error", .text failure.message)]⟩))

end DeployGate.Gate
