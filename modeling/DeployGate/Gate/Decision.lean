import DeployGate.Gate.Config
import DeployGate.Gate.Failure
import DeployGate.Gate.Transcript

/-!
# Decisions

The type of the job's diff decides: a new job proceeds, an unchanged one halts, an edited one
proceeds after a walk over its changes, and for every other type the policy decides between an
error and proceeding in silence.
-/

namespace DeployGate.Gate

open Plan (DiffType JobDiff)
open Walk (Step Outcome)

inductive Decision
  | proceed
  | halt (reason : String)
  deriving DecidableEq, Repr

def Decision.proceeds : Decision → Bool
  | proceed => true
  | halt _ => false

/-- A decision, the type it rests on, and how the walk ended if there was one. -/
structure Verdict where
  decision : Decision
  diffType : DiffType
  walk : Option Outcome := none
  deriving DecidableEq, Repr

def Verdict.proceeds (verdict : Verdict) : Bool := verdict.decision.proceeds

/-- A failure does not proceed. -/
def proceeds : Except Failure Verdict → Bool
  | .ok verdict => verdict.proceeds
  | .error _ => false

def Entry.ofStep : Step → Entry
  | .change change => .event (.fieldChanged change)
  | .stopped group task =>
    .log ⟨.debug, .walk, "edited task has no object diffs; stopping walk",
      [("group", .text group), ("task", .text task)]⟩
  | .skipped group task =>
    .log ⟨.debug, .walk, "edited task has no object diffs; skipping",
      [("group", .text group), ("task", .text task)]⟩

def walkClosed (job : JobDiff) : Outcome → LogRecord
  | .completed emitted =>
    ⟨.debug, .gate, "change walk complete", [("job", .text job.id), ("emitted", .count emitted)]⟩
  | .halted group task emitted =>
    ⟨.debug, .gate, "change walk stopped at empty task",
      [("job", .text job.id), ("group", .text group), ("task", .text task),
        ("emitted", .count emitted)]⟩

def decide (observe : Observer σ) (config : Config) (job : JobDiff) (state : σ) :
    Except Failure Verdict × σ :=
  let state := observe state (.log ⟨.debug, .gate, "evaluating job diff",
    [("job", .text job.id), ("diff_type", .text job.type.toString)]⟩)
  match job.type with
  | .added => (.ok ⟨.proceed, .added, none⟩, observe state (.event .newJob))
  | .none =>
    (.ok ⟨.halt Event.noChanges.message, .none, none⟩, observe state (.event .noChanges))
  | .edited =>
    let (state, outcome) :=
      Walk.walk (fun state step => observe state (.ofStep step)) config.emptyTask job state
    (.ok ⟨.proceed, .edited, some outcome⟩, observe state (.log (walkClosed job outcome)))
  | type =>
    match config.unrecognized with
    | .reject =>
      (.error (.unrecognizedDiffType type.toString),
        observe state (.event (.unrecognized type.toString)))
    | .proceed => (.ok ⟨.proceed, type, none⟩, state)

/-- The decision as an answer alone. -/
def shouldProceed (observe : Observer σ) (config : Config) (job : JobDiff) (state : σ) : Bool × σ :=
  match decide observe config job state with
  | (.ok verdict, state) => (verdict.proceeds, state)
  | (.error _, state) => (false, state)

end DeployGate.Gate
