import DeployGate.Proofs.Gate.Approval
import DeployGate.Proofs.Gate.Entries

/-!
# Transcripts of runs

A transcript that also logs the events takes in every entry of a run: the events apart, and all of
them as records. So a run with a diff leaves the events of the decision, and the records of the run,
of its source and of the decision one after the other.

## Main result

`runPlan_success`: the answer of a run with a diff and all that it leaves in a transcript.
-/

namespace DeployGate.Gate

open Plan (JobDiff)

/-- The record of an entry. An event is logged where it is reported. -/
def Entry.toLog : Entry → LogRecord
  | .event reported => reported.toLog
  | .log written => written

theorem foldl_recordAndLog (entries : List Entry) (transcript : Transcript) :
    entries.foldl Transcript.recordAndLog transcript
      = ⟨transcript.events ++ eventsOf entries,
          transcript.records ++ entries.map Entry.toLog⟩ := by
  induction entries generalizing transcript with
  | nil => simp
  | cons entry entries ih =>
    rw [List.foldl_cons, ih]
    cases entry with
    | event | log => simp [Transcript.recordAndLog, Transcript.record, Entry.toLog]

/-- The record that begins every run. -/
def triggering : LogRecord := ⟨.debug, .run, "triggering job plan", []⟩

/-- The record that ends a run without a diff. -/
def unable (failure : Failure) : LogRecord :=
  ⟨.error, .run, "unable to run a job plan", [("error", .text failure.message)]⟩

/-- The record of a failed decision. -/
def refused (job : JobDiff) (failure : Failure) : LogRecord :=
  ⟨.debug, .run, "gate refused job diff",
    [("job", .text job.id), ("error", .text failure.message)]⟩

/-- What the run logs behind a decision. -/
def refusal (job : JobDiff) : Except Failure Verdict → List LogRecord
  | .ok _ => []
  | .error failure => [refused job failure]

theorem failureRecords_eq (source : Source) (failure : Failure) :
    failureRecords source failure = triggering :: source.records ++ [unable failure] :=
  rfl

/-- The records of a run with a diff. -/
def decisionRecords (config : Config) (source : Source) (job : JobDiff) : List LogRecord :=
  triggering :: source.records ++ (decision config job).2.map Entry.toLog
    ++ refusal job (decision config job).1

/-- A run with a diff answers what the decision about it comes to. It reports the events of the
decision, and logs all of it behind the records of its source. -/
theorem runPlan_success {source : Source} {job : JobDiff} (fetched : source.diff = .ok job)
    (config : Config) (transcript : Transcript) :
    runPlan Transcript.recordAndLog config source transcript
      = (proceeds (decision config job).1,
          ⟨transcript.events ++ eventsOf (decision config job).2,
            transcript.records ++ decisionRecords config source job⟩) := by
  rw [runPlan, foldl_log, fetched]
  simp only [decide_eq_foldl, foldl_recordAndLog, decisionRecords]
  cases (decision config job).1 with
  | ok verdict =>
    simp [Transcript.recordAndLog, Transcript.record, triggering, refusal, proceeds]
  | error failure =>
    simp [Transcript.recordAndLog, Transcript.record, triggering, refusal, refused, proceeds]

end DeployGate.Gate
