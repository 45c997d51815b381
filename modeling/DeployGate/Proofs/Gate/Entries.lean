import DeployGate.Gate.Decision
import DeployGate.Proofs.Walk.Steps

/-!
# The entries of a decision

What a decision hands to its observer is a list of entries that depends on the configuration and on
the job alone. The observer that collects all entries shows which they are, and every other observer
is handed the same ones. A reporter takes notice of the events among them.

## Main results

`decide_eq_foldl`: for every observer, the state after a decision is the left fold of the observer
over the entries. `decides`: what a decision can come to, from which everything else about decisions
follows. `Keeps.decide`: a reporter is handed the events of the decision.
-/

namespace DeployGate.Gate

open Plan (DiffType JobDiff)
open Walk (EmptyTaskPolicy Outcome Step changesOf collectChanges groupSteps)

/-- The observer that collects all entries. -/
def collect : Observer (List Entry) := fun entries entry => entries ++ [entry]

/-- What the gate answers, and the entries of the decision. -/
def decision (config : Config) (job : JobDiff) : Except Failure Verdict × List Entry :=
  decide collect config job []

/-! ### Every observer is handed the entries -/

theorem foldl_collect (entries more : List Entry) :
    more.foldl collect entries = entries ++ more :=
  Walk.foldl_append_singleton entries more

section

variable {σ : Type} (observe : Observer σ)

theorem walk_observe (policy : EmptyTaskPolicy) (job : JobDiff) (state : σ) :
    Walk.walk (fun state step => observe state (.ofStep step)) policy job state
      = (((groupSteps policy job.groups).1.map Entry.ofStep).foldl observe state,
          (collectChanges job policy).2) := by
  rw [Walk.walk_eq_foldl, Walk.collectChanges_eq, List.foldl_map]

/-- Every observer is handed the entries of the decision, and the answer is the same for all. -/
theorem decide_eq_foldl (config : Config) (job : JobDiff) (state : σ) :
    decide observe config job state
      = ((decision config job).1, (decision config job).2.foldl observe state) := by
  rw [decision, decide, decide]
  cases job.type with
  | added | none => rfl
  | edited =>
    -- the walk hands on the same steps to both, and the record behind them tells how it ended
    simp only [walk_observe, foldl_collect]
    simp only [collect, List.foldl_append, List.foldl_cons, List.foldl_nil]
  | deleted | unrecognized =>
    cases config.unrecognized with
    | reject | proceed => rfl

theorem fst_decide (config : Config) (job : JobDiff) (state : σ) :
    (decide observe config job state).1 = (decision config job).1 := by
  rw [decide_eq_foldl]

end

/-- The gate gives this answer, whoever observes it. -/
def Answers (config : Config) (job : JobDiff) (answer : Except Failure Verdict) : Prop :=
  ∀ (σ : Type) (observe : Observer σ) (state : σ), (decide observe config job state).1 = answer

theorem answers_iff {config : Config} {job : JobDiff} {answer : Except Failure Verdict} :
    Answers config job answer ↔ answer = (decision config job).1 := by
  constructor
  · intro answers
    exact (answers _ collect []).symm
  · rintro rfl σ observe state
    exact fst_decide observe config job state

/-! ### What a decision comes to -/

theorem proceeds_iff {answer : Except Failure Verdict} :
    proceeds answer = true ↔ ∃ verdict, answer = .ok verdict ∧ verdict.decision = .proceed := by
  rcases answer with failure | ⟨proceed | reason, type, walk⟩ <;>
    simp [proceeds, Verdict.proceeds, Decision.proceeds]

/-- The types of a job's diff about which only the policy decides. -/
inductive Undecided : DiffType → Prop
  | deleted : Undecided .deleted
  | unrecognized (raw : String) : Undecided (.unrecognized raw)

theorem undecided_iff {type : DiffType} :
    Undecided type ↔ type = .deleted ∨ ∃ raw, type = .unrecognized raw := by
  constructor
  · rintro (_ | raw)
    · exact .inl rfl
    · exact .inr ⟨raw, rfl⟩
  · rintro (rfl | ⟨raw, rfl⟩)
    · exact .deleted
    · exact .unrecognized raw

/-- The record that begins every decision. -/
def evaluating (job : JobDiff) : LogRecord :=
  ⟨.debug, .gate, "evaluating job diff",
    [("job", .text job.id), ("diff_type", .text job.type.toString)]⟩

/-- The answers of the gate, each with the entries that go with it. -/
inductive Decides (config : Config) (job : JobDiff) : Except Failure Verdict → List Entry → Prop
  | newJob : job.type = .added →
    Decides config job (.ok ⟨.proceed, .added, none⟩) [.log (evaluating job), .event .newJob]
  | noChanges : job.type = .none →
    Decides config job (.ok ⟨.halt Event.noChanges.message, .none, none⟩)
      [.log (evaluating job), .event .noChanges]
  | walked {outcome : Outcome} : job.type = .edited →
    outcome = (collectChanges job config.emptyTask).2 →
      Decides config job (.ok ⟨.proceed, .edited, some outcome⟩)
        (.log (evaluating job) :: ((groupSteps config.emptyTask job.groups).1.map Entry.ofStep
          ++ [.log (walkClosed job outcome)]))
  | rejected : Undecided job.type → config.unrecognized = .reject →
    Decides config job (.error (.unrecognizedDiffType job.type.toString))
      [.log (evaluating job), .event (.unrecognized job.type.toString)]
  | tolerated : Undecided job.type → config.unrecognized = .proceed →
    Decides config job (.ok ⟨.proceed, job.type, none⟩) [.log (evaluating job)]

/-- Every decision comes to one of these. -/
theorem decides (config : Config) (job : JobDiff) :
    Decides config job (decision config job).1 (decision config job).2 := by
  rw [decision, decide]
  have begun : collect [] (.log (evaluating job)) = [.log (evaluating job)] := rfl
  rw [evaluating] at begun
  rw [begun, ← evaluating]
  cases kind : job.type with
  | added => exact .newJob kind
  | none => exact .noChanges kind
  | edited =>
    -- the steps of the walk are collected behind the record
    rw [walk_observe, foldl_collect]
    exact .walked kind rfl
  | deleted | unrecognized =>
    have undecided : Undecided job.type := by
      rw [kind]
      constructor
    cases policy : config.unrecognized with
    | reject =>
      have rejected := Decides.rejected undecided policy
      rwa [kind] at rejected
    | proceed =>
      have tolerated := Decides.tolerated undecided policy
      rwa [kind] at tolerated

/-! ### Events and reporters -/

def Entry.event? : Entry → Option Event
  | .event reported => some reported
  | .log _ => none

def eventsOf (entries : List Entry) : List Event := entries.filterMap Entry.event?

@[simp] theorem eventsOf_nil : eventsOf [] = [] := rfl

@[simp] theorem eventsOf_event (event : Event) (entries : List Entry) :
    eventsOf (.event event :: entries) = event :: eventsOf entries := rfl

@[simp] theorem eventsOf_log (record : LogRecord) (entries : List Entry) :
    eventsOf (.log record :: entries) = eventsOf entries := rfl

@[simp] theorem eventsOf_append (entries more : List Entry) :
    eventsOf (entries ++ more) = eventsOf entries ++ eventsOf more :=
  List.filterMap_append

/-- Of the steps of a walk the changes are reported, and the others only logged. -/
@[simp] theorem eventsOf_map_ofStep (steps : List Step) :
    eventsOf (steps.map .ofStep) = (changesOf steps).map .fieldChanged := by
  induction steps with
  | nil => rfl
  | cons step steps ih =>
    cases step with
    | change change => exact congrArg (.fieldChanged change :: ·) ih
    | stopped | skipped => exact ih

/-- The observer keeps a reporter, which the events move on, and nothing else does. -/
structure Keeps {σ τ : Type} (observe : Observer σ) (reporter : σ → τ) (report : τ → Event → τ) :
    Prop where
  event : ∀ state event, reporter (observe state (.event event)) = report (reporter state) event
  log : ∀ state record, reporter (observe state (.log record)) = reporter state

theorem Keeps.foldl {σ τ : Type} {observe : Observer σ} {reporter : σ → τ}
    {report : τ → Event → τ} (keeps : Keeps observe reporter report) (entries : List Entry)
    (state : σ) :
    reporter (entries.foldl observe state) = (eventsOf entries).foldl report (reporter state) := by
  induction entries generalizing state with
  | nil => rfl
  | cons entry entries ih =>
    rw [List.foldl_cons, ih]
    cases entry with
    | event event => rw [keeps.event, eventsOf_event, List.foldl_cons]
    | log record => rw [keeps.log, eventsOf_log]

/-- A reporter is handed the events of the decision. -/
theorem Keeps.decide {σ τ : Type} {observe : Observer σ} {reporter : σ → τ}
    {report : τ → Event → τ} (keeps : Keeps observe reporter report) (config : Config)
    (job : JobDiff) (state : σ) :
    reporter (decide observe config job state).2
      = (eventsOf (decision config job).2).foldl report (reporter state) := by
  rw [decide_eq_foldl, keeps.foldl]

/-- A transcript keeps a reporter that records the events. -/
theorem keeps_record :
    Keeps Transcript.record Transcript.events fun events event => events ++ [event] :=
  ⟨fun _ _ => rfl, fun _ _ => rfl⟩

theorem keeps_recordAndLog :
    Keeps Transcript.recordAndLog Transcript.events fun events event => events ++ [event] :=
  ⟨fun _ _ => rfl, fun _ _ => rfl⟩

end DeployGate.Gate
