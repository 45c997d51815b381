import DeployGate.Proofs.Gate.Entries

/-!
# Answers and events agree

What the gate answers, the events it reports and the outcome of its walk are three views of one
decision. Whoever reads only one of them is not misled: the answers that do not proceed are those
that come with an event of error severity, and the answers with a walk are those whose events are
the changes of the walk.

## Main result

`decide_agrees`: for every configuration and job, the answer and the events agree, and the events
are appended to those reported before, whatever these are.
-/

namespace DeployGate.Gate

open Plan (JobDiff)
open Walk (EmptyTaskPolicy FieldChange Outcome collectChanges groupSteps)

/-- What the answer and the events of one decision have to do with each other. -/
structure Agrees (config : Config) (job : JobDiff) (answer : Except Failure Verdict)
    (events : List Event) : Prop where
  proceeds_iff : proceeds answer = true ↔
    ∃ verdict, answer = .ok verdict ∧ verdict.decision = .proceed
  alarm_iff : (∃ event ∈ events, event.severity = .error) ↔ proceeds answer = false
  -- No other event comes with an alarm.
  alone : ∀ event ∈ events, event.severity = .error → events = [event]
  walk_iff : (∃ verdict outcome, answer = .ok verdict ∧ verdict.walk = some outcome) ↔
    (∃ verdict, answer = .ok verdict) ∧ job.type = .edited
  -- The events of a walk are its changes, in order, and nothing else.
  walked : ∀ verdict outcome, answer = .ok verdict → verdict.walk = some outcome →
    events = (collectChanges job config.emptyTask).1.map .fieldChanged
      ∧ outcome = (collectChanges job config.emptyTask).2
      ∧ (events.filterMap Event.change?).length = outcome.emitted
  -- Without a walk no change is an event.
  changed : ∀ change, .fieldChanged change ∈ events →
    ∃ verdict outcome, answer = .ok verdict ∧ verdict.walk = some outcome
  error_iff : (∃ failure, answer = .error failure) ↔
    Undecided job.type ∧ config.unrecognized = .reject
  -- The failure and the only event have the same text for the type.
  named : ∀ failure, answer = .error failure →
    failure = .unrecognizedDiffType job.type.toString
      ∧ events = [.unrecognized job.type.toString]
  silent : Undecided job.type → proceeds answer = true → events = []

/-! ### The changes of a walk -/

theorem filterMap_change?_map (changes : List FieldChange) :
    (changes.map Event.fieldChanged).filterMap Event.change? = changes := by
  rw [List.filterMap_map]
  exact List.filterMap_some

/-! ### Every decision agrees -/

namespace Decides

variable {config : Config} {job : JobDiff} {answer : Except Failure Verdict} {entries : List Entry}

theorem alarm_iff (decides : Decides config job answer entries) :
    (∃ event ∈ eventsOf entries, event.severity = .error) ↔ proceeds answer = false := by
  cases decides with
  | newJob | noChanges | walked | rejected | tolerated =>
    simp [Event.severity, proceeds, Verdict.proceeds, Decision.proceeds]

theorem alone (decides : Decides config job answer entries) :
    ∀ event ∈ eventsOf entries, event.severity = .error → eventsOf entries = [event] := by
  cases decides with
  | newJob | noChanges | walked | rejected | tolerated => simp [Event.severity]

theorem walk_iff (decides : Decides config job answer entries) :
    (∃ verdict outcome, answer = .ok verdict ∧ verdict.walk = some outcome) ↔
      (∃ verdict, answer = .ok verdict) ∧ job.type = .edited := by
  cases decides with
  | newJob kind | noChanges kind | walked kind => simp [kind]
  | rejected => simp
  | tolerated undecided =>
    rcases undecided_iff.mp undecided with kind | ⟨raw, kind⟩ <;> simp [kind]

theorem walked_events {verdict : Verdict} {outcome : Outcome}
    (decides : Decides config job (.ok verdict) entries) (walk : verdict.walk = some outcome) :
    eventsOf entries = (collectChanges job config.emptyTask).1.map .fieldChanged
      ∧ outcome = (collectChanges job config.emptyTask).2 := by
  cases decides with
  | newJob | noChanges | tolerated => cases walk
  | walked kind ended =>
    cases walk
    simp [Walk.collectChanges_eq, ended]

/-- The events change as many fields as the walk counts, and none without a walk. -/
theorem changes_length {verdict : Verdict} (decides : Decides config job (.ok verdict) entries) :
    ((eventsOf entries).filterMap Event.change?).length = verdict.walk.elim 0 Outcome.emitted := by
  cases walk : verdict.walk with
  | none =>
    cases decides with
    | newJob | noChanges | tolerated => rfl
    | walked => cases walk
  | some outcome =>
    obtain ⟨events, ended⟩ := decides.walked_events walk
    rw [events, filterMap_change?_map, ended, Option.elim_some, Walk.emitted_collectChanges]

theorem changed (decides : Decides config job answer entries) {change : FieldChange}
    (reported : .fieldChanged change ∈ eventsOf entries) :
    ∃ verdict outcome, answer = .ok verdict ∧ verdict.walk = some outcome := by
  cases decides with
  | newJob | noChanges | rejected | tolerated => simp at reported
  | walked => exact ⟨_, _, rfl, rfl⟩

theorem error_iff (decides : Decides config job answer entries) :
    (∃ failure, answer = .error failure) ↔
      Undecided job.type ∧ config.unrecognized = .reject := by
  cases decides with
  | newJob kind | noChanges kind | walked kind => simp [kind, undecided_iff]
  | rejected undecided policy => simp [undecided, policy]
  | tolerated undecided policy => simp [policy]

theorem named {failure : Failure} (decides : Decides config job (.error failure) entries) :
    failure = .unrecognizedDiffType job.type.toString
      ∧ eventsOf entries = [.unrecognized job.type.toString] := by
  cases decides with
  | rejected => exact ⟨rfl, rfl⟩

theorem silent (decides : Decides config job answer entries) (undecided : Undecided job.type)
    (proceeding : proceeds answer = true) : eventsOf entries = [] := by
  cases decides with
  | newJob kind | noChanges kind | walked kind => simp [kind, undecided_iff] at undecided
  | rejected => cases proceeding
  | tolerated => rfl

theorem agrees (decides : Decides config job answer entries) :
    Agrees config job answer (eventsOf entries) where
  proceeds_iff := Gate.proceeds_iff
  alarm_iff := decides.alarm_iff
  alone := decides.alone
  walk_iff := decides.walk_iff
  walked := by
    rintro verdict outcome rfl walk
    obtain ⟨events, ended⟩ := decides.walked_events walk
    have counted := decides.changes_length
    rw [walk, Option.elim_some] at counted
    exact ⟨events, ended, counted⟩
  changed := fun _ => decides.changed
  error_iff := decides.error_iff
  named := by
    rintro failure rfl
    exact decides.named
  silent := decides.silent

end Decides

/-! ### Decisions one after the other -/

/-- Deciding appends the events of the decision to those of the transcript. -/
theorem decide_record (config : Config) (job : JobDiff) (transcript : Transcript) :
    (decide Transcript.record config job transcript).1 = (decision config job).1
      ∧ (decide Transcript.record config job transcript).2.events
          = transcript.events ++ eventsOf (decision config job).2 := by
  refine ⟨fst_decide _ config job transcript, ?_⟩
  rw [keeps_record.decide, Walk.foldl_append_singleton]

/-- Decisions on one transcript append what each of them appends alone. -/
theorem foldl_decide_record (calls : List (Config × JobDiff)) (transcript : Transcript) :
    (calls.foldl (fun transcript call => (decide Transcript.record call.1 call.2 transcript).2)
        transcript).events
      = transcript.events ++ calls.flatMap fun call => eventsOf (decision call.1 call.2).2 := by
  induction calls generalizing transcript with
  | nil => rw [List.foldl_nil, List.flatMap_nil, List.append_nil]
  | cons call calls ih =>
    rw [List.foldl_cons, ih, (decide_record call.1 call.2 transcript).2, List.flatMap_cons,
      List.append_assoc]

/-- The answer, the events and the walk of every decision agree. The events are appended to what
was reported before and do not depend on it, so that decisions one after the other append what each
of them reports on its own. -/
theorem decide_agrees :
    (∀ config job, ∃ answer events, Agrees config job answer events ∧
        ∀ transcript, (decide Transcript.record config job transcript).1 = answer
          ∧ (decide Transcript.record config job transcript).2.events
              = transcript.events ++ events)
      ∧ ∀ (calls : List (Config × JobDiff)) transcript,
          (calls.foldl
              (fun transcript call => (decide Transcript.record call.1 call.2 transcript).2)
              transcript).events
            = transcript.events ++ calls.flatMap fun call =>
                (decide Transcript.record call.1 call.2 {}).2.events := by
  constructor
  · intro config job
    exact ⟨_, _, (decides config job).agrees, decide_record config job⟩
  · intro calls transcript
    rw [foldl_decide_record]
    -- from an empty transcript a decision reports its own events and no others
    have alone (call : Config × JobDiff) :
        (decide Transcript.record call.1 call.2 {}).2.events
          = eventsOf (decision call.1 call.2).2 :=
      (decide_record call.1 call.2 {}).2
    simp only [alone]

end DeployGate.Gate
