import DeployGate.Proofs.Gate.Agreement
import DeployGate.Proofs.Gate.Transcripts
import Mathlib.Data.List.Forall2

/-!
# What a decision says about itself

The records of a decision are written in turns by the gate, by the walk and by the reporter. What
the log says in the end agrees with the events and with the answer.

## Main result

`narrates`: what the events and the answer of a decision determine about its records behind the one
that begins it.
-/

namespace DeployGate.Gate

open Plan (JobDiff)
open Walk (FieldChange Outcome Step StopsAt changesOf collectChanges groupSteps)

/-! ### Landmarks -/

/-- The messages of the records that divide the log of a run. -/
def landmarks : List String :=
  ["triggering job plan", "unable to run a job plan", "evaluating job diff", "change walk complete",
    "change walk stopped at empty task", "gate refused job diff"]

/-- The landmarks among the messages of some records. -/
def landmarksOf (records : List LogRecord) : List String :=
  (records.map (·.message)).filter (· ∈ landmarks)

@[simp] theorem landmarksOf_nil : landmarksOf [] = [] := rfl

@[simp] theorem landmarksOf_append (records more : List LogRecord) :
    landmarksOf (records ++ more) = landmarksOf records ++ landmarksOf more := by
  rw [landmarksOf, List.map_append, List.filter_append, landmarksOf, landmarksOf]

theorem landmarksOf_eq_nil {records : List LogRecord}
    (other : ∀ record ∈ records, record.message ∉ landmarks) : landmarksOf records = [] := by
  simpa [landmarksOf] using other

/-- How the messages of events begin. -/
def openings : List (List Char) := [['g', 'r'], ['a', 'n'], ['p', 'l'], ['j', 'o'], ['n', 'o']]

theorem take_append_mem_openings {front : List Char} (rest : List Char)
    (opens : front.take 2 ∈ openings) : (front ++ rest).take 2 ∈ openings := by
  have two : ∀ opening ∈ openings, opening.length = 2 := by decide
  have long := two _ opens
  rw [List.length_take] at long
  rwa [List.take_append_of_le_length (by omega)]

theorem message_opening (event : Event) : event.message.toList.take 2 ∈ openings := by
  cases event with
  | newJob | noChanges => decide
  | unrecognized raw =>
    change ("job diff has unrecognized type '" ++ raw ++ "'").toList.take 2 ∈ openings
    rw [String.append_assoc, String.toList_append]
    exact take_append_mem_openings _ (by decide)
  | fieldChanged change =>
    change change.message.toList.take 2 ∈ openings
    rw [FieldChange.message]
    simp only [String.toList_append, List.append_assoc]
    -- the group stands first, or else the task, or neither is named
    split
    · split
      · simp only [String.toList_empty, List.nil_append]
        exact take_append_mem_openings _ (by decide)
      · simp only [String.toList_append, String.toList_empty, List.nil_append, List.append_assoc]
        exact take_append_mem_openings _ (by decide)
    · simp only [String.toList_append, List.append_assoc]
      exact take_append_mem_openings _ (by decide)

/-- No event is taken for a landmark, whatever names and values are in its message. -/
theorem message_not_landmark (event : Event) : event.message ∉ landmarks := by
  have apart : ∀ message ∈ landmarks, message.toList.take 2 ∉ openings := by decide
  exact fun inside => apart _ inside (message_opening event)

theorem ofStep_not_landmark (step : Step) : (Entry.ofStep step).toLog.message ∉ landmarks := by
  cases step with
  | change change => exact message_not_landmark (.fieldChanged change)
  | stopped | skipped =>
    simp only [Entry.ofStep, Entry.toLog]
    decide

theorem landmarksOf_event (event : Event) : landmarksOf [event.toLog] = [] :=
  landmarksOf_eq_nil (by simpa [Event.toLog] using message_not_landmark event)

/-! ### Events in the log -/

/-- An event in the log, with its level and its message. -/
inductive Echoes : Event → LogRecord → Prop
  | info {event : Event} {record : LogRecord} :
    event.severity = .info → record.level = .info → record.message = event.message →
      Echoes event record
  | error {event : Event} {record : LogRecord} :
    event.severity = .error → record.level = .error → record.message = event.message →
      Echoes event record

theorem echoes_toLog (event : Event) : Echoes event event.toLog := by
  cases severity : event.severity with
  | info => exact .info severity (by simp [Event.toLog, severity]) rfl
  | error => exact .error severity (by simp [Event.toLog, severity]) rfl

/-- The record is neither a warning nor for debugging. -/
def LogRecord.aloud (record : LogRecord) : Bool := record.level = .info || record.level = .error

theorem aloud_toLog (event : Event) : event.toLog.aloud = true := by
  cases severity : event.severity with
  | info | error => simp [LogRecord.aloud, Event.toLog, severity]

theorem aloud_debug {record : LogRecord} (debug : record.level = .debug) :
    record.aloud = false := by
  simp [LogRecord.aloud, debug]

section

variable {entries : List Entry}
  (debug : ∀ record, .log record ∈ entries → record.level = .debug)

include debug

/-- Where everything else is logged for debugging, the records that are aloud are the events. -/
theorem filter_aloud : (entries.map Entry.toLog).filter LogRecord.aloud
    = (eventsOf entries).map Event.toLog := by
  induction entries with
  | nil => rfl
  | cons entry entries ih =>
    have rest := ih fun record inside => debug record (List.mem_cons_of_mem entry inside)
    cases entry with
    | event event =>
      rw [eventsOf_event, List.map_cons, List.map_cons, Entry.toLog,
        List.filter_cons_of_pos (aloud_toLog event), rest]
    | log record =>
      have quiet := aloud_debug (debug record List.mem_cons_self)
      rw [eventsOf_log, List.map_cons, Entry.toLog,
        List.filter_cons_of_neg (by simp [quiet]), rest]

theorem forall₂_echoes :
    List.Forall₂ Echoes (eventsOf entries)
      ((entries.map Entry.toLog).filter LogRecord.aloud) := by
  rw [filter_aloud debug]
  exact List.forall₂_map_right_iff.mpr (List.forall₂_same.mpr fun event _ => echoes_toLog event)

end

/-! ### The end of a walk -/

/-- The record of a walk at the task at which it ends. -/
def stopping (group task : String) : LogRecord :=
  ⟨.debug, .walk, "edited task has no object diffs; stopping walk",
    [("group", .text group), ("task", .text task)]⟩

/-- The record of a step. -/
def stepLog (step : Step) : LogRecord := (Entry.ofStep step).toLog

theorem stepLog_eq_stopping_iff {step : Step} {group task : String} :
    stepLog step = stopping group task ↔ step = .stopped group task := by
  cases step with
  | change | stopped | skipped =>
    simp [stepLog, stopping, Entry.ofStep, Entry.toLog, Event.toLog]

theorem level_stepLog {step : Step} :
    (stepLog step).level = .info ↔ step.change?.isSome = true := by
  cases step with
  | change | stopped | skipped =>
    simp [stepLog, Entry.ofStep, Entry.toLog, Event.toLog, Event.severity, Step.change?]

theorem countP_info (steps : List Step) :
    (steps.map stepLog).countP (·.level = .info) = (changesOf steps).length := by
  rw [List.countP_map, changesOf, List.length_filterMap_eq_countP]
  refine List.countP_congr fun step _ => ?_
  simp [level_stepLog]

/-- A record that closes a walk, behind the records of its steps. -/
structure Closes (job : JobDiff) (outcome : Outcome) (steps : List LogRecord)
    (closing : LogRecord) : Prop where
  level : closing.level = .debug
  counted : outcome.emitted = steps.countP (·.level = .info)
  values : closing.values.lookup "job" = some (.text job.id) ∧
    closing.values.lookup "emitted" = some (.count outcome.emitted)
  complete_iff : closing.message = "change walk complete" ↔ outcome.isHalted = false
  stopped_iff : closing.message = "change walk stopped at empty task" ↔ outcome.isHalted = true
  -- The walk names the task itself where it ends, and nowhere else.
  stopping_iff : (∃ group task, stopping group task ∈ steps) ↔ outcome.isHalted = true
  place : ∀ group task emitted, outcome = .halted group task emitted →
    closing.values.lookup "group" = some (.text group) ∧
      closing.values.lookup "task" = some (.text task) ∧
      ∃ front, steps = front ++ [stopping group task]

theorem stopping_mem_iff {steps : List Step} {group task : String} :
    stopping group task ∈ steps.map stepLog ↔ .stopped group task ∈ steps := by
  simp [stepLog_eq_stopping_iff]

theorem closes_of_stopsAt (job : JobDiff) {steps : List Step} {stop : Option (String × String)}
    (stops : StopsAt steps stop) :
    Closes job (.ofStop (changesOf steps).length stop) (steps.map stepLog)
      (walkClosed job (.ofStop (changesOf steps).length stop)) := by
  cases stops with
  | through through =>
    refine ⟨rfl, (countP_info steps).symm, ⟨rfl, rfl⟩, ⟨fun _ => rfl, fun _ => rfl⟩, ?_, ?_, ?_⟩
    · simp [Outcome.ofStop, walkClosed, Outcome.isHalted]
    · -- a walk that gets through has no step at which it ends
      simp only [stopping_mem_iff, through, exists_const, Outcome.ofStop, Outcome.isHalted]
      simp
    · rintro group task emitted ⟨⟩
  | stopped front group task through =>
    refine ⟨rfl, (countP_info _).symm, ⟨rfl, rfl⟩, ?_, ⟨fun _ => rfl, fun _ => rfl⟩, ?_, ?_⟩
    · simp [Outcome.ofStop, walkClosed, Outcome.isHalted]
    · exact ⟨fun _ => rfl, fun _ => ⟨group, task, stopping_mem_iff.mpr (by simp)⟩⟩
    · rintro _ _ _ ⟨⟩
      exact ⟨rfl, rfl, front.map stepLog, List.map_append⟩

/-- The record behind a walk closes it. -/
theorem closes_walkClosed (config : Config) (job : JobDiff) :
    Closes job (collectChanges job config.emptyTask).2
      ((groupSteps config.emptyTask job.groups).1.map stepLog)
      (walkClosed job (collectChanges job config.emptyTask).2) := by
  rw [Walk.collectChanges_eq]
  exact closes_of_stopsAt job (Walk.groupSteps_stopsAt config.emptyTask job.groups)

/-! ### Decisions -/

/-- The landmarks behind the beginning of a decision. -/
def endings : Except Failure Verdict → List String
  | .error _ => ["gate refused job diff"]
  | .ok verdict =>
    match verdict.walk with
    | none => []
    | some (.completed _) => ["change walk complete"]
    | some (.halted ..) => ["change walk stopped at empty task"]

theorem mem_endings (answer : Except Failure Verdict) :
    endings answer ∈ [[], ["change walk complete"], ["change walk stopped at empty task"],
      ["gate refused job diff"]] := by
  rcases answer with failure | ⟨decision, type, _ | ⟨emitted⟩ | ⟨group, task, emitted⟩⟩ <;>
    simp [endings]

theorem refused_mem_endings_iff {answer : Except Failure Verdict} :
    "gate refused job diff" ∈ endings answer ↔ ∃ failure, answer = .error failure := by
  rcases answer with failure | ⟨decision, type, _ | ⟨emitted⟩ | ⟨group, task, emitted⟩⟩ <;>
    simp [endings]

/-- What the events and the answer of a decision determine about the records that are logged behind
the one that begins it. -/
structure Narrates (job : JobDiff) (answer : Except Failure Verdict) (events : List Event)
    (after : List LogRecord) : Prop where
  echoed : List.Forall₂ Echoes events (after.filter LogRecord.aloud)
  calm : ∀ record ∈ after, record.level ≠ .warn
  landmarks : landmarksOf after = endings answer
  refused : ∀ failure, answer = .error failure → ∃ front, after = front ++ [refused job failure]
  walked : job.type = .edited → ∃ verdict outcome, answer = .ok verdict ∧
    verdict.walk = some outcome ∧
      ∃ steps closing, after = steps ++ [closing] ∧ Closes job outcome steps closing
  unwalked : job.type ≠ .edited → ∀ verdict, answer = .ok verdict → verdict.walk = none

variable {config : Config} {job : JobDiff} {answer : Except Failure Verdict} {entries : List Entry}

/-- The records of a decision behind the one that begins it, and the one of a refusal. -/
def afterwards (job : JobDiff) (answer : Except Failure Verdict) (entries : List Entry) :
    List LogRecord :=
  entries.tail.map Entry.toLog ++ refusal job answer

theorem afterwards_walked (verdict : Verdict) (steps : List Step) (outcome : Outcome) :
    afterwards job (.ok verdict)
        (.log (evaluating job) :: (steps.map Entry.ofStep ++ [.log (walkClosed job outcome)]))
      = steps.map stepLog ++ [walkClosed job outcome] := by
  simp [afterwards, refusal, stepLog, Entry.toLog]

namespace Decides

theorem begins (decides : Decides config job answer entries) :
    entries.map Entry.toLog ++ refusal job answer
      = evaluating job :: afterwards job answer entries := by
  cases decides with
  | newJob | noChanges | walked | rejected | tolerated => rfl

/-- Whatever is not an event is logged for debugging. -/
theorem debug (decides : Decides config job answer entries) :
    ∀ record, .log record ∈ entries.tail → record.level = .debug := by
  cases decides with
  | newJob | noChanges | rejected | tolerated => simp
  | @walked outcome =>
    intro record inside
    simp only [List.tail_cons, List.mem_append, List.mem_map, List.mem_singleton] at inside
    rcases inside with ⟨step, -, same⟩ | same
    · cases step with
      | change => cases same
      | stopped | skipped =>
        cases same
        rfl
    · cases same
      cases outcome with
      | completed | halted => rfl

theorem eventsOf_tail (decides : Decides config job answer entries) :
    eventsOf entries.tail = eventsOf entries := by
  cases decides with
  | newJob | noChanges | walked | rejected | tolerated => rfl

theorem debug_refusal : ∀ record ∈ refusal job answer, record.level = .debug := by
  cases answer with
  | ok | error => simp [refusal, refused]

theorem echoed (decides : Decides config job answer entries) :
    List.Forall₂ Echoes (eventsOf entries)
      ((afterwards job answer entries).filter LogRecord.aloud) := by
  have quiet : (refusal job answer).filter LogRecord.aloud = [] := by
    refine List.filter_eq_nil_iff.mpr fun record inside => ?_
    simp [aloud_debug (debug_refusal record inside)]
  rw [afterwards, List.filter_append, quiet, List.append_nil, ← decides.eventsOf_tail]
  exact forall₂_echoes decides.debug

theorem calm (decides : Decides config job answer entries) :
    ∀ record ∈ afterwards job answer entries, record.level ≠ .warn := by
  intro record inside
  -- events are never warnings, and the rest is logged for debugging
  rcases List.mem_append.mp inside with written | refused
  · obtain ⟨entry, found, rfl⟩ := List.mem_map.mp written
    cases entry with
    | event event =>
      rcases echoes_toLog event with ⟨-, level, -⟩ | ⟨-, level, -⟩ <;> simp [Entry.toLog, level]
    | log record => simp [Entry.toLog, decides.debug record found]
  · simp [debug_refusal record refused]

theorem landmarks (decides : Decides config job answer entries) :
    landmarksOf (afterwards job answer entries) = endings answer := by
  cases decides with
  | newJob => exact landmarksOf_event .newJob
  | noChanges => exact landmarksOf_event .noChanges
  | tolerated => rfl
  | rejected =>
    rw [afterwards, landmarksOf_append]
    exact congrArg (· ++ _) (landmarksOf_event (.unrecognized job.type.toString))
  | @walked outcome =>
    have steps : landmarksOf ((groupSteps config.emptyTask job.groups).1.map stepLog) = [] :=
      landmarksOf_eq_nil (List.forall_mem_map.mpr fun step _ => ofStep_not_landmark step)
    rw [afterwards_walked, landmarksOf_append, steps, List.nil_append]
    cases outcome with
    | completed | halted => rfl

theorem narrates (decides : Decides config job answer entries) :
    Narrates job answer (eventsOf entries) (afterwards job answer entries) where
  echoed := decides.echoed
  calm := decides.calm
  landmarks := decides.landmarks
  refused := by
    rintro failure rfl
    exact ⟨_, rfl⟩
  walked := by
    intro edited
    cases decides with
    | newJob kind | noChanges kind => cases edited.symm.trans kind
    | walked kind ended =>
      subst ended
      exact ⟨_, _, rfl, rfl, _, _, afterwards_walked _ _ _, closes_walkClosed config job⟩
    | rejected undecided | tolerated undecided =>
      rw [edited] at undecided
      cases undecided
  unwalked := by
    rintro other verdict rfl
    cases decides with
    | newJob | noChanges | tolerated => rfl
    | walked kind => exact absurd kind other

end Decides

end DeployGate.Gate
