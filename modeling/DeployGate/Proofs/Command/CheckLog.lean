import DeployGate.Proofs.Command.FailClosed
import DeployGate.Proofs.Gate.Narration
import Mathlib.Data.List.Nodup

/-!
# The log of a check

Five parts of the program write to the log of a check. What they write there one after the other has
a fixed form, whatever the plan is, and it agrees with the events and with the answer.

## Main result

`check_log`: the records of a check in order, and which of them occur once.
-/

namespace DeployGate.Command

open Files (Inputs)
open Gate (Answers Config Event LogRecord Narrates evaluating landmarks landmarksOf triggering
  unable)
open Plan (JobDiff Response)

/-- The plan response that a check decodes, with a diff in it or without one. -/
def Responded (inputs : Inputs) (options : CheckOptions) (response : Response) : Prop :=
  options.bareDiff = false ∧ ∃ text, inputs.bytes options.location = .ok text.toUTF8 ∧
    Response.ofJson text = .ok response

/-- A line of the scheduler's warnings. -/
def warned (line : String) : LogRecord :=
  ⟨.warn, .planFile, "scheduler warning", [("line", .text line)]⟩

/-- A group that could not be placed. -/
def unplaced (group : String) : LogRecord :=
  ⟨.warn, .planFile, "scheduler could not place all allocations for group",
    [("group", .text group)]⟩

/-- What the log tells about a plan before its diff is looked at. -/
inductive Told (inputs : Inputs) (options : CheckOptions) : List LogRecord → Prop
  | response {response : Response} : Responded inputs options response →
    response.unplacedGroups.Pairwise Text.Precedes →
      Told inputs options
        (response.warningLines.map warned ++ response.unplacedGroups.map unplaced)
  | nothing : (∀ response, ¬Responded inputs options response) → Told inputs options []

/-- What the log tells in the end, and the events that go with it. -/
inductive Concludes (inputs : Inputs) (options : CheckOptions) (settings : Config) :
    List LogRecord → List Event → Prop
  | unable {failure : Gate.Failure} : (¬∃ job, Planned inputs options job) →
    Concludes inputs options settings [unable failure] []
  | decided {job : JobDiff} {answer : Except Gate.Failure Gate.Verdict} {events : List Event}
    {after : List LogRecord} : Planned inputs options job →
    Answers (options.override settings) job answer → Narrates job answer events after →
      Concludes inputs options settings (evaluating job :: after) events

section

variable {inputs : Inputs} {options : CheckOptions} {settings : Config}

/-! ### Warnings -/

theorem unplacedGroups_ascending (response : Response) :
    response.unplacedGroups.Pairwise Text.Precedes := by
  rw [Response.unplacedGroups]
  cases response.unplaced with
  | none => exact .nil
  | some members => exact members.ascending

theorem load_iff {response : Response} (full : options.bareDiff = false) :
    (Gate.PlanFile.ofArgument options.plan options.bareDiff).load inputs = .ok response ↔
      Responded inputs options response := by
  simp [Gate.PlanFile.load_iff, Gate.text_iff, Responded, Gate.PlanFile.decode,
    Gate.PlanFile.ofArgument, full, CheckOptions.location]

theorem bare_records (bare : options.bareDiff = true) : (options.source inputs).records = [] := by
  rw [CheckOptions.source, Gate.PlanFile.fetch]
  cases loaded : (Gate.PlanFile.ofArgument options.plan options.bareDiff).load inputs with
  | error failure => rfl
  | ok response =>
    -- the diff stands for a response with nothing else in it
    obtain ⟨text, -, decoded⟩ := Gate.PlanFile.load_iff.mp loaded
    rw [Gate.PlanFile.decode, Gate.PlanFile.ofArgument, if_pos bare] at decoded
    cases spelled : JobDiff.ofJson text with
    | error defect =>
      rw [spelled] at decoded
      cases decoded
    | ok job =>
      rw [spelled] at decoded
      cases decoded
      rfl

/-- Fetching the diff logs the warnings of the response. -/
theorem told_source (inputs : Inputs) (options : CheckOptions) :
    Told inputs options (options.source inputs).records := by
  cases full : options.bareDiff with
  | true =>
    rw [bare_records full]
    refine .nothing fun response responded => ?_
    cases full.symm.trans responded.1
  | false =>
    rw [CheckOptions.source, Gate.PlanFile.fetch]
    cases loaded : (Gate.PlanFile.ofArgument options.plan options.bareDiff).load inputs with
    | error failure =>
      refine .nothing fun response responded => ?_
      cases loaded.symm.trans ((load_iff full).mpr responded)
    | ok response => exact .response ((load_iff full).mp loaded) (unplacedGroups_ascending response)

variable {told rest : List LogRecord} {events : List Event}

theorem Told.warns (tells : Told inputs options told) :
    (∀ record ∈ told, record.level = .warn) ∧ landmarksOf told = [] := by
  cases tells with
  | nothing => simp
  | response =>
    constructor
    · simp only [List.forall_mem_append, List.forall_mem_map, warned, unplaced]
      simp
    · refine Gate.landmarksOf_eq_nil ?_
      simp only [List.forall_mem_append, List.forall_mem_map, warned, unplaced]
      exact ⟨fun _ _ => by decide, fun _ _ => by decide⟩

/-! ### Conclusions -/

/-- A check that has told its warnings comes to a conclusion. -/
theorem check_concludes (inputs : Inputs) (options : CheckOptions) (settings : Config) :
    ∃ rest, Concludes inputs options settings rest (options.check inputs settings).2.events ∧
      (options.check inputs settings).2.records
        = triggering :: (options.source inputs).records ++ rest := by
  by_cases found : ∃ job, Planned inputs options job
  · obtain ⟨job, planned⟩ := found
    have decides := Gate.decides (options.override settings) job
    rw [check_planned planned, Gate.decisionRecords, List.append_assoc, decides.begins]
    exact ⟨_, .decided planned (Gate.answers_iff.mpr rfl) decides.narrates, rfl⟩
  · obtain ⟨failure, failed⟩ := source_unplanned found
    rw [check_failed failed, Gate.failureRecords_eq]
    exact ⟨_, .unable found, rfl⟩

namespace Concludes

theorem landmarks_nodup (concludes : Concludes inputs options settings rest events) :
    (landmarksOf (triggering :: rest)).Nodup := by
  cases concludes with
  | @unable failure =>
    have divided : landmarksOf [triggering, Gate.unable failure]
        = ["triggering job plan", "unable to run a job plan"] := rfl
    rw [divided]
    decide
  | @decided job answer _ after _ _ narrates =>
    have divided : landmarksOf (triggering :: evaluating job :: after)
        = "triggering job plan" :: "evaluating job diff" :: Gate.endings answer :=
      congrArg (_ :: _ :: ·) narrates.landmarks
    have apart : ∀ ending ∈ [[], ["change walk complete"], ["change walk stopped at empty task"],
        ["gate refused job diff"]],
        ("triggering job plan" :: "evaluating job diff" :: ending).Nodup := by decide
    rw [divided]
    exact apart _ (Gate.mem_endings answer)

theorem no_warning (concludes : Concludes inputs options settings rest events) :
    ∀ record ∈ rest, record.level ≠ .warn := by
  cases concludes with
  | unable => simp [Gate.unable]
  | decided _ _ narrates =>
    exact List.forall_mem_cons.mpr ⟨by simp [evaluating], narrates.calm⟩

theorem ne_nil (concludes : Concludes inputs options settings rest events) : rest ≠ [] := by
  cases concludes with
  | unable | decided => simp

/-- The refusal is logged last, if the decision fails. -/
theorem last_refused_iff (concludes : Concludes inputs options settings rest events) :
    rest.getLast?.map (·.message) = some "gate refused job diff" ↔
      ∃ job failure, Planned inputs options job ∧
        Answers (options.override settings) job (.error failure) := by
  cases concludes with
  | unable unplanned =>
    simp only [not_exists] at unplanned
    simp [Gate.unable, unplanned]
  | @decided job answer _ after planned answers narrates =>
    constructor
    · intro last
      obtain ⟨record, last, message⟩ := Option.map_eq_some_iff.mp last
      have inside : "gate refused job diff" ∈ landmarksOf (evaluating job :: after) := by
        refine List.mem_filter.mpr ⟨?_, by decide⟩
        exact List.mem_map.mpr ⟨record, List.mem_of_getLast? last, message⟩
      have divided : landmarksOf (evaluating job :: after)
          = "evaluating job diff" :: Gate.endings answer :=
        congrArg (_ :: ·) narrates.landmarks
      rw [divided, List.mem_cons] at inside
      obtain ⟨failure, rfl⟩ :=
        Gate.refused_mem_endings_iff.mp (inside.resolve_left (by decide))
      exact ⟨job, failure, planned, answers⟩
    · rintro ⟨job', failure, planned', answers'⟩
      obtain rfl := planned.unique planned'
      obtain ⟨front, rfl⟩ := narrates.refused failure <|
        (Gate.answers_iff.mp answers).trans (Gate.answers_iff.mp answers').symm
      rw [← List.cons_append, List.getLast?_concat]
      rfl

/-- The warnings are told in front, and there are no others. -/
theorem filter_warn (concludes : Concludes inputs options settings rest events)
    (tells : Told inputs options told) :
    (triggering :: told ++ rest).filter (·.level = .warn) = told := by
  have warnings : told.filter (·.level = .warn) = told :=
    List.filter_eq_self.mpr (by simpa using tells.warns.1)
  have others : rest.filter (·.level = .warn) = [] :=
    List.filter_eq_nil_iff.mpr (by simpa using concludes.no_warning)
  rw [List.cons_append, List.filter_cons_of_neg (by simp [triggering]), List.filter_append,
    warnings, others, List.append_nil]

theorem count_le_one (concludes : Concludes inputs options settings rest events)
    (tells : Told inputs options told) {message : String} (landmark : message ∈ landmarks) :
    ((triggering :: told ++ rest).map (·.message)).count message ≤ 1 := by
  have divided : landmarksOf (triggering :: told ++ rest) = landmarksOf (triggering :: rest) := by
    change landmarksOf ([triggering] ++ (told ++ rest)) = landmarksOf ([triggering] ++ rest)
    simp only [Gate.landmarksOf_append, tells.warns.2, List.nil_append]
  have counted : (landmarksOf (triggering :: told ++ rest)).count message
      = ((triggering :: told ++ rest).map (·.message)).count message :=
    List.count_filter (by simpa using landmark)
  rw [← counted, divided]
  exact List.nodup_iff_count_le_one.mp concludes.landmarks_nodup message

end Concludes

end

/-- The log of a check begins with one record, tells the warnings of a decoded response, and comes
to a conclusion about the diff that agrees with the events. There are no other warnings, each
landmark occurs at most once, and the last record is that of a refusal exactly if the decision
fails. -/
theorem check_log (inputs : Inputs) (options : CheckOptions) (settings : Config) :
    let events := (options.check inputs settings).2.events
    let records := (options.check inputs settings).2.records
    (∃ told rest, records = triggering :: told ++ rest ∧ Told inputs options told ∧
      Concludes inputs options settings rest events ∧ records.filter (·.level = .warn) = told) ∧
    (∀ message ∈ landmarks, (records.map (·.message)).count message ≤ 1) ∧
    (records.getLast?.map (·.message) = some "gate refused job diff" ↔
      ∃ job failure, Planned inputs options job ∧
        Answers (options.override settings) job (.error failure)) ∧
    ∀ verbose path format style, Configured inputs path settings →
      (Invocation.run ⟨.check options, verbose, path, format⟩ inputs style).records = records := by
  intro events records
  have tells := told_source inputs options
  obtain ⟨rest, concludes, logged⟩ := check_concludes inputs options settings
  refine ⟨⟨_, rest, logged, tells, concludes, ?_⟩, fun message landmark => ?_, ?_, ?_⟩
  · exact (congrArg _ logged).trans (concludes.filter_warn tells)
  · have counted := concludes.count_le_one tells landmark
    rwa [← logged] at counted
  · have last := concludes.last_refused_iff
    rwa [← List.getLast?_append_of_ne_nil (triggering :: (options.source inputs).records)
      concludes.ne_nil, ← logged] at last
  · intro verbose path format style configured
    rw [run_configured configured]

/-- A check of a deleted job, with a warning in the plan response. -/
theorem check_log_deleted :
    let document := "\x7b\"Warnings\":\"old driver\",\"Diff\":\x7b\"Type\":\"Deleted\"\x7d\x7d"
    let inputs : Inputs := ⟨fun _ => .error .missing, .ok document.toUTF8⟩
    let options : CheckOptions := { plan := "-" }
    let command : Invocation := ⟨.check options, true, none, .json⟩
    Configured inputs none {} ∧
      (command.run inputs .plain).records.map (·.message)
        = ["triggering job plan", "scheduler warning", "evaluating job diff",
          "job diff has unrecognized type 'Deleted'", "gate refused job diff"] ∧
      ∃ job failure, Planned inputs options job ∧ Answers {} job (.error failure) := by
  intro document inputs options command
  have logged : (options.check inputs {}).2.records.map (·.message)
      = ["triggering job plan", "scheduler warning", "evaluating job diff",
        "job diff has unrecognized type 'Deleted'", "gate refused job diff"] := by
    decide +kernel
  obtain ⟨-, -, last, commands⟩ := check_log inputs options {}
  have same : (command.run inputs .plain).records = _ := commands true none .json .plain .default
  refine ⟨.default, by rw [same, logged], last.mp ?_⟩
  rw [← List.getLast?_map, logged]
  rfl

end DeployGate.Command
