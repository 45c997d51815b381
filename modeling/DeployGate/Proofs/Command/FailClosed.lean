import DeployGate.Command.Program
import DeployGate.Proofs.Gate.Transcripts

/-!
# Checks fail closed

A check ends with exit code zero only if everything that it needs is there and the type at the root
of the diff clears the deployment. Every configuration that cannot be had, and every plan that
cannot be read or decoded or has no diff, ends it with exit code one.

## Main result

`check_iff`: what has to hold for a check to proceed, what follows when there is no diff, and that
nothing else about the plan, the options and the configuration plays a part.
-/

namespace DeployGate.Command

open Files (Inputs Location)
open Gate (Config Approved PlanFile Transcript)
open Plan (DiffType JobDiff Response)

/-- Where the plan of a check is read from. -/
def CheckOptions.location (options : CheckOptions) : Location :=
  if options.plan = "-" then .standardInput else .file options.plan

/-- The source of the diff of a check. -/
abbrev CheckOptions.source (options : CheckOptions) (inputs : Inputs) : Gate.Source :=
  (PlanFile.ofArgument options.plan options.bareDiff).fetch inputs

/-- The configuration before any option overrides it: the one in the given file, whose bytes are
UTF-8, or the defaults if no file is given. -/
inductive Configured (inputs : Inputs) : Option String → Config → Prop
  | default : Configured inputs none {}
  | file {path text : String} {settings : Config} :
    inputs.file path = .ok text.toUTF8 → Config.ofToml text = .ok settings →
      Configured inputs (some path) settings

/-- The diff that a check puts before the gate: the plan itself, or the one in a plan response. -/
inductive Planned (inputs : Inputs) (options : CheckOptions) : JobDiff → Prop
  | bare {text : String} {job : JobDiff} :
    options.bareDiff = true → inputs.bytes options.location = .ok text.toUTF8 →
      JobDiff.ofJson text = .ok job → Planned inputs options job
  | response {text : String} {response : Response} {job : JobDiff} :
    options.bareDiff = false → inputs.bytes options.location = .ok text.toUTF8 →
      Response.ofJson text = .ok response → response.diff = some job → Planned inputs options job

/-- The types at the root of a diff on which a check proceeds. -/
inductive Clears (options : CheckOptions) (settings : Config) : DiffType → Prop
  | added : Clears options settings .added
  | edited : Clears options settings .edited
  | deleted : options.allowUnrecognized = true ∨ settings.unrecognized = .proceed →
    Clears options settings .deleted
  | unrecognized (raw : String) :
    options.allowUnrecognized = true ∨ settings.unrecognized = .proceed →
      Clears options settings (.unrecognized raw)

/-- Everything that a check needs to proceed. -/
def Cleared (inputs : Inputs) (options : CheckOptions) (config : Option String) : Prop :=
  ∃ settings job, Configured inputs config settings ∧ Planned inputs options job ∧
    Clears options settings job.type

theorem loadConfig_iff {inputs : Inputs} {config : Option String} {settings : Config} :
    loadConfig inputs config = .ok settings ↔ Configured inputs config settings := by
  cases config with
  | none =>
    constructor
    · intro loaded
      cases loaded
      exact .default
    · rintro ⟨⟩
      rfl
  | some path =>
    constructor
    · intro loaded
      rw [loadConfig] at loaded
      cases read : inputs.text (.file path) with
      | error fault => simp [read] at loaded
      | ok text =>
        simp only [read, Gate.mapError_eq_ok_iff] at loaded
        exact .file (Gate.text_iff.mp read) loaded
    · intro configured
      cases configured with
      | file read spelled =>
        have text : inputs.text (.file path) = .ok _ := Gate.text_iff.mpr read
        simp only [loadConfig, text, Gate.mapError_eq_ok_iff, spelled]

theorem fetch_iff {inputs : Inputs} {options : CheckOptions} {job : JobDiff} :
    (options.source inputs).diff = .ok job ↔ Planned inputs options job := by
  simp only [PlanFile.fetch_diff_iff, PlanFile.load_iff, Gate.text_iff]
  -- a bare diff stands for a response that has it, so the two decoders are told apart first
  constructor
  · rintro ⟨response, ⟨text, read, decoded⟩, found⟩
    cases bare : options.bareDiff with
    | true =>
      cases spelled : JobDiff.ofJson text with
      | error defect =>
        simp [PlanFile.decode, PlanFile.ofArgument, bare, spelled, Except.map] at decoded
      | ok diff =>
        obtain rfl : { diff := some diff } = response := by
          simpa [PlanFile.decode, PlanFile.ofArgument, bare, spelled, Except.map] using decoded
        cases found
        exact .bare bare read spelled
    | false =>
      have spelled : Response.ofJson text = .ok response := by
        simpa [PlanFile.decode, PlanFile.ofArgument, bare] using decoded
      exact .response bare read spelled found
  · intro planned
    cases planned with
    | bare bare read spelled =>
      refine ⟨{ diff := some job }, ⟨_, read, ?_⟩, rfl⟩
      simp [PlanFile.decode, PlanFile.ofArgument, bare, spelled, Except.map]
    | response bare read spelled found =>
      refine ⟨_, ⟨_, read, ?_⟩, found⟩
      simpa [PlanFile.decode, PlanFile.ofArgument, bare] using spelled

theorem Planned.unique {inputs : Inputs} {options : CheckOptions} {job job' : JobDiff}
    (planned : Planned inputs options job) (planned' : Planned inputs options job') : job = job' :=
  Except.ok.inj ((fetch_iff.mpr planned).symm.trans (fetch_iff.mpr planned'))

theorem clears_iff {options : CheckOptions} {settings : Config} {type : DiffType} :
    Clears options settings type ↔ Approved (options.override settings).unrecognized type := by
  have policy : (options.override settings).unrecognized = .proceed ↔
      options.allowUnrecognized = true ∨ settings.unrecognized = .proceed := by
    rw [CheckOptions.override]
    cases options.allowUnrecognized <;> simp
  constructor
  · intro clears
    cases clears with
    | added => exact .added
    | edited => exact .edited
    | deleted allowed => exact .deleted (policy.mpr allowed)
    | unrecognized raw allowed => exact .unrecognized raw (policy.mpr allowed)
  · intro approved
    cases approved with
    | added => exact .added
    | edited => exact .edited
    | deleted allowed => exact .deleted (policy.mp allowed)
    | unrecognized raw allowed => exact .unrecognized raw (policy.mp allowed)

theorem Clears.congr {options options' : CheckOptions} {settings settings' : Config}
    {type : DiffType} (sameOption : options.allowUnrecognized = options'.allowUnrecognized)
    (samePolicy : settings.unrecognized = settings'.unrecognized)
    (clears : Clears options settings type) : Clears options' settings' type := by
  cases clears with
  | added => exact .added
  | edited => exact .edited
  | deleted allowed => exact .deleted (by rwa [← sameOption, ← samePolicy])
  | unrecognized raw allowed => exact .unrecognized raw (by rwa [← sameOption, ← samePolicy])

/-- With a configuration a check proceeds exactly when its plan has a diff of a clearing type. -/
theorem check_proceeds_iff {inputs : Inputs} {options : CheckOptions} {settings : Config} :
    (options.check inputs settings).1 = true ↔
      ∃ job, Planned inputs options job ∧ Clears options settings job.type := by
  simp only [CheckOptions.check, Gate.runPlan_iff, fetch_iff, clears_iff]

section

variable {inputs : Inputs} {options : CheckOptions} {verbose : Bool} {config : Option String}
  {format : Format} {style : Style}

/-! ### Answers -/

/-- A check answers that the deployment may proceed exactly when it is cleared. -/
theorem result_iff :
    (Invocation.run ⟨.check options, verbose, config, format⟩ inputs style).result = .ok true ↔
      Cleared inputs options config := by
  rw [Invocation.run, Cleared]
  cases loaded : loadConfig inputs config with
  | error trouble =>
    -- without a configuration there is no answer, and nothing is configured
    constructor
    · intro proceeds
      cases proceeds
    · rintro ⟨settings, _, configured, _⟩
      cases loaded.symm.trans (loadConfig_iff.mpr configured)
  | ok settings =>
    simp only [Except.ok.injEq, check_proceeds_iff]
    constructor
    · rintro ⟨job, planned, clears⟩
      exact ⟨settings, job, loadConfig_iff.mp loaded, planned, clears⟩
    · rintro ⟨settings', job, configured, planned, clears⟩
      cases loaded.symm.trans (loadConfig_iff.mpr configured)
      exact ⟨job, planned, clears⟩

theorem exit_code_eq_zero_iff {finish : Finish} {filter : LogFilter} :
    (finish.exit filter).code = 0 ↔ finish.result = .ok true := by
  rw [Finish.exit]
  rcases finish.result with trouble | _ | _ <;> simp

theorem exit_code_eq_one_iff {finish : Finish} {filter : LogFilter} :
    (finish.exit filter).code = 1 ↔ finish.result ≠ .ok true := by
  rw [Finish.exit]
  rcases finish.result with trouble | _ | _ <;> simp

/-- Two checks agree as soon as the types at the roots, the policies for unrecognized types and the
options that override these agree. -/
theorem cleared_congr {inputs' : Inputs} {options' : CheckOptions} {config' : Option String}
    {settings settings' : Config} {job job' : JobDiff}
    (configured : Configured inputs config settings)
    (configured' : Configured inputs' config' settings')
    (planned : Planned inputs options job) (planned' : Planned inputs' options' job')
    (sameOption : options.allowUnrecognized = options'.allowUnrecognized)
    (samePolicy : settings.unrecognized = settings'.unrecognized) (sameType : job.type = job'.type)
    (cleared : Cleared inputs options config) : Cleared inputs' options' config' := by
  obtain ⟨found, diff, configuredToo, plannedToo, clears⟩ := cleared
  -- a check has at most one configuration and one diff
  cases (loadConfig_iff.mpr configured).symm.trans (loadConfig_iff.mpr configuredToo)
  obtain rfl := planned.unique plannedToo
  exact ⟨settings', job', configured', planned', sameType ▸ clears.congr sameOption samePolicy⟩

/-! ### Checks with a diff and without one -/

/-- With a diff a check comes to what the decision about it comes to. -/
theorem check_planned {job : JobDiff} (planned : Planned inputs options job) (settings : Config) :
    options.check inputs settings
      = (Gate.proceeds (Gate.decision (options.override settings) job).1,
          ⟨Gate.eventsOf (Gate.decision (options.override settings) job).2,
            Gate.decisionRecords (options.override settings) (options.source inputs) job⟩) := by
  rw [CheckOptions.check, Gate.runPlan_success (fetch_iff.mpr planned), List.nil_append,
    List.nil_append]

theorem source_unplanned (unplanned : ¬ ∃ job, Planned inputs options job) :
    ∃ failure, (options.source inputs).diff = .error failure := by
  cases fetched : (options.source inputs).diff with
  | error failure => exact ⟨failure, rfl⟩
  | ok job => exact absurd ⟨job, fetch_iff.mp fetched⟩ unplanned

/-- Without a diff the configuration plays no part. -/
theorem check_failed {failure : Gate.Failure}
    (failed : (options.source inputs).diff = .error failure) (settings : Config) :
    options.check inputs settings
      = (false, ⟨[], Gate.failureRecords (options.source inputs) failure⟩) := by
  rw [CheckOptions.check, Gate.runPlan_failure failed, List.nil_append]

/-- With a configuration the command comes to what the check comes to. -/
theorem run_configured {settings : Config} (configured : Configured inputs config settings) :
    Invocation.run ⟨.check options, verbose, config, format⟩ inputs style
      = { result := .ok (options.check inputs settings).1
          output := verdictText format style (options.check inputs settings).1
            (options.check inputs settings).2.events
          records := (options.check inputs settings).2.records } := by
  rw [Invocation.run, loadConfig_iff.mpr configured]

/-- Without a diff a check has only the run's log and that of the plan's file to show. -/
theorem check_unplanned (unplanned : ¬ ∃ job, Planned inputs options job) (settings : Config) :
    (options.check inputs settings).2.events = [] ∧
      ∀ record ∈ (options.check inputs settings).2.records, record.speaker ≠ .reporter := by
  obtain ⟨failure, failed⟩ := source_unplanned unplanned
  rw [check_failed failed]
  refine ⟨rfl, fun record inside => ?_⟩
  simp only [Gate.failureRecords, List.mem_append, List.mem_cons,
    List.not_mem_nil, or_false] at inside
  -- the run speaks first and last, and the plan's file in between
  rcases inside with (rfl | fetched) | rfl
  · simp
  · simp [PlanFile.mem_fetch_records fetched]
  · simp

theorem run_unplanned (unplanned : ¬ ∃ job, Planned inputs options job) :
    ∀ record ∈ (Invocation.run ⟨.check options, verbose, config, format⟩ inputs style).records,
      record.speaker ≠ .reporter := by
  rw [Invocation.run]
  cases loadConfig inputs config with
  | error trouble => simp
  | ok settings => exact (check_unplanned unplanned settings).2

end

/-! ### The main result -/

/-- A check proceeds, and ends with exit code zero, exactly when it is cleared; in every other case
the code is one. Without a diff no event is recorded or logged. The configurations and the diffs of
two checks play a part only by the policy for unrecognized types and the type at the root. -/
theorem check_iff (inputs : Inputs) (options : CheckOptions) (verbose : Bool)
    (config : Option String) (format : Format) (style : Style) :
    let check : Invocation := ⟨.check options, verbose, config, format⟩
    ((check.run inputs style).result = .ok true ↔ Cleared inputs options config) ∧
    (∀ arguments logFilter, Invocation.ofArguments arguments = .ok check →
      ((program arguments logFilter inputs style).code = 0 ↔ Cleared inputs options config) ∧
      ((program arguments logFilter inputs style).code = 1 ↔ ¬ Cleared inputs options config)) ∧
    ((¬ ∃ job, Planned inputs options job) →
      (∀ settings, (options.check inputs settings).2.events = []) ∧
      ∀ record ∈ (check.run inputs style).records, record.speaker ≠ .reporter) ∧
    ∀ inputs' options' config' settings settings' job job',
      Configured inputs config settings → Configured inputs' config' settings' →
      Planned inputs options job → Planned inputs' options' job' →
      options.allowUnrecognized = options'.allowUnrecognized →
      settings.unrecognized = settings'.unrecognized → job.type = job'.type →
      (Cleared inputs options config ↔ Cleared inputs' options' config') := by
  refine ⟨result_iff, ?_, ?_, ?_⟩
  · intro arguments logFilter spelled
    simp only [program, spelled, exit_code_eq_zero_iff, exit_code_eq_one_iff, ne_eq, result_iff,
      and_self]
  · intro unplanned
    exact ⟨fun settings => (check_unplanned unplanned settings).1, run_unplanned unplanned⟩
  · intro inputs' options' config' settings settings' job job' configured configured' planned
      planned' sameOption samePolicy sameType
    exact ⟨cleared_congr configured configured' planned planned' sameOption samePolicy sameType,
      cleared_congr configured' configured planned' planned sameOption.symm samePolicy.symm
        sameType.symm⟩

/-- A bare diff of an added job from the standard input ends the program with exit code zero. -/
theorem check_iff_added :
    let inputs : Inputs := ⟨fun _ => .error .missing, .ok "\x7b\"Type\":\"Added\"\x7d".toUTF8⟩
    let options : CheckOptions := { plan := "-", bareDiff := true }
    Invocation.ofArguments ["check", "--bare-diff", "-"]
        = .ok ⟨.check options, false, none, .text⟩ ∧
      Cleared inputs options none ∧
      (program ["check", "--bare-diff", "-"] none inputs .plain).code = 0 := by
  intro inputs options
  have spelled : Invocation.ofArguments ["check", "--bare-diff", "-"]
      = .ok ⟨.check options, false, none, .text⟩ := rfl
  have cleared : Cleared inputs options none :=
    ⟨{}, { type := .added }, .default, .bare rfl rfl (by with_unfolding_all rfl), .added⟩
  exact ⟨spelled, cleared,
    ((check_iff inputs options false none .text .plain).2.1 _ none spelled).1.mpr cleared⟩

end DeployGate.Command
