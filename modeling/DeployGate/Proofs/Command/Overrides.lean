import DeployGate.Proofs.Command.FailClosed
import DeployGate.Proofs.Gate.Agreement
import DeployGate.Proofs.Plan.RoundTrip
import DeployGate.Proofs.Walk.EmptyTasks

/-!
# Overriding the configuration

Two options of a check override a policy each. Skipping empty tasks never changes the answer, and at
most adds events behind those that are reported anyway. Allowing unrecognized types lets more plans
through and none less, and makes no difference for any other plan.

## Main result

`check_override`: two checks of one plan compared, with and without either option, and with the
option set or its policy configured.
-/

namespace DeployGate.Gate

open Plan (JobDiff)
open Walk (collectChanges)

variable {config config' : Config} {job : JobDiff}

/-- A decision rests on the policy for empty tasks only where there is a walk, and on the other one
only where nothing else decides about the type. -/
theorem decision_congr (walks : job.type = .edited → config.emptyTask = config'.emptyTask)
    (policy : Undecided job.type → config.unrecognized = config'.unrecognized) :
    decision config job = decision config' job := by
  rw [decision, decision, decide, decide]
  cases kind : job.type with
  | added | none => rfl
  | edited => rw [walks kind]
  | deleted | unrecognized =>
    have undecided : Undecided job.type := by
      rw [kind]
      constructor
    rw [policy undecided]

theorem proceeds_decision_iff :
    proceeds (decision config job).1 = true ↔ Approved config.unrecognized job.type :=
  proceeds_decide_iff collect config job []

/-- The events of an edited job are its changes. -/
theorem eventsOf_decision (config : Config) (edited : job.type = .edited) :
    eventsOf (decision config job).2
      = (collectChanges job config.emptyTask).1.map .fieldChanged := by
  generalize answered : (decision config job).1 = answer
  generalize handed : (decision config job).2 = entries
  have decides := decides config job
  rw [answered, handed] at decides
  cases decides with
  | newJob kind | noChanges kind => cases edited.symm.trans kind
  | walked kind ended => exact (Decides.walked kind ended).walked_events rfl |>.1
  | rejected undecided | tolerated undecided =>
    rw [edited] at undecided
    cases undecided

/-- With empty tasks skipped the decision is the same, and its events begin with those that are
reported else. They are no others unless a walk is halted. -/
theorem decision_skipTask (config : Config) (job : JobDiff) :
    let skipping := decision { config with emptyTask := .skipTask } job
    proceeds skipping.1 = proceeds (decision config job).1 ∧
      eventsOf (decision config job).2 <+: eventsOf skipping.2 ∧
      (eventsOf (decision config job).2 ≠ eventsOf skipping.2 →
        config.emptyTask = .abortWalk ∧ job.type = .edited ∧
          (collectChanges job .abortWalk).2.isHalted = true) := by
  intro skipping
  have answers : proceeds skipping.1 = proceeds (decision config job).1 := by
    rw [Bool.eq_iff_iff, proceeds_decision_iff, proceeds_decision_iff]
  by_cases stops : job.type = .edited ∧ config.emptyTask = .abortWalk
  · obtain ⟨edited, policy⟩ := stops
    have events := eventsOf_decision config edited
    have skipped : eventsOf skipping.2 = (collectChanges job .skipTask).1.map .fieldChanged :=
      eventsOf_decision _ edited
    rw [events, skipped, policy]
    refine ⟨answers, (Walk.collectChanges_begins job).map _, fun differ => ⟨rfl, edited, ?_⟩⟩
    by_contra through
    rw [Walk.collectChanges_of_not_halted (by simpa using through)] at differ
    exact differ rfl
  · -- no walk is made, or empty tasks are skipped without the option
    have same : decision config job = skipping := by
      refine decision_congr (fun edited => ?_) fun _ => rfl
      cases policy : config.emptyTask with
      | abortWalk => exact absurd ⟨edited, policy⟩ stops
      | skipTask => rfl
    rw [same]
    exact ⟨rfl, List.prefix_rfl, fun differ => absurd rfl differ⟩

/-- A type about which nothing is decided is rejected with one event, -/
theorem decision_reject (config : Config) (undecided : Undecided job.type)
    (policy : config.unrecognized = .reject) :
    proceeds (decision config job).1 = false ∧
      eventsOf (decision config job).2 = [.unrecognized job.type.toString] := by
  have decides := decides config job
  obtain ⟨failure, refused⟩ := decides.error_iff.mpr ⟨undecided, policy⟩
  rw [refused] at decides ⊢
  exact ⟨rfl, decides.named.2⟩

/-- or proceeds in silence. -/
theorem decision_proceed (config : Config) (undecided : Undecided job.type)
    (policy : config.unrecognized = .proceed) :
    proceeds (decision config job).1 = true ∧ eventsOf (decision config job).2 = [] := by
  have approved : proceeds (decision config job).1 = true := by
    rw [proceeds_decision_iff, policy]
    rcases undecided_iff.mp undecided with kind | ⟨raw, kind⟩
    · exact kind ▸ .deleted rfl
    · exact kind ▸ .unrecognized raw rfl
  exact ⟨approved, (decides config job).silent undecided approved⟩

end DeployGate.Gate

namespace DeployGate.Command

open Files (Inputs)
open Gate (Config Undecided)
open Plan (FieldDiff ObjectDiff TaskDiff TaskGroupDiff JobDiff)
open Walk (collectChanges)

/-- The options with empty tasks skipped. -/
def CheckOptions.skipping (options : CheckOptions) : CheckOptions :=
  { options with skipEmptyTasks := true }

/-- The options with unrecognized types allowed. -/
def CheckOptions.allowing (options : CheckOptions) : CheckOptions :=
  { options with allowUnrecognized := true }

/-! ### Options and settings -/

namespace CheckOptions

variable (options : CheckOptions) (settings : Config)

theorem override_skipping :
    options.skipping.override settings
      = { options.override settings with emptyTask := .skipTask } :=
  rfl

theorem override_skipTask :
    options.override { settings with emptyTask := .skipTask }
      = { options.override settings with emptyTask := .skipTask } := by
  rw [override, ite_self, override]

theorem override_allowing :
    options.allowing.override settings
      = { options.override settings with unrecognized := .proceed } :=
  rfl

theorem override_proceed :
    options.override { settings with unrecognized := .proceed }
      = { options.override settings with unrecognized := .proceed } := by
  rw [override, ite_self, override]

theorem override_stops_iff :
    (options.override settings).emptyTask = .abortWalk ↔
      options.skipEmptyTasks = false ∧ settings.emptyTask = .abortWalk := by
  rw [override]
  cases options.skipEmptyTasks <;> simp

theorem override_rejects_iff :
    (options.override settings).unrecognized = .reject ↔
      options.allowUnrecognized = false ∧ settings.unrecognized = .reject := by
  rw [override]
  cases options.allowUnrecognized <;> simp

end CheckOptions

/-! ### Checks -/

section

variable {inputs : Inputs} {options options' : CheckOptions} {settings settings' : Config}
  {job : JobDiff}

/-- The plan is the same whatever the options override. -/
theorem Planned.congr (planned : Planned inputs options job)
    (same : options.source inputs = options'.source inputs) : Planned inputs options' job :=
  fetch_iff.mp (same ▸ fetch_iff.mpr planned)

theorem Planned.skipping (planned : Planned inputs options job) :
    Planned inputs options.skipping job :=
  planned.congr rfl

theorem Planned.allowing (planned : Planned inputs options job) :
    Planned inputs options.allowing job :=
  planned.congr rfl

/-- Checks of one plan are the same if the decisions about its diff are, should it have one. -/
theorem check_congr (source : options.source inputs = options'.source inputs)
    (same : ∀ job, Planned inputs options job →
      Gate.decision (options.override settings) job
        = Gate.decision (options'.override settings') job) :
    options.check inputs settings = options'.check inputs settings' := by
  by_cases found : ∃ job, Planned inputs options job
  · obtain ⟨job, planned⟩ := found
    rw [check_planned planned, check_planned (planned.congr source), Gate.decisionRecords,
      Gate.decisionRecords, same job planned, source]
  · obtain ⟨failure, failed⟩ := source_unplanned found
    rw [check_failed failed, check_failed (source ▸ failed), source]

/-- Skipping empty tasks by an option is skipping them by the configuration, -/
theorem check_skipping (options : CheckOptions) (settings : Config) :
    options.skipping.check inputs settings
      = options.check inputs { settings with emptyTask := .skipTask } := by
  refine check_congr rfl fun job _ => ?_
  rw [CheckOptions.override_skipping, CheckOptions.override_skipTask]

/-- and so it is with unrecognized types. -/
theorem check_allowing (options : CheckOptions) (settings : Config) :
    options.allowing.check inputs settings
      = options.check inputs { settings with unrecognized := .proceed } := by
  refine check_congr rfl fun job _ => ?_
  rw [CheckOptions.override_allowing, CheckOptions.override_proceed]

/-- Skipping empty tasks makes no difference where no walk stops at one. -/
theorem check_skipping_eq (options : CheckOptions)
    (unaffected : ∀ job, Planned inputs options job → job.type = .edited →
      (options.override settings).emptyTask = .skipTask) :
    options.check inputs settings = options.skipping.check inputs settings :=
  check_congr rfl fun job planned =>
    Gate.decision_congr (unaffected job planned) fun _ => rfl

theorem check_allowing_eq (options : CheckOptions)
    (unaffected : ∀ job, Planned inputs options job → Undecided job.type →
      (options.override settings).unrecognized = .proceed) :
    options.check inputs settings = options.allowing.check inputs settings :=
  check_congr rfl fun job planned =>
    Gate.decision_congr (fun _ => rfl) (unaffected job planned)

theorem skipping_loosens (inputs : Inputs) (options : CheckOptions) (settings : Config) :
    let plain := options.check inputs settings
    let skipping := options.skipping.check inputs settings
    skipping.1 = plain.1 ∧ plain.2.events <+: skipping.2.events ∧
      (plain.2.events ≠ skipping.2.events → settings.emptyTask = .abortWalk ∧
        ∃ job, Planned inputs options job ∧ job.type = .edited ∧
          (collectChanges job .abortWalk).2.isHalted = true) := by
  intro plain skipping
  by_cases found : ∃ job, Planned inputs options job
  · obtain ⟨job, planned⟩ := found
    obtain ⟨answers, begins, differ⟩ := Gate.decision_skipTask (options.override settings) job
    have checked : plain = _ := check_planned planned settings
    have skipped : skipping = _ := check_planned planned.skipping settings
    rw [CheckOptions.override_skipping] at skipped
    rw [checked, skipped]
    refine ⟨answers, begins, fun other => ?_⟩
    obtain ⟨policy, edited, halted⟩ := differ other
    rw [CheckOptions.override_stops_iff] at policy
    exact ⟨policy.2, job, planned, edited, halted⟩
  · have same : plain = skipping :=
      check_skipping_eq options fun job planned => absurd ⟨job, planned⟩ found
    rw [same]
    exact ⟨rfl, List.prefix_rfl, fun differ => absurd rfl differ⟩

/-- A rejected plan is let through in silence. -/
theorem allowing_rejected (planned : Planned inputs options job) (undecided : Undecided job.type)
    (notAllowed : options.allowUnrecognized = false) (policy : settings.unrecognized = .reject) :
    (options.check inputs settings).1 = false ∧
      (options.check inputs settings).2.events = [.unrecognized job.type.toString] ∧
      (options.allowing.check inputs settings).1 = true ∧
      (options.allowing.check inputs settings).2.events = [] := by
  have rejects := (CheckOptions.override_rejects_iff options settings).mpr ⟨notAllowed, policy⟩
  obtain ⟨halts, alarm⟩ := Gate.decision_reject _ undecided rejects
  obtain ⟨proceeds, silence⟩ := Gate.decision_proceed
    { options.override settings with unrecognized := .proceed } undecided rfl
  rw [check_planned planned, check_planned planned.allowing, CheckOptions.override_allowing]
  exact ⟨halts, alarm, proceeds, silence⟩

theorem allowing_loosens (inputs : Inputs) (options : CheckOptions) (settings : Config) :
    let plain := options.check inputs settings
    let allowing := options.allowing.check inputs settings
    (plain.1 = true → allowing.1 = true) ∧
      (plain ≠ allowing → options.allowUnrecognized = false ∧ settings.unrecognized = .reject ∧
        ∃ job, Planned inputs options job ∧ Undecided job.type) := by
  intro plain allowing
  by_cases rejected : options.allowUnrecognized = false ∧ settings.unrecognized = .reject ∧
      ∃ job, Planned inputs options job ∧ Undecided job.type
  · obtain ⟨notAllowed, policy, job, planned, undecided⟩ := rejected
    obtain ⟨halts, -⟩ := allowing_rejected planned undecided notAllowed policy
    exact ⟨fun proceeds => absurd (halts.symm.trans proceeds) (by decide),
      fun _ => ⟨notAllowed, policy, job, planned, undecided⟩⟩
  · -- the policy for unrecognized types is not asked, or lets them through anyway
    have same : plain = allowing := by
      refine check_allowing_eq options fun job planned undecided => ?_
      cases policy : (options.override settings).unrecognized with
      | reject =>
        obtain ⟨notAllowed, policy⟩ := (CheckOptions.override_rejects_iff _ _).mp policy
        exact absurd ⟨notAllowed, policy, job, planned, undecided⟩ rejected
      | proceed => rfl
    rw [same]
    exact ⟨id, fun differ => absurd rfl differ⟩

/-- No plan is affected by both options. -/
theorem skipping_allowing (inputs : Inputs) (options : CheckOptions) (settings : Config) :
    let plain := options.check inputs settings
    let skipping := options.skipping.check inputs settings
    let allowing := options.allowing.check inputs settings
    let both := options.skipping.allowing.check inputs settings
    plain = allowing ∧ skipping = both ∨ plain = skipping ∧ allowing = both := by
  intro plain skipping allowing both
  by_cases undecided : ∃ job, Planned inputs options job ∧ Undecided job.type
  · obtain ⟨job, planned, undecided⟩ := undecided
    -- its diff, which is the only one, is not walked
    have unwalked {other : JobDiff} (found : Planned inputs options other) :
        other.type ≠ .edited := by
      obtain rfl := planned.unique found
      intro edited
      rw [edited] at undecided
      cases undecided
    refine .inr ⟨check_skipping_eq options fun job planned edited => ?_,
      check_skipping_eq options.allowing fun job planned edited => ?_⟩
    · exact absurd edited (unwalked planned)
    · exact absurd edited (unwalked (planned.congr rfl))
  · refine .inl ⟨check_allowing_eq options fun job planned unknown => ?_,
      check_allowing_eq options.skipping fun job planned unknown => ?_⟩
    · exact absurd ⟨job, planned, unknown⟩ undecided
    · exact absurd ⟨job, planned.congr rfl, unknown⟩ undecided

/-- Commands with the same check come to the same. -/
theorem run_congr {path path' : Option String} (configured : Configured inputs path settings)
    (configured' : Configured inputs path' settings')
    (same : options.check inputs settings = options'.check inputs settings')
    (verbose : Bool) (format : Format) (style : Style) :
    Invocation.run ⟨.check options, verbose, path, format⟩ inputs style
      = Invocation.run ⟨.check options', verbose, path', format⟩ inputs style := by
  rw [run_configured configured, run_configured configured', same]

end

/-! ### The main result -/

/-- Skipping empty tasks leaves the answer as it is and reports the same events and possibly more
behind them, but more only if a walk over an edited job ends at an empty task. Allowing unrecognized
types makes a difference only for a plan of such a type that is rejected, which then proceeds in
silence. At most one of the options makes a difference for a plan, so that both together do what
that one does. To give an option is to configure its policy, also for the whole command. -/
theorem check_override (inputs : Inputs) (options : CheckOptions) (settings : Config) :
    let plain := options.check inputs settings
    let skipping := options.skipping.check inputs settings
    let allowing := options.allowing.check inputs settings
    let both := options.skipping.allowing.check inputs settings
    (skipping.1 = plain.1 ∧ plain.2.events <+: skipping.2.events ∧
      (plain.2.events ≠ skipping.2.events → settings.emptyTask = .abortWalk ∧
        ∃ job, Planned inputs options job ∧ job.type = .edited ∧
          (collectChanges job .abortWalk).2.isHalted = true)) ∧
    ((plain.1 = true → allowing.1 = true) ∧
      (plain ≠ allowing → options.allowUnrecognized = false ∧ settings.unrecognized = .reject ∧
        ∃ job, Planned inputs options job ∧ Undecided job.type) ∧
      ∀ job, Planned inputs options job → Undecided job.type →
        options.allowUnrecognized = false → settings.unrecognized = .reject →
          plain.1 = false ∧ plain.2.events = [.unrecognized job.type.toString] ∧
            allowing.1 = true ∧ allowing.2.events = []) ∧
    (plain = allowing ∧ skipping = both ∨ plain = skipping ∧ allowing = both) ∧
    skipping = options.check inputs { settings with emptyTask := .skipTask } ∧
    allowing = options.check inputs { settings with unrecognized := .proceed } ∧
    both = options.check inputs ⟨.proceed, .skipTask⟩ ∧
    ∀ verbose format style path path' settings',
      Configured inputs path settings → Configured inputs path' settings' →
      let command (options : CheckOptions) (path : Option String) :=
        Invocation.run ⟨.check options, verbose, path, format⟩ inputs style
      (settings' = { settings with emptyTask := .skipTask } →
        command options.skipping path = command options path') ∧
      (settings' = { settings with unrecognized := .proceed } →
        command options.allowing path = command options path') ∧
      (settings' = ⟨.proceed, .skipTask⟩ →
        command options.skipping.allowing path = command options path') := by
  intro plain skipping allowing both
  obtain ⟨loosens, affects⟩ := allowing_loosens inputs options settings
  -- the setting for empty tasks becomes its option again, and the other one is left
  have bothSet : both = options.check inputs ⟨.proceed, .skipTask⟩ := by
    rw [← check_skipping options ⟨.proceed, settings.emptyTask⟩]
    exact check_allowing options.skipping settings
  refine ⟨skipping_loosens inputs options settings,
    ⟨loosens, affects, fun job => allowing_rejected⟩,
    skipping_allowing inputs options settings, check_skipping options settings,
    check_allowing options settings, bothSet, ?_⟩
  intro verbose format style path path' settings' configured configured' command
  refine ⟨?_, ?_, ?_⟩
  · rintro rfl
    exact run_congr configured configured' (check_skipping options settings) verbose format style
  · rintro rfl
    exact run_congr configured configured' (check_allowing options settings) verbose format style
  · rintro rfl
    exact run_congr configured configured' bothSet verbose format style

/-- A job with an empty task in front of a change, and a deleted one. -/
theorem check_override_files :
    let field : FieldDiff := .edited "CPU" "100" "200"
    let resources : ObjectDiff := { type := .edited, name := "Resources", fields := [field] }
    let app : TaskDiff := { type := .edited, name := "app", objects := [resources] }
    let idle : TaskDiff := { type := .edited, name := "idle" }
    let web : TaskGroupDiff := { type := .edited, name := "web", tasks := [idle, app] }
    let stopping : JobDiff := { type := .edited, groups := [web] }
    let document (path : String) : String :=
      if path = "gate.toml" then "unrecognized = \"proceed\""
      else if path = "deleted" then "\x7b\"Type\":\"Deleted\"\x7d"
      else String.ofList stopping.toJson.compact
    let inputs : Inputs := ⟨fun path => .ok (document path).toUTF8, .error .missing⟩
    let stopped : CheckOptions := { plan := "stopping", bareDiff := true }
    let deleted : CheckOptions := { plan := "deleted", bareDiff := true }
    let command (options : CheckOptions) (config : Option String) :=
      Invocation.run ⟨.check options, false, config, .text⟩ inputs .plain
    (stopped.check inputs {}).2.events = [] ∧
      (stopped.skipping.check inputs {}).2.events
        = [.fieldChanged ⟨"web", "app", "Resources", "CPU", "100", "200"⟩] ∧
      (∃ job, Planned inputs stopped job ∧ (collectChanges job .abortWalk).2.isHalted = true) ∧
      (deleted.check inputs {}).2.events = [.unrecognized "Deleted"] ∧
      (deleted.allowing.check inputs {}).2.events = [] ∧
      command deleted.allowing none = command deleted (some "gate.toml") := by
  intro field resources app idle web stopping document inputs stopped deleted command
  have decoded : JobDiff.ofJson (document "stopping") = .ok stopping :=
    Plan.ofJson_compact (by decide) rfl
  have planned : Planned inputs stopped stopping := .bare rfl rfl decoded
  have planned' : Planned inputs stopped.skipping stopping := .bare rfl rfl decoded
  have plannedDeleted : Planned inputs deleted { type := .deleted } :=
    .bare rfl rfl (by decide +kernel)
  have nothing : (stopped.check inputs {}).2.events = [] := by
    rw [check_planned planned]
    rfl
  have something : (stopped.skipping.check inputs {}).2.events
      = [.fieldChanged ⟨"web", "app", "Resources", "CPU", "100", "200"⟩] := by
    rw [check_planned planned']
    rfl
  have configured : Configured inputs (some "gate.toml") ⟨.proceed, .abortWalk⟩ :=
    .file rfl (Gate.toOption_eq_some_iff.mp (by decide +kernel))
  obtain ⟨-, -, differ⟩ := (check_override inputs stopped {}).1
  obtain ⟨-, job, found, -, halted⟩ := differ (by rw [nothing, something]; decide)
  obtain ⟨-, ⟨-, -, rejected⟩, -, -, -, -, commands⟩ := check_override inputs deleted {}
  obtain ⟨-, alarm, -, silence⟩ := rejected _ plannedDeleted .deleted rfl rfl
  have same := (commands false .text .plain none _ _ .default configured).2.1 rfl
  exact ⟨nothing, something, ⟨job, found, halted⟩, alarm, silence, same⟩

end DeployGate.Command
