import DeployGate.Gate.PlanFile

/-!
# Approval

Which diffs the gate lets through. Only the type at the root of a diff counts, and for a type about
which nothing is decided the policy. A run proceeds exactly when its source has a diff that is let
through; where its source has none, nothing is reported.
-/

namespace DeployGate.Gate

open Files (Inputs Location)
open Plan (DiffType JobDiff Response)

/-- The types at the root of a diff that a policy lets through. -/
inductive Approved (policy : UnrecognizedPolicy) : DiffType → Prop
  | added : Approved policy .added
  | edited : Approved policy .edited
  | deleted : policy = .proceed → Approved policy .deleted
  | unrecognized (raw : String) : policy = .proceed → Approved policy (.unrecognized raw)

section

variable {σ : Type} (observe : Observer σ) (config : Config)

/-- The decision proceeds exactly on approved types, whoever observes it. -/
theorem proceeds_decide_iff (job : JobDiff) (state : σ) :
    proceeds (decide observe config job state).1 = true ↔
      Approved config.unrecognized job.type := by
  rw [decide]
  -- the observed events and the walk are no part of the answer, so each case is one of the type
  cases kind : job.type with
  | added => exact ⟨fun _ => .added, fun _ => rfl⟩
  | edited => exact ⟨fun _ => .edited, fun _ => rfl⟩
  | none =>
    constructor
    · intro proceeds
      cases proceeds
    · intro approved
      cases approved
  | deleted =>
    cases policy : config.unrecognized with
    | reject =>
      constructor
      · intro proceeds
        cases proceeds
      · rintro (_ | _ | never)
        cases never
    | proceed => exact ⟨fun _ => .deleted rfl, fun _ => rfl⟩
  | unrecognized raw =>
    cases policy : config.unrecognized with
    | reject =>
      constructor
      · intro proceeds
        cases proceeds
      · rintro (_ | _ | _ | ⟨_, never⟩)
        cases never
    | proceed => exact ⟨fun _ => .unrecognized raw rfl, fun _ => rfl⟩

/-- A run proceeds exactly when there is a diff and its type is approved. -/
theorem runPlan_iff (source : Source) (state : σ) :
    (runPlan observe config source state).1 = true ↔
      ∃ job, source.diff = .ok job ∧ Approved config.unrecognized job.type := by
  rw [runPlan]
  cases fetched : source.diff with
  | error failure => simp
  | ok job =>
    simp only [Except.ok.injEq, exists_eq_left']
    -- what was logged before has no influence on the decision
    generalize source.records.foldl _ _ = before
    rw [← proceeds_decide_iff observe config job before]
    rcases decide observe config job before with ⟨_ | verdict, after⟩ <;> rfl

end

/-! ### Runs without a diff -/

/-- The records that the run writes when there is no diff, with those of its source among them. -/
def failureRecords (source : Source) (failure : Failure) : List LogRecord :=
  ⟨.debug, .run, "triggering job plan", []⟩ :: source.records
    ++ [⟨.error, .run, "unable to run a job plan", [("error", .text failure.message)]⟩]

theorem foldl_log (records : List LogRecord) (transcript : Transcript) :
    records.foldl (fun transcript record => Transcript.recordAndLog transcript (.log record))
        transcript
      = { transcript with records := transcript.records ++ records } := by
  induction records generalizing transcript with
  | nil => simp
  | cons record records ih =>
    rw [List.foldl_cons, ih]
    simp [Transcript.recordAndLog, Transcript.record]

/-- Without a diff nothing is reported, and only the run and its source are logged. -/
theorem runPlan_failure {source : Source} {failure : Failure}
    (failed : source.diff = .error failure) (config : Config) (transcript : Transcript) :
    runPlan Transcript.recordAndLog config source transcript
      = (false, { transcript with
          records := transcript.records ++ failureRecords source failure }) := by
  rw [runPlan, foldl_log, failed]
  simp [Transcript.recordAndLog, Transcript.record, failureRecords]

/-! ### Plans in files -/

theorem mapError_eq_ok_iff {ε ε' α : Type} {f : ε → ε'} {result : Except ε α} {value : α} :
    result.mapError f = .ok value ↔ result = .ok value := by
  cases result with
  | error fault =>
    change Except.error (f fault) = .ok value ↔ _
    simp
  | ok found =>
    change Except.ok found = .ok value ↔ _
    simp

theorem toOption_eq_some_iff {ε α : Type} {result : Except ε α} {value : α} :
    result.toOption = some value ↔ result = .ok value := by
  cases result <;> simp [Except.toOption]

theorem fromUTF8?_eq_some_iff {bytes : ByteArray} {text : String} :
    String.fromUTF8? bytes = some text ↔ bytes = text.toUTF8 := by
  rw [String.fromUTF8?]
  constructor
  · intro decoded
    split at decoded
    next valid =>
      cases decoded
      rfl
    next => cases decoded
  · rintro rfl
    exact dif_pos text.isValidUTF8

/-- A text is read where its UTF-8 bytes are. -/
theorem text_iff {inputs : Inputs} {location : Location} {text : String} :
    inputs.text location = .ok text ↔ inputs.bytes location = .ok text.toUTF8 := by
  rw [Inputs.text]
  cases read : inputs.bytes location with
  | error fault => simp [bind, Except.bind]
  | ok bytes =>
    -- bytes that are no UTF-8 are not those of any text
    simp only [bind, Except.bind, Except.ok.injEq, ← fromUTF8?_eq_some_iff]
    cases String.fromUTF8? bytes with
    | none => simp [throw, throwThe, MonadExceptOf.throw]
    | some text => simp [pure, Except.pure]

namespace PlanFile

variable {file : PlanFile} {inputs : Inputs}

theorem load_iff {response : Response} :
    file.load inputs = .ok response ↔
      ∃ text, inputs.text file.location = .ok text ∧ file.decode text = .ok response := by
  rw [load]
  cases read : inputs.text file.location with
  | error fault => simp
  | ok text => simp [mapError_eq_ok_iff]

theorem fetch_diff_iff {job : JobDiff} :
    (file.fetch inputs).diff = .ok job ↔
      ∃ response, file.load inputs = .ok response ∧ response.diff = some job := by
  rw [fetch]
  cases loaded : file.load inputs with
  | error failure => simp [Source.failing]
  | ok response =>
    cases found : response.diff with
    | none => simp [Source.ofResponse, found]
    | some job => simp [Source.ofResponse, found]

theorem mem_fetch_records {record : LogRecord} (inside : record ∈ (file.fetch inputs).records) :
    record.speaker = .planFile := by
  rw [fetch] at inside
  cases loaded : file.load inputs with
  | error failure => simp [loaded, Source.failing] at inside
  | ok response =>
    -- a record is about a warning or about a group without a place
    simp only [loaded, warnings, List.mem_append, List.mem_map] at inside
    rcases inside with ⟨line, _, rfl⟩ | ⟨group, _, rfl⟩
    · rfl
    · rfl

end PlanFile

end DeployGate.Gate
