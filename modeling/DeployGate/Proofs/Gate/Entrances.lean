import DeployGate.Proofs.Gate.Approval
import DeployGate.Proofs.Gate.Entries
import DeployGate.Proofs.Plan.RoundTrip

/-!
# Entrances of the gate

A job comes before the gate by itself, in a plan response, or as a document in a file that spells
one of the two. By whichever entrance it comes, the answer is the same and so is what is reported. A
source that has no diff to hand over reports nothing.

## Main result

`entrances_agree`: for every configuration and job, all entrances give one answer and report the
same events, to every reporter and whatever it holds.
-/

namespace DeployGate.Gate

open Files (Inputs ReadFault)
open Plan (DiffType JobDiff Response)

/-- Whoever observes it, the program comes to the answer, and hands the events to the reporter and
no others. -/
def Yields (answer : Bool) (events : List Event)
    (program : {σ : Type} → Observer σ → σ → Bool × σ) : Prop :=
  ∀ {σ τ : Type} {observe : Observer σ} {reporter : σ → τ} {report : τ → Event → τ},
    Keeps observe reporter report → ∀ state,
      (program observe state).1 = answer
        ∧ reporter (program observe state).2 = events.foldl report (reporter state)

/-- The sources that hand over a job. -/
inductive Offers (inputs : Inputs) (job : JobDiff) : Source → Prop
  | job : Offers inputs job (.ofJob job)
  | response {response : Response} : response.diff = some job →
    Offers inputs job (.ofResponse response)
  | bareFile {file : PlanFile} : file.bareDiff = true →
    inputs.bytes file.location = .ok (String.ofList job.toJson.compact).toUTF8 →
    job.toJson.depth ≤ 127 → (∀ raw, .unrecognized raw ∈ job.types → ¬ DiffType.Names raw) →
      Offers inputs job (file.fetch inputs)
  | file {file : PlanFile} {response : Response} : file.bareDiff = false →
    response.diff = some job → response.Integral →
    inputs.bytes file.location = .ok (String.ofList response.toJson.compact).toUTF8 →
    response.toJson.depth ≤ 127 → (∀ raw, .unrecognized raw ∈ job.types → ¬ DiffType.Names raw) →
      Offers inputs job (file.fetch inputs)

/-- The sources that have no diff to hand over. -/
inductive Withholds (inputs : Inputs) : Source → Prop
  | failing {source : Source} {failure : Failure} : source.diff = .error failure →
    Withholds inputs source
  | response {response : Response} : response.diff = none → Withholds inputs (.ofResponse response)
  | unreadable {file : PlanFile} {fault : ReadFault} :
    inputs.bytes file.location = .error fault → Withholds inputs (file.fetch inputs)
  | notText {file : PlanFile} {bytes : ByteArray} : inputs.bytes file.location = .ok bytes →
    (∀ text : String, bytes ≠ text.toUTF8) → Withholds inputs (file.fetch inputs)
  | undecodable {file : PlanFile} {text : String} {defect : Json.Defect} :
    inputs.bytes file.location = .ok text.toUTF8 → file.decode text = .error defect →
      Withholds inputs (file.fetch inputs)
  | withoutDiff {file : PlanFile} {text : String} {response : Response} :
    inputs.bytes file.location = .ok text.toUTF8 → file.decode text = .ok response →
    response.diff = none → Withholds inputs (file.fetch inputs)

/-! ### Decisions and runs -/

section

variable {config : Config} {job : JobDiff} {source : Source}

theorem shouldProceed_eq {σ : Type} (observe : Observer σ) (state : σ) :
    shouldProceed observe config job state
      = (proceeds (decide observe config job state).1, (decide observe config job state).2) := by
  rw [shouldProceed]
  rcases decide observe config job state with ⟨_ | verdict, after⟩ <;> rfl

/-- What the run and its source log is not reported. -/
theorem Keeps.foldl_log {σ τ : Type} {observe : Observer σ} {reporter : σ → τ}
    {report : τ → Event → τ} (keeps : Keeps observe reporter report) (records : List LogRecord)
    (state : σ) :
    reporter (records.foldl (fun state record => observe state (.log record)) state)
      = reporter state := by
  induction records generalizing state with
  | nil => rfl
  | cons record records ih => rw [List.foldl_cons, ih, keeps.log]

theorem yields_decide : Yields (proceeds (decision config job).1) (eventsOf (decision config job).2)
    fun observe state =>
      (proceeds (decide observe config job state).1, (decide observe config job state).2) := by
  intro _ _ observe _ _ keeps state
  exact ⟨congrArg proceeds (fst_decide observe config job state), keeps.decide config job state⟩

/-- A run with a diff comes to what the decision about it comes to. -/
theorem yields_runPlan (fetched : source.diff = .ok job) :
    Yields (proceeds (decision config job).1) (eventsOf (decision config job).2)
      fun observe state => runPlan observe config source state := by
  intro _ _ observe reporter _ keeps state
  simp only [runPlan, fetched]
  generalize begun : source.records.foldl _ _ = start
  have silent : reporter start = reporter state := by rw [← begun, keeps.foldl_log, keeps.log]
  rw [← fst_decide observe config job start, ← silent, ← keeps.decide config job start]
  -- a failure of the gate is logged behind its events
  rcases decide observe config job start with ⟨failure | verdict, after⟩
  · exact ⟨rfl, keeps.log _ _⟩
  · exact ⟨rfl, rfl⟩

theorem yields_runPlan_failure {failure : Failure} (failed : source.diff = .error failure) :
    Yields false [] fun observe state => runPlan observe config source state := by
  intro _ _ observe reporter _ keeps state
  simp only [runPlan, failed]
  rw [keeps.log, keeps.foldl_log, keeps.log]
  exact ⟨trivial, rfl⟩

end

/-! ### Sources -/

section

variable {inputs : Inputs} {file : PlanFile} {text : String} {response : Response} {job : JobDiff}

/-- A file hands over the job of the response that its text is decoded as. -/
theorem fetch_diff_eq_ok (held : inputs.bytes file.location = .ok text.toUTF8)
    (decoded : file.decode text = .ok response) (found : response.diff = some job) :
    (file.fetch inputs).diff = .ok job := by
  have loaded : file.load inputs = .ok response :=
    PlanFile.load_iff.mpr ⟨text, text_iff.mpr held, decoded⟩
  exact PlanFile.fetch_diff_iff.mpr ⟨response, loaded, found⟩

/-- A file hands over nothing if no text that is read there is decoded as a response with a job. -/
theorem fetch_diff_eq_error
    (never : ∀ text response, inputs.bytes file.location = .ok text.toUTF8 →
      file.decode text = .ok response → response.diff = none) :
    ∃ failure, (file.fetch inputs).diff = .error failure := by
  cases fetched : (file.fetch inputs).diff with
  | error failure => exact ⟨failure, rfl⟩
  | ok job =>
    obtain ⟨response, loaded, found⟩ := PlanFile.fetch_diff_iff.mp fetched
    obtain ⟨text, read, decoded⟩ := PlanFile.load_iff.mp loaded
    cases found.symm.trans (never text response (text_iff.mp read) decoded)

/-- The bytes of a file are those of one text. -/
theorem text_unique {text' : String} (held : inputs.bytes file.location = .ok text.toUTF8)
    (held' : inputs.bytes file.location = .ok text'.toUTF8) : text = text' :=
  Except.ok.inj ((text_iff.mpr held).symm.trans (text_iff.mpr held'))

end

theorem Offers.diff_eq {inputs : Inputs} {job : JobDiff} {source : Source}
    (offers : Offers inputs job source) : source.diff = .ok job := by
  cases offers with
  | job => rfl
  | response found => simp [Source.ofResponse, found]
  | @bareFile file bare held shallow known =>
    have decoded : JobDiff.ofJson (String.ofList job.toJson.compact) = .ok job :=
      ((Plan.roundTrip_of_recovers (Plan.recovers_job job) job.norm_eq_self_iff).unchanged
        shallow).mpr known
    -- a bare diff stands for a response with nothing else in it
    have decoded' : file.decode (String.ofList job.toJson.compact) = .ok { diff := some job } := by
      rw [PlanFile.decode, if_pos bare, decoded]
      rfl
    exact fetch_diff_eq_ok held decoded' rfl
  | @file file response whole found integral held shallow known =>
    have types : response.types = job.types := by simp [Response.types, found]
    have decoded : Response.ofJson (String.ofList response.toJson.compact) = .ok response :=
      ((Plan.roundTrip_of_recovers (Plan.recovers_response integral)
        response.norm_eq_self_iff).unchanged shallow).mpr (types ▸ known)
    have decoded' : file.decode (String.ofList response.toJson.compact) = .ok response := by
      rw [PlanFile.decode, if_neg (by simp [whole]), decoded]
    exact fetch_diff_eq_ok held decoded' found

theorem Withholds.diff_eq {inputs : Inputs} {source : Source}
    (withholds : Withholds inputs source) : ∃ failure, source.diff = .error failure := by
  cases withholds with
  | failing failed => exact ⟨_, failed⟩
  | response missing => exact ⟨.missingDiff, by simp [Source.ofResponse, missing]⟩
  | unreadable fault =>
    refine fetch_diff_eq_error fun text response held _ => ?_
    cases fault.symm.trans held
  | notText held never =>
    refine fetch_diff_eq_error fun text response held' _ => ?_
    exact absurd (Except.ok.inj (held.symm.trans held')) (never text)
  | undecodable held refused =>
    refine fetch_diff_eq_error fun text response held' decoded => ?_
    obtain rfl := text_unique held held'
    cases refused.symm.trans decoded
  | withoutDiff held decoded missing =>
    refine fetch_diff_eq_error fun text response held' decoded' => ?_
    obtain rfl := text_unique held held'
    obtain rfl := Except.ok.inj (decoded.symm.trans decoded')
    exact missing

/-! ### All entrances -/

/-- By all entrances one answer is given and the same events are reported: the decision, the
decision as an answer alone, and the run on every source that hands over the job. A run on a source
that withholds its diff does not proceed and reports nothing. -/
theorem entrances_agree (config : Config) :
    (∀ job, ∃ answer events,
      (∀ {σ : Type} (observe : Observer σ) state, answer = true ↔
        ∃ verdict, (decide observe config job state).1 = .ok verdict
          ∧ verdict.decision = .proceed)
      ∧ Yields answer events (fun observe state =>
          (proceeds (decide observe config job state).1, (decide observe config job state).2))
      ∧ Yields answer events (fun observe state => shouldProceed observe config job state)
      ∧ ∀ inputs source, Offers inputs job source →
          Yields answer events fun observe state => runPlan observe config source state)
    ∧ ∀ inputs source, Withholds inputs source →
        Yields false [] fun observe state => runPlan observe config source state := by
  constructor
  · intro job
    refine ⟨proceeds (decision config job).1, eventsOf (decision config job).2, ?_,
      yields_decide, ?_, fun inputs source offers => yields_runPlan offers.diff_eq⟩
    · intro σ observe state
      rw [fst_decide, proceeds_iff]
    · simp only [shouldProceed_eq]
      exact yields_decide
  · intro inputs source withholds
    obtain ⟨failure, failed⟩ := withholds.diff_eq
    exact yields_runPlan_failure failed

/-- One job, by itself, in a response, and in two files. -/
theorem entrances_agree_files :
    let object : Plan.ObjectDiff :=
      ⟨.edited, "Resources", [{ type := .edited, name := "CPU", old := "100", new := "200" }], []⟩
    let job : JobDiff :=
      { type := .edited, id := "web", groups := [{ type := .edited, name := "cache"
                                                   objects := [object] }] }
    let response : Response := { diff := some job, warnings := "slow disks" }
    let inputs : Inputs :=
      ⟨fun path => .ok (String.ofList (if path = "job" then job.toJson.compact
        else response.toJson.compact)).toUTF8, .error .missing⟩
    let sources : List Source := [.ofJob job, .ofResponse response,
      PlanFile.fetch ⟨.file "job", true⟩ inputs, PlanFile.fetch ⟨.file "plan", false⟩ inputs]
    (sources.map fun source => (runPlan Transcript.recordAndLog {} source {}).1)
        = [true, true, true, true]
      ∧ (sources.map fun source => (runPlan Transcript.recordAndLog {} source {}).2.events)
        = List.replicate 4 [.fieldChanged ⟨"cache", "", "Resources", "CPU", "100", "200"⟩] := by
  intro object job response inputs sources
  obtain ⟨answer, events, -, decided, -, runs⟩ := (entrances_agree {}).1 job
  obtain ⟨answered, reported⟩ := decided keeps_recordAndLog {}
  have offers : ∀ source ∈ sources, Offers inputs job source := by
    have known : ∀ raw, .unrecognized raw ∈ job.types → ¬ DiffType.Names raw := by
      intro raw inside
      simp [job, object, JobDiff.types, Plan.TaskGroupDiff.types, Plan.ObjectDiff.types,
        Plan.ObjectDiff.typesAll] at inside
    have integral : response.Integral := by
      intro members found
      cases found
    simp only [sources, List.forall_mem_cons, List.not_mem_nil, false_implies, implies_true]
    exact ⟨.job, .response rfl, .bareFile rfl rfl (by decide) known,
      .file rfl rfl integral rfl (by decide) known, trivial⟩
  have run (source : Source) (inside : source ∈ sources) :=
    runs inputs source (offers source inside) keeps_recordAndLog {}
  constructor
  · exact List.map_congr_left fun source inside => (run source inside).1.trans answered.symm
  · exact List.map_congr_left fun source inside => (run source inside).2.trans reported.symm

end DeployGate.Gate
