import DeployGate.Proofs.Command.FailClosed
import DeployGate.Proofs.Gate.Agreement
import DeployGate.Proofs.Json.Indented
import DeployGate.Proofs.Plan.RoundTrip

/-!
# Summaries

What a check prints says faithfully what it came to. A summary in JSON spells one value, from which
the answer and the severity and message of every event can be had back, whatever characters are in
the messages. The line for readers counts the changed fields.

## Main result

`summary_faithful`: the summary of any answer and events is decoded as the value that it stands for,
two summaries are the same only for the same answer and messages, and the number that a check prints
is the one of its events and of its walk.
-/

namespace DeployGate.Command

open Files (Inputs)
open Gate (Answers Config Event)
open Json (Spelled Value decode depthLimit readDatum)
open Plan (FieldDiff JobDiff ObjectDiff TaskDiff TaskGroupDiff)
open Walk (Outcome)

/-- What a summary says about an event: how severe it is, and its message. -/
inductive EntryFor (event : Event) : Value → Prop
  | info : event.severity = .info →
    EntryFor event (.object [("level", .string "info"), ("message", .string event.message)])
  | error : event.severity = .error →
    EntryFor event (.object [("level", .string "error"), ("message", .string event.message)])

/-- The answer, and an entry for every event in order. -/
inductive Summarizes (proceeds : Bool) (events : List Event) : Value → Prop
  | members {entries : List Value} : List.Forall₂ EntryFor events entries →
    Summarizes proceeds events
      (.object [("events", .array entries), ("proceed", .bool proceeds)])

/-! ### The value of a summary -/

section

variable {proceeds proceeds' : Bool} {events events' : List Event}

theorem entryFor_summaryEntry (event : Event) : EntryFor event (summaryEntry event) := by
  rw [summaryEntry]
  cases severity : event.severity with
  | info => exact .info severity
  | error => exact .error severity

theorem summarizes_summary (proceeds : Bool) (events : List Event) :
    Summarizes proceeds events (summary proceeds events) :=
  .members (List.forall₂_map_right_iff.mpr
    (List.forall₂_same.mpr fun event _ => entryFor_summaryEntry event))

theorem canonical_summary (proceeds : Bool) (events : List Event) :
    (summary proceeds events).Canonical := by
  have entry (event : Event) : (summaryEntry event).Canonical := by
    have ascending : ["level", "message"].Pairwise Text.Precedes := by decide
    exact .object ascending (by simp [Value.Canonical.string])
  have ascending : ["events", "proceed"].Pairwise Text.Precedes := by decide
  refine .object ascending ?_
  simp only [List.forall_mem_cons, List.not_mem_nil, false_implies, implies_true, and_true]
  exact ⟨.array (List.forall_mem_map.mpr fun event _ => entry event), .bool proceeds⟩

theorem integral_summary (proceeds : Bool) (events : List Event) :
    (summary proceeds events).Integral := by
  have entry (event : Event) : (summaryEntry event).Integral :=
    .object (by simp [Value.Integral.string])
  refine .object ?_
  simp only [List.forall_mem_cons, List.not_mem_nil, false_implies, implies_true, and_true]
  exact ⟨.array (List.forall_mem_map.mpr fun event _ => entry event), .bool proceeds⟩

/-- An entry is open in the list of entries, and that in the summary. -/
theorem depth_summary_le (proceeds : Bool) (events : List Event) :
    (summary proceeds events).depth ≤ 3 := by
  have entry (event : Event) : (summaryEntry event).depth ≤ 1 := by
    simp [summaryEntry, Value.depth, Value.depthMembers]
  have entries : Value.depthElements (events.map summaryEntry) ≤ 1 :=
    Value.depthElements_le_iff.mpr (List.forall_mem_map.mpr fun event _ => entry event)
  simp only [summary, Value.depth, Value.depthMembers]
  omega

/-! ### Reading a summary -/

theorem decode_summary (proceeds : Bool) (events : List Event) {blanks : List Char}
    (blank : ∀ c ∈ blanks, Json.isBlank c = true) :
    decode (readDatum depthLimit)
        (String.ofList ((summary proceeds events).indented 0 ++ blanks))
      = .ok ⟨summary proceeds events, canonical_summary proceeds events⟩ :=
  (integral_summary proceeds events).decode_indented (canonical_summary proceeds events)
    (Nat.le_trans (depth_summary_le proceeds events) (by decide)) blank

theorem blank_newLine : ∀ c ∈ ['\n'], Json.isBlank c = true :=
  List.forall_mem_singleton.mpr rfl

theorem summaryEntry_eq_iff {event event' : Event} :
    summaryEntry event = summaryEntry event' ↔
      event.severity = event'.severity ∧ event.message = event'.message := by
  rw [summaryEntry, summaryEntry]
  cases event.severity with
  | info | error => cases event'.severity with
    | info | error => simp

/-- A summary tells apart all that it is about. -/
theorem summaryText_eq_iff :
    summaryText proceeds events = summaryText proceeds' events' ↔
      proceeds = proceeds' ∧
        List.Forall₂
          (fun event event' => event.severity = event'.severity ∧ event.message = event'.message)
          events events' := by
  have entries : events.map summaryEntry = events'.map summaryEntry ↔
      List.Forall₂
        (fun event event' => event.severity = event'.severity ∧ event.message = event'.message)
        events events' := by
    simp only [← List.forall₂_eq_eq_eq, List.forall₂_map_left_iff, List.forall₂_map_right_iff,
      summaryEntry_eq_iff]
  rw [← entries]
  constructor
  · intro same
    -- the two texts are decoded as one value
    have decoded := decode_summary proceeds events blank_newLine
    rw [← summaryText, same, summaryText, decode_summary proceeds' events' blank_newLine] at decoded
    have values : summary proceeds' events' = summary proceeds events :=
      congrArg Subtype.val (Except.ok.inj decoded)
    simp only [summary, Value.object.injEq, List.cons.injEq, Prod.mk.injEq, Value.array.injEq,
      Value.bool.injEq, true_and, and_true] at values
    exact ⟨values.2.symm, values.1.symm⟩
  · rintro ⟨rfl, same⟩
    rw [summaryText, summaryText, summary, summary, same]

end

/-! ### The number of changes -/

theorem changeCount_eq_countP (events : List Event) :
    changeCount events = events.countP (·.change?.isSome) :=
  List.length_filterMap_eq_countP

section

variable {inputs : Inputs} {options : CheckOptions} {settings : Config} {job : JobDiff}

/-- A check that proceeds has a verdict on its diff. Its events change as many fields as the walk
has found, and none if there is no walk. -/
theorem verdict_of_proceeds (planned : Planned inputs options job)
    (proceeds : (options.check inputs settings).1 = true) :
    ∃ verdict, Answers (options.override settings) job (.ok verdict) ∧
      changeCount (options.check inputs settings).2.events
        = verdict.walk.elim 0 Outcome.emitted := by
  rw [check_planned planned] at proceeds ⊢
  obtain ⟨verdict, answered, -⟩ := Gate.proceeds_iff.mp proceeds
  have decides := Gate.decides (options.override settings) job
  rw [answered] at decides
  exact ⟨verdict, Gate.answers_iff.mpr answered.symm, decides.changes_length⟩

end

/-- The summary of any answer and events is one document that spells a value with the answer and an
entry for each event, and it is decoded as that value, also with the new line that is printed behind
it. Summaries are the same only if the answer and the severities and messages are. A check prints
the summary of its own answer and events; if it proceeds and prints a line for readers, the number
in it is that of the events that change a field, and the one that the walk counts, if any. -/
theorem summary_faithful :
    (∀ proceeds events,
      let rendered := String.ofList ((summary proceeds events).indented 0)
      summaryText proceeds events = rendered ++ "\n" ∧
      ∃ (datum : Json.Datum) (tree : Json.Tree), Summarizes proceeds events datum.val ∧
        datum.val.RenderedAs tree ∧ Spelled tree rendered ∧
        decode (readDatum depthLimit) rendered = .ok datum ∧
        decode (readDatum depthLimit) (summaryText proceeds events) = .ok datum) ∧
    (∀ proceeds events proceeds' events',
      summaryText proceeds events = summaryText proceeds' events' ↔
        proceeds = proceeds' ∧
          List.Forall₂
            (fun event event' => event.severity = event'.severity ∧ event.message = event'.message)
            events events') ∧
    ∀ inputs options verbose path style settings, Configured inputs path settings →
      let check (format : Format) : Invocation := ⟨.check options, verbose, path, format⟩
      let events := (options.check inputs settings).2.events
      (∀ answer, ((check .json).run inputs style).result = .ok answer →
        ((check .json).run inputs style).output = summaryText answer events) ∧
      (((check .text).run inputs style).result = .ok true →
        ∃ job verdict count, Planned inputs options job ∧
          Answers (options.override settings) job (.ok verdict) ∧
          ((check .text).run inputs style).output
            = style.boldGreen "✓" ++ " Deployment may proceed (" ++ style.bold (toString count)
              ++ " field changes)\n" ∧
          count = events.countP (·.change?.isSome) ∧
          count = verdict.walk.elim 0 Outcome.emitted) := by
  refine ⟨fun proceeds events => ?_, fun _ _ _ _ => summaryText_eq_iff, ?_⟩
  · have noBlanks : ∀ c ∈ [], Json.isBlank c = true := by simp
    have plain := decode_summary proceeds events noBlanks
    have spelled := (integral_summary proceeds events).spelled_indented noBlanks
    rw [List.append_nil] at plain spelled
    exact ⟨String.ofList_append, ⟨_, canonical_summary proceeds events⟩, _,
      summarizes_summary proceeds events, (integral_summary proceeds events).renderedAs_toTree,
      spelled, plain, decode_summary proceeds events blank_newLine⟩
  · intro inputs options verbose path style settings configured check events
    have ran (format : Format) : (check format).run inputs style = _ := run_configured configured
    rw [ran .json, ran .text]
    constructor
    · rintro answer ⟨⟩
      rfl
    · intro proceeds
      have proceeds := Except.ok.inj proceeds
      obtain ⟨job, planned, -⟩ := check_proceeds_iff.mp proceeds
      obtain ⟨verdict, answered, counted⟩ := verdict_of_proceeds planned proceeds
      refine ⟨job, verdict, changeCount events, planned, answered, ?_,
        changeCount_eq_countP events, counted⟩
      change verdictLine style _ events = _
      rw [proceeds, verdictLine, if_pos rfl]

/-- A check of a job in which one field changes. -/
theorem summary_faithful_edited :
    let job : JobDiff :=
      { type := .edited
        groups := [{ type := .edited, name := "web"
                     objects := [{ type := .edited, name := "Restart"
                                   fields := [.edited "Delay" "1" "2"] }] }] }
    let document : String := String.ofList job.toJson.compact
    let inputs : Inputs := ⟨fun _ => .error .missing, .ok document.toUTF8⟩
    let options : CheckOptions := { plan := "-", bareDiff := true }
    let text : Invocation := ⟨.check options, false, none, .text⟩
    let json : Invocation := ⟨.check options, false, none, .json⟩
    Configured inputs none {} ∧ (text.run inputs .plain).result = .ok true ∧
      (text.run inputs .plain).output = "✓ Deployment may proceed (1 field changes)\n" ∧
      (json.run inputs .plain).output = summaryText true
        [.fieldChanged ⟨"web", "", "Restart", "Delay", "1", "2"⟩] := by
  intro job document inputs options text json
  have planned : Planned inputs options job := .bare rfl rfl (Plan.ofJson_compact (by decide) rfl)
  have events : (options.check inputs {}).2.events
      = [.fieldChanged ⟨"web", "", "Restart", "Delay", "1", "2"⟩] := by
    rw [check_planned planned]
    rfl
  have cleared : Cleared inputs options none := ⟨{}, job, .default, planned, .edited⟩
  have proceeds : (text.run inputs .plain).result = .ok true := result_iff.mpr cleared
  obtain ⟨summarized, counts⟩ := summary_faithful.2.2 inputs options false none .plain {} .default
  obtain ⟨_, _, count, -, -, printed, counted, -⟩ := counts proceeds
  obtain rfl : count = 1 := counted.trans (by rw [events]; rfl)
  have summary : (json.run inputs .plain).output = _ := summarized true (result_iff.mpr cleared)
  rw [events] at summary
  exact ⟨.default, proceeds, printed.trans (by decide), summary⟩

end DeployGate.Command
