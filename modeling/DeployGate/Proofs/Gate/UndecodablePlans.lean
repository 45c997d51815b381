import DeployGate.Gate.PlanFile
import DeployGate.Proofs.Gate.FailureMessages
import DeployGate.Proofs.Json.FaultPlaces
import DeployGate.Proofs.Plan.Schema

/-!
# Plans that cannot be decoded

Where a plan cannot be decoded, an operator is told a line and a column. They are those of a place
in the document, whatever is wrong with it and however deep inside: the place where the reading came
upon the fault, or one that is a few bytes ahead of it. A gate that gets its plan of the document
fails with the same text.

## Main result

`ofJson_points`, for the diff of a job and for a plan response.
-/

namespace DeployGate.Plan

/-! ### Readers of plans -/

/-- The reader of a part stays in its text if the readers of the records in it do. -/
theorem Part.stays {depth : Nat} (node : ∀ kind : Kind, (kind.read depth).Stays)
    (item : ∀ kind : Kind, ∀ reader ∈ Json.within kind.read depth, reader.Stays) (name : String)
    (part : Part) : (part.key name depth).read.Stays := by
  have orElse {α : Type} {reader : Json.Reader α} (absent : α) (stays : reader.Stays) :
      (optional name reader absent).read.Stays :=
    (Json.stays_readNullable stays).map _
  cases part with
  | node kind => exact node kind
  | type => exact Json.stays_readText.map _
  | name => exact Json.stays_readText
  | text => exact orElse "" Json.stays_readText
  | texts =>
    refine orElse [] (Json.stays_readList fun reader inside => ?_)
    obtain ⟨_, -, rfl⟩ := Json.within_eq_some_iff.mp inside
    exact Json.stays_readText
  | nodes kind => exact orElse [] (Json.stays_readList (item kind))
  | diff => exact Json.stays_readNullable (node .job)
  | index => exact Json.stays_readUnsigned
  | unplaced =>
    refine Json.stays_readNullable (Json.stays_readMembersOf fun reader inside => ?_)
    obtain ⟨inner, -, rfl⟩ := Json.within_eq_some_iff.mp inside
    exact Json.stays_readDatum inner

theorem Parts.stay {depth : Nat} (stays : ∀ name (part : Part), (part.key name depth).read.Stays)
    (parts : Parts) : (parts.keys depth).Stay := by
  induction parts with
  | nil => trivial
  | cons entry parts ih => exact ⟨stays entry.1 entry.2, ih⟩

/-- Every reader of a plan leaves an end of its text or finds a fault in it. -/
theorem Kind.stays (kind : Kind) (depth : Nat) : (kind.read depth).Stays := by
  -- the elements of a list are read two levels further in
  induction depth using Nat.strongRecOn generalizing kind with
  | ind depth ih =>
    rw [kind.read_eq]
    refine Json.stays_readRecord kind.name fun record inside => ?_
    cases depth with
    | zero => cases inside
    | succ depth =>
      cases inside
      refine Parts.stay (Part.stays (ih depth (by omega)) fun kind reader inside => ?_) kind.parts
      obtain ⟨inner, rfl, rfl⟩ := Json.within_eq_some_iff.mp inside
      exact ih inner (by omega) kind

end DeployGate.Plan

namespace DeployGate.Gate

open Files (Inputs)
open Plan (JobDiff Response readJob readResponse)

/-- The defect is told with a place in the document, and the gate fails with what is told. The place
is that of the fault that the reader came upon: it is behind all that had been read by then, and
ahead of this by as many bytes as the fault points, which are four at most and none at the end. -/
structure Points {α : Type} (reader : Json.Reader α) (document : String) (defect : Json.Defect) :
    Prop where
  detail : ∃ cause, defect.message = cause ++ " at line " ++ toString defect.place.line
    ++ " column " ++ toString defect.place.column
  place : ∃ fault consumed, Json.readAll reader document.toList = .error fault ∧
    defect.cause = fault.cause ∧ document.toList = consumed ++ fault.rest ∧ fault.ahead ≤ 4 ∧
      defect.place.IsAt document
        (Text.byteCount consumed + if fault.rest = [] then 0 else fault.ahead)
  failure : Failure.undecodable defect.message
    = .source ("failed to decode plan JSON: " ++ defect.message)
  message : (Failure.undecodable defect.message).message
    = "plan source error: failed to decode plan JSON: " ++ defect.message
  load : ∀ {file : PlanFile} {inputs : Inputs}, inputs.text file.location = .ok document →
    file.decode document = .error defect →
      file.load inputs = .error (.undecodable defect.message)

namespace Failure

-- Nothing but the names is unfolded: the texts are too long to be compared letter by letter.
theorem undecodable_eq (detail : String) :
    undecodable detail = .source ("failed to decode plan JSON: " ++ detail) := by
  delta undecodable Plan.unreadable
  with_reducible rfl

end Failure

theorem points_of_decode {α : Type} {reader : Json.Reader α} (stays : reader.Stays)
    {document : String} {defect : Json.Defect}
    (failed : Json.decode reader document = .error defect) : Points reader document defect where
  detail := ⟨defect.cause.message, rfl⟩
  place := Json.decode_error_isAt stays failed
  failure := Failure.undecodable_eq defect.message
  message := by
    have words : "plan source error: " ++ "failed to decode plan JSON: "
        = "plan source error: failed to decode plan JSON: " := by decide
    rw [Failure.undecodable_eq, Failure.message_source, ← String.append_assoc, words]
  load := by
    intro file inputs text undecodable
    simp only [PlanFile.load, text, undecodable]
    rfl

/-- Whatever is wrong with a document, its defect points into it. -/
theorem ofJson_points :
    (∀ {document : String} {defect : Json.Defect}, JobDiff.ofJson document = .error defect →
      Points (readJob Json.depthLimit) document defect) ∧
      ∀ {document : String} {defect : Json.Defect}, Response.ofJson document = .error defect →
        Points (readResponse Json.depthLimit) document defect :=
  ⟨points_of_decode (Plan.Kind.job.stays Json.depthLimit),
    points_of_decode (Plan.Kind.response.stays Json.depthLimit)⟩

/-- The fields of a job are no number, on the second line behind a character of two bytes. -/
theorem ofJson_points_second :
    let document := "\x7b\"Type\":\"\",\n\"ID\":\"é\",\"Fields\":5\x7d"
    let defect : Json.Defect := ⟨.wrongType (.integer 5) "a sequence", ⟨2, 20⟩⟩
    JobDiff.ofJson document = .error defect ∧
      Points (readJob Json.depthLimit) document defect ∧
      defect.message = "invalid type: integer `5`, expected a sequence at line 2 column 20" := by
  intro document defect
  have failed : JobDiff.ofJson document = .error defect := by decide +kernel
  exact ⟨failed, ofJson_points.1 failed, by decide +kernel⟩

end DeployGate.Gate
