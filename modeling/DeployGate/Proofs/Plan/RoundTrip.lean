import DeployGate.Plan.Reading
import DeployGate.Plan.Writing
import DeployGate.Proofs.Json.Records
import DeployGate.Proofs.Json.Untyped
import DeployGate.Proofs.Plan.Normal

/-!
# Round trips of plans

A plan that is written in the compact form is read as its normal form, unless more lists and objects
are open in it than a reader allows. Every reader of a node takes the number that may still open, so
what is shown of each holds for every such number.

## Main result

`ofJson_toJson`: reading undoes writing, for the diff of a job and for a plan response, exactly up
to the limit of the depth.
-/

namespace DeployGate.Plan

open Json (Members Reader Recovers Value insertMember)

variable {depth : Nat}

/-! ### Values of keys -/

/-- A text or a list is recovered if it may also be left out or `null`. -/
theorem recovers_optional {β : Type} {read : Reader β} {value : Value} {result : β} (name : String)
    (absent : β) (recovers : Recovers depth read value result) (present : value ≠ .null) :
    Recovers depth (optional name read absent).read value result :=
  (recovers.nullable present).map fun found : Option β => found.getD absent

theorem recovers_optionalText (name text : String) :
    Recovers depth (optional name Json.readText "").read (.string text) text :=
  recovers_optional name "" (.text depth text) (by simp)

theorem recovers_optionalList {β : Type} {read : Reader (List β)} {values : List Value}
    {results : List β} (name : String) (recovers : Recovers depth read (.array values) results) :
    Recovers depth (optional name read []).read (.array values) results :=
  recovers_optional name [] recovers (by simp)

theorem recovers_type (type : DiffType) : Recovers depth readDiffType type.toJson type.norm := by
  rw [← DiffType.ofString_toString, ← DiffType.ofOwned_eq, ← DiffType.intoString_eq]
  exact (Recovers.text depth type.intoString).map DiffType.ofOwned

theorem recovers_texts (texts : List String) :
    Recovers depth (readTexts depth) (textsToJson texts) texts := by
  have recovers : Recovers depth (readTexts depth) (textsToJson texts) (texts.map id) :=
    .list_within texts fun depth text _ => .text depth text
  rwa [List.map_id] at recovers

/-! ### Nodes -/

theorem recovers_field (field : FieldDiff) :
    Recovers depth (readField depth) field.toJson field.norm := by
  refine Recovers.record_within "FieldDiff" (fun depth => ?_) (fun _ => ?_)
  · refine ⟨(field.type.norm, field.name, field.old, field.new, field.annotations, ()), rfl, ?_⟩
    exact .cons (recovers_type field.type)
      (.cons (.text depth field.name)
      (.cons (recovers_optionalText "Old" field.old)
      (.cons (recovers_optionalText "New" field.new)
      (.cons (recovers_optionalList "Annotations" (recovers_texts field.annotations)) .nil))))
  · change ["Type", "Name", "Old", "New", "Annotations"].Nodup
    decide

theorem recovers_fields (fields : List FieldDiff) :
    Recovers depth (readFields depth) (fieldsToJson fields) (fields.map FieldDiff.norm) :=
  .list_within fields fun _ field _ => recovers_field field

theorem readObject_eq (depth : Nat) :
    readObject depth = Json.readRecord "ObjectDiff" (Json.within
      (fun depth => objectRecord (readFields depth) (readObjects depth)) depth) := by
  cases depth <;> rfl

theorem readObjects_eq (depth : Nat) :
    readObjects depth = Json.readList (Json.within readObject depth) := by
  cases depth <;> rfl

theorem objectsToJson_eq_map (objects : List ObjectDiff) :
    objectsToJson objects = objects.map ObjectDiff.toJson := by
  induction objects with
  | nil => rfl
  | cons object objects ih => rw [objectsToJson, ih, List.map_cons]

theorem recovers_objects_of {objects : List ObjectDiff}
    (recover : ∀ depth, ∀ object ∈ objects,
      Recovers depth (readObject depth) object.toJson object.norm) :
    Recovers depth (readObjects depth) (.array (objectsToJson objects))
      (objects.map ObjectDiff.norm) := by
  rw [readObjects_eq, objectsToJson_eq_map]
  exact .list_within objects recover

theorem recovers_object (object : ObjectDiff) :
    Recovers depth (readObject depth) object.toJson object.norm := by
  -- children stand further in, where less depth is left: so the induction is for every depth
  induction object generalizing depth with
  | step type name fields objects ih =>
    rw [readObject_eq, ObjectDiff.toJson, ObjectDiff.norm, ObjectDiff.normAll_eq_map]
    refine Recovers.record_within "ObjectDiff" (fun depth => ?_) (fun _ => ?_)
    · refine ⟨(type.norm, name, fields.map FieldDiff.norm, objects.map ObjectDiff.norm, ()), rfl,
        ?_⟩
      have children : Recovers depth (readObjects depth) (.array (objectsToJson objects))
          (objects.map ObjectDiff.norm) := recovers_objects_of fun _ child inside => ih child inside
      exact .cons (recovers_type type)
        (.cons (.text depth name)
        (.cons (recovers_optionalList "Fields" (recovers_fields fields))
        (.cons (recovers_optionalList "Objects" children) .nil)))
    · change ["Type", "Name", "Fields", "Objects"].Nodup
      decide

theorem recovers_objects (objects : List ObjectDiff) :
    Recovers depth (readObjects depth) (.array (objectsToJson objects))
      (objects.map ObjectDiff.norm) :=
  recovers_objects_of fun _ object _ => recovers_object object

theorem recovers_task (task : TaskDiff) :
    Recovers depth (readTask depth) task.toJson task.norm := by
  refine Recovers.record_within "TaskDiff" (fun depth => ?_) (fun _ => ?_)
  · refine ⟨(task.type.norm, task.name, task.fields.map FieldDiff.norm,
      task.objects.map ObjectDiff.norm, task.annotations, ()), rfl, ?_⟩
    exact .cons (recovers_type task.type)
      (.cons (.text depth task.name)
      (.cons (recovers_optionalList "Fields" (recovers_fields task.fields))
      (.cons (recovers_optionalList "Objects" (recovers_objects task.objects))
      (.cons (recovers_optionalList "Annotations" (recovers_texts task.annotations)) .nil))))
  · change ["Type", "Name", "Fields", "Objects", "Annotations"].Nodup
    decide

theorem recovers_group (group : TaskGroupDiff) :
    Recovers depth (readGroup depth) group.toJson group.norm := by
  refine Recovers.record_within "TaskGroupDiff" (fun depth => ?_) (fun _ => ?_)
  · refine ⟨(group.type.norm, group.name, group.fields.map FieldDiff.norm,
      group.objects.map ObjectDiff.norm, group.tasks.map TaskDiff.norm, ()), rfl, ?_⟩
    have tasks : Recovers depth (readTasks depth) (.array (group.tasks.map TaskDiff.toJson))
        (group.tasks.map TaskDiff.norm) :=
      .list_within group.tasks fun _ task _ => recovers_task task
    exact .cons (recovers_type group.type)
      (.cons (.text depth group.name)
      (.cons (recovers_optionalList "Fields" (recovers_fields group.fields))
      (.cons (recovers_optionalList "Objects" (recovers_objects group.objects))
      (.cons (recovers_optionalList "Tasks" tasks) .nil))))
  · change ["Type", "Name", "Fields", "Objects", "Tasks"].Nodup
    decide

theorem recovers_job (job : JobDiff) : Recovers depth (readJob depth) job.toJson job.norm := by
  refine Recovers.record_within "JobDiff" (fun depth => ?_) (fun _ => ?_)
  · refine ⟨(job.type.norm, job.id, job.fields.map FieldDiff.norm,
      job.objects.map ObjectDiff.norm, job.groups.map TaskGroupDiff.norm, ()), rfl, ?_⟩
    have groups : Recovers depth (readGroups depth) (.array (job.groups.map TaskGroupDiff.toJson))
        (job.groups.map TaskGroupDiff.norm) :=
      .list_within job.groups fun _ group _ => recovers_group group
    exact .cons (recovers_type job.type)
      (.cons (recovers_optionalText "ID" job.id)
      (.cons (recovers_optionalList "Fields" (recovers_fields job.fields))
      (.cons (recovers_optionalList "Objects" (recovers_objects job.objects))
      (.cons (recovers_optionalList "TaskGroups" groups) .nil))))
  · change ["Type", "ID", "Fields", "Objects", "TaskGroups"].Nodup
    decide

/-- No untyped value of the response has a binary64 number in it. -/
def Response.Integral (response : Response) : Prop :=
  ∀ members, response.unplaced = some members →
    ∀ member ∈ members.entries, member.2.Integral

theorem recovers_response {response : Response} (integral : response.Integral) :
    Recovers depth (readResponse depth) response.toJson response.norm := by
  refine Recovers.record_within "JobPlanResponse" (fun depth => ?_) (fun _ => ?_)
  · refine ⟨(response.diff.map JobDiff.norm, response.jobModifyIndex, response.warnings,
      response.unplaced, ()), rfl, ?_⟩
    refine .cons ?diff (.cons (.unsigned depth response.jobModifyIndex _ _)
      (.cons (recovers_optionalText "Warnings" response.warnings) (.cons ?unplaced .nil)))
    case diff =>
      cases response.diff with
      | none => exact .nullable_null depth _
      | some job => exact (recovers_job job).nullable (by simp [JobDiff.toJson])
    case unplaced =>
      cases found : response.unplaced with
      | none => exact .nullable_null depth _
      | some members =>
        refine Recovers.nullable (.members_within members ?_) (by simp)
        intro depth member inside canonical
        exact .datum (integral members found member inside) canonical
  · change ["Diff", "JobModifyIndex", "Warnings", "FailedTGAllocs"].Nodup
    decide

/-! ### Documents -/

/-- A job in normal form is decoded from its compact form. -/
theorem ofJson_compact {job : JobDiff} (shallow : job.toJson.depth ≤ Json.depthLimit)
    (normal : job.norm = job) : JobDiff.ofJson (String.ofList job.toJson.compact) = .ok job := by
  have decoded := (recovers_job job).decode shallow
  rwa [normal] at decoded

/-- Decoding the compact form of a value gives the normal form of what was written, which is what
was written itself exactly when no unknown type has the name of a known one. If more than 127 lists
and objects are open in the value, decoding fails with a message about that and a place. -/
structure RoundTrip {α : Type} (decode : String → Except Json.Defect α) (value : Value)
    (original normal : α) (types : List DiffType) : Prop where
  decoded : value.depth ≤ 127 → decode (String.ofList value.compact) = .ok normal
  unchanged : value.depth ≤ 127 →
    (decode (String.ofList value.compact) = .ok original ↔
      ∀ raw, .unrecognized raw ∈ types → ¬ DiffType.Names raw)
  tooDeep : 127 < value.depth → ∃ defect line column,
    decode (String.ofList value.compact) = .error defect ∧
      defect.message = "recursion limit exceeded at line " ++ toString (line : Nat) ++ " column "
        ++ toString (column : Nat)

theorem roundTrip_of_recovers {α : Type} {reader : Reader α} {value : Value} {original normal : α}
    {types : List DiffType} (recovers : Recovers Json.depthLimit reader value normal)
    (same : normal = original ↔ ∀ type ∈ types, type.norm = type) :
    RoundTrip (Json.decode reader) value original normal types where
  decoded := recovers.decode
  unchanged shallow := by
    rw [recovers.decode shallow, Except.ok.injEq, same, DiffType.forall_norm_eq_self_iff]
  tooDeep deep := by
    obtain ⟨place, tooDeep⟩ := recovers.decode_tooDeep deep
    exact ⟨_, place.line, place.column, tooDeep, rfl⟩

/-- Reading undoes writing. -/
theorem ofJson_toJson :
    (∀ job : JobDiff, RoundTrip JobDiff.ofJson job.toJson job job.norm job.types) ∧
    ∀ response : Response, response.Integral →
      RoundTrip Response.ofJson response.toJson response response.norm response.types :=
  ⟨fun job => roundTrip_of_recovers (recovers_job job) job.norm_eq_self_iff,
    fun response integral =>
      roundTrip_of_recovers (recovers_response integral) response.norm_eq_self_iff⟩

theorem ofJson_toJson_unplaced :
    let response : Response :=
      { jobModifyIndex := 7
        unplaced := some (Members.empty.insert "web" ⟨.bool true, .bool true⟩) }
    response.Integral ∧ Response.ofJson (String.ofList response.toJson.compact) = .ok response := by
  intro response
  have integral : response.Integral := by
    intro members found member inside
    obtain rfl := Option.some.inj found
    obtain rfl : member = ("web", .bool true) := by
      simpa [Members.insert, Members.empty, insertMember] using inside
    exact .bool true
  have shallow : response.toJson.depth ≤ 127 := by decide
  refine ⟨integral, ((ofJson_toJson.2 response integral).unchanged shallow).mpr ?_⟩
  intro raw inside
  cases inside

end DeployGate.Plan
