import DeployGate.Json.Write
import DeployGate.Plan.Response

/-!
# Writing plans

A node is written as an object with every declared key, in declared order.
-/

namespace DeployGate.Plan

open Json (Value)

def DiffType.toJson (type : DiffType) : Value := .string type.intoString

def textsToJson (texts : List String) : Value := .array (texts.map .string)

def FieldDiff.toJson (field : FieldDiff) : Value :=
  .object [("Type", field.type.toJson), ("Name", .string field.name), ("Old", .string field.old),
    ("New", .string field.new), ("Annotations", textsToJson field.annotations)]

def fieldsToJson (fields : List FieldDiff) : Value := .array (fields.map FieldDiff.toJson)

mutual

def ObjectDiff.toJson : ObjectDiff → Value
  | ⟨type, name, fields, objects⟩ =>
    .object [("Type", type.toJson), ("Name", .string name), ("Fields", fieldsToJson fields),
      ("Objects", .array (objectsToJson objects))]

def objectsToJson : List ObjectDiff → List Value
  | [] => []
  | object :: objects => object.toJson :: objectsToJson objects

end

def TaskDiff.toJson (task : TaskDiff) : Value :=
  .object [("Type", task.type.toJson), ("Name", .string task.name),
    ("Fields", fieldsToJson task.fields), ("Objects", .array (objectsToJson task.objects)),
    ("Annotations", textsToJson task.annotations)]

def TaskGroupDiff.toJson (group : TaskGroupDiff) : Value :=
  .object [("Type", group.type.toJson), ("Name", .string group.name),
    ("Fields", fieldsToJson group.fields), ("Objects", .array (objectsToJson group.objects)),
    ("Tasks", .array (group.tasks.map TaskDiff.toJson))]

def JobDiff.toJson (job : JobDiff) : Value :=
  .object [("Type", job.type.toJson), ("ID", .string job.id), ("Fields", fieldsToJson job.fields),
    ("Objects", .array (objectsToJson job.objects)),
    ("TaskGroups", .array (job.groups.map TaskGroupDiff.toJson))]

def Response.toJson (response : Response) : Value :=
  .object [("Diff", match response.diff with
      | none => .null
      | some diff => diff.toJson),
    ("JobModifyIndex", .number (.integer response.jobModifyIndex.toNat (by omega)
      (by have := response.jobModifyIndex.toNat_lt; omega))),
    ("Warnings", .string response.warnings),
    ("FailedTGAllocs", match response.unplaced with
      | none => .null
      | some members => .object members.entries)]

end DeployGate.Plan
