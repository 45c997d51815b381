import DeployGate.Json.Record
import DeployGate.Plan.Response

/-!
# Reading plans

Every node of a diff is a record. `Type` must be there, and `Name` in every node but the job. A text
that may be left out may also be `null`, which is the empty text, and likewise a list. A reader
takes the number of lists and objects that may still open.
-/

namespace DeployGate.Plan

open Json (Reader Record Key Keys)

/-- The key of a value that must be there. -/
def required (name : String) (read : Reader β) : Key β := ⟨name, read, none⟩

/-- The key of a value that may be left out or `null`. -/
def optional (name : String) (read : Reader β) (absent : β) : Key β :=
  ⟨name, (Json.readNullable read).map (·.getD absent), some absent⟩

def readDiffType : Reader DiffType := Json.readText.map DiffType.ofOwned

def readTexts (depth : Nat) : Reader (List String) :=
  Json.readList (Json.within (fun _ => Json.readText) depth)

/-- The record of a field whose parts are inside `depth` more lists and objects. -/
def fieldRecord (depth : Nat) : Record FieldDiff where
  types := [DiffType, String, String, String, List String]
  keys :=
    .cons (required "Type" readDiffType) <|
    .cons (required "Name" Json.readText) <|
    .cons (optional "Old" Json.readText "") <|
    .cons (optional "New" Json.readText "") <|
    .cons (optional "Annotations" (readTexts depth) []) .nil
  build := fun (type, name, old, new, annotations, _) => ⟨type, name, old, new, annotations⟩

def readField (depth : Nat) : Reader FieldDiff :=
  Json.readRecord "FieldDiff" (Json.within fieldRecord depth)

def readFields (depth : Nat) : Reader (List FieldDiff) :=
  Json.readList (Json.within readField depth)

def objectRecord (fields : Reader (List FieldDiff)) (objects : Reader (List ObjectDiff)) :
    Record ObjectDiff where
  types := [DiffType, String, List FieldDiff, List ObjectDiff]
  keys :=
    .cons (required "Type" readDiffType) <|
    .cons (required "Name" Json.readText) <|
    .cons (optional "Fields" fields []) <|
    .cons (optional "Objects" objects []) .nil
  build := fun (type, name, fields, objects, _) => ⟨type, name, fields, objects⟩

mutual

def readObject : (depth : Nat) → Reader ObjectDiff
  | 0 => Json.readRecord "ObjectDiff" none
  | depth + 1 =>
    Json.readRecord "ObjectDiff" (some (objectRecord (readFields depth) (readObjects depth)))

def readObjects : (depth : Nat) → Reader (List ObjectDiff)
  | 0 => Json.readList none
  | depth + 1 => Json.readList (some (readObject depth))

end

def taskRecord (depth : Nat) : Record TaskDiff where
  types := [DiffType, String, List FieldDiff, List ObjectDiff, List String]
  keys :=
    .cons (required "Type" readDiffType) <|
    .cons (required "Name" Json.readText) <|
    .cons (optional "Fields" (readFields depth) []) <|
    .cons (optional "Objects" (readObjects depth) []) <|
    .cons (optional "Annotations" (readTexts depth) []) .nil
  build := fun (type, name, fields, objects, annotations, _) =>
    ⟨type, name, fields, objects, annotations⟩

def readTask (depth : Nat) : Reader TaskDiff :=
  Json.readRecord "TaskDiff" (Json.within taskRecord depth)

def readTasks (depth : Nat) : Reader (List TaskDiff) :=
  Json.readList (Json.within readTask depth)

def groupRecord (depth : Nat) : Record TaskGroupDiff where
  types := [DiffType, String, List FieldDiff, List ObjectDiff, List TaskDiff]
  keys :=
    .cons (required "Type" readDiffType) <|
    .cons (required "Name" Json.readText) <|
    .cons (optional "Fields" (readFields depth) []) <|
    .cons (optional "Objects" (readObjects depth) []) <|
    .cons (optional "Tasks" (readTasks depth) []) .nil
  build := fun (type, name, fields, objects, tasks, _) => ⟨type, name, fields, objects, tasks⟩

def readGroup (depth : Nat) : Reader TaskGroupDiff :=
  Json.readRecord "TaskGroupDiff" (Json.within groupRecord depth)

def readGroups (depth : Nat) : Reader (List TaskGroupDiff) :=
  Json.readList (Json.within readGroup depth)

def jobRecord (depth : Nat) : Record JobDiff where
  types := [DiffType, String, List FieldDiff, List ObjectDiff, List TaskGroupDiff]
  keys :=
    .cons (required "Type" readDiffType) <|
    .cons (optional "ID" Json.readText "") <|
    .cons (optional "Fields" (readFields depth) []) <|
    .cons (optional "Objects" (readObjects depth) []) <|
    .cons (optional "TaskGroups" (readGroups depth) []) .nil
  build := fun (type, id, fields, objects, groups, _) => ⟨type, id, fields, objects, groups⟩

def readJob (depth : Nat) : Reader JobDiff :=
  Json.readRecord "JobDiff" (Json.within jobRecord depth)

def readUnplaced (depth : Nat) : Reader Json.Members :=
  Json.readMembersOf (Json.within Json.readDatum depth)

def responseRecord (depth : Nat) : Record Response where
  types := [Option JobDiff, UInt64, String, Option Json.Members]
  keys :=
    .cons ⟨"Diff", Json.readNullable (readJob depth), some none⟩ <|
    .cons ⟨"JobModifyIndex", Json.readUnsigned, some 0⟩ <|
    .cons (optional "Warnings" Json.readText "") <|
    .cons ⟨"FailedTGAllocs", Json.readNullable (readUnplaced depth), some none⟩ .nil
  build := fun (diff, index, warnings, unplaced, _) => ⟨diff, index, warnings, unplaced⟩

def readResponse (depth : Nat) : Reader Response :=
  Json.readRecord "JobPlanResponse" (Json.within responseRecord depth)

def JobDiff.ofJson (document : String) : Except Json.Defect JobDiff :=
  Json.decode (readJob Json.depthLimit) document

def Response.ofJson (document : String) : Except Json.Defect Response :=
  Json.decode (readResponse Json.depthLimit) document

def unreadable (detail : String) : String := "failed to decode plan JSON: " ++ detail

end DeployGate.Plan
