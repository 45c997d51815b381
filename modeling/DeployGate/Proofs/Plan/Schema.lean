import DeployGate.Proofs.Json.DecodingRecords
import DeployGate.Proofs.Plan.RoundTrip

/-!
# The schema of plans

The records of a plan and the parts that they are made of, as data. What holds of every record is
told once for all of them.
-/

namespace DeployGate.Plan

open Json (Decoders Key Keys Members Reader Reads Record Row Tree)

inductive Kind
  | response
  | job
  | group
  | task
  | object
  | field
  deriving DecidableEq, Repr

/-- What the value of a key is, or a record itself. -/
inductive Part
  | node (kind : Kind)
  | type
  | name
  | text
  | texts
  | nodes (kind : Kind)
  | diff
  | index
  | unplaced
  deriving DecidableEq, Repr

abbrev Kind.Result : Kind → Type
  | response => Response
  | job => JobDiff
  | group => TaskGroupDiff
  | task => TaskDiff
  | object => ObjectDiff
  | field => FieldDiff

abbrev Part.Result : Part → Type
  | node kind => kind.Result
  | type => DiffType
  | name => String
  | text => String
  | texts => List String
  | nodes kind => List kind.Result
  | diff => Option JobDiff
  | index => UInt64
  | unplaced => Option Members

abbrev Parts := List (String × Part)

/-- The types of the values of the keys. -/
def Parts.types (parts : Parts) : List Type := parts.map fun entry => entry.2.Result

namespace Kind

/-- The declared keys, in order. -/
def parts : Kind → Parts
  | response =>
    [("Diff", .diff), ("JobModifyIndex", .index), ("Warnings", .text),
      ("FailedTGAllocs", .unplaced)]
  | job =>
    [("Type", .type), ("ID", .text), ("Fields", .nodes field), ("Objects", .nodes object),
      ("TaskGroups", .nodes group)]
  | group =>
    [("Type", .type), ("Name", .name), ("Fields", .nodes field), ("Objects", .nodes object),
      ("Tasks", .nodes task)]
  | task =>
    [("Type", .type), ("Name", .name), ("Fields", .nodes field), ("Objects", .nodes object),
      ("Annotations", .texts)]
  | object =>
    [("Type", .type), ("Name", .name), ("Fields", .nodes field), ("Objects", .nodes object)]
  | field =>
    [("Type", .type), ("Name", .name), ("Old", .text), ("New", .text), ("Annotations", .texts)]

def build : (kind : Kind) → Row kind.parts.types → kind.Result
  | response, (diff, index, warnings, unplaced, _) => ⟨diff, index, warnings, unplaced⟩
  | job, (type, id, fields, objects, groups, _) => ⟨type, id, fields, objects, groups⟩
  | group, (type, name, fields, objects, tasks, _) => ⟨type, name, fields, objects, tasks⟩
  | task, (type, name, fields, objects, annotations, _) =>
    ⟨type, name, fields, objects, annotations⟩
  | object, (type, name, fields, objects, _) => ⟨type, name, fields, objects⟩
  | field, (type, name, old, new, annotations, _) => ⟨type, name, old, new, annotations⟩

def row : (kind : Kind) → kind.Result → Row kind.parts.types
  | response, ⟨diff, index, warnings, unplaced⟩ => (diff, index, warnings, unplaced, ())
  | job, ⟨type, id, fields, objects, groups⟩ => (type, id, fields, objects, groups, ())
  | group, ⟨type, name, fields, objects, tasks⟩ => (type, name, fields, objects, tasks, ())
  | task, ⟨type, name, fields, objects, annotations⟩ =>
    (type, name, fields, objects, annotations, ())
  | object, ⟨type, name, fields, objects⟩ => (type, name, fields, objects, ())
  | field, ⟨type, name, old, new, annotations⟩ => (type, name, old, new, annotations, ())

theorem row_build (kind : Kind) (row : Row kind.parts.types) : kind.row (kind.build row) = row := by
  cases kind <;> rfl

/-- The reader of a record whose parts are inside `depth` more lists and objects. -/
def read : (kind : Kind) → (depth : Nat) → Reader kind.Result
  | response => readResponse
  | job => readJob
  | group => readGroup
  | task => readTask
  | object => readObject
  | field => readField

def name : Kind → String
  | response => "JobPlanResponse"
  | job => "JobDiff"
  | group => "TaskGroupDiff"
  | task => "TaskDiff"
  | object => "ObjectDiff"
  | field => "FieldDiff"

end Kind

/-- The key of a part. -/
def Part.key (name : String) (depth : Nat) : (part : Part) → Key part.Result
  | node kind => required name (kind.read depth)
  | type => required name readDiffType
  | .name => required name Json.readText
  | text => optional name Json.readText ""
  | texts => optional name (readTexts depth) []
  | nodes kind => optional name (Json.readList (Json.within kind.read depth)) []
  | diff => ⟨name, Json.readNullable (readJob depth), some none⟩
  | index => ⟨name, Json.readUnsigned, some 0⟩
  | unplaced => ⟨name, Json.readNullable (readUnplaced depth), some none⟩

/-- The keys of the parts. -/
def Parts.keys (depth : Nat) : (parts : Parts) → Keys parts.types
  | [] => .nil
  | (name, part) :: parts => .cons (part.key name depth) (Parts.keys depth parts)

def Kind.record (kind : Kind) (depth : Nat) : Record kind.Result where
  types := kind.parts.types
  keys := kind.parts.keys depth
  build := kind.build

/-- Each reader of a plan reads its record of the schema. -/
theorem Kind.read_eq (kind : Kind) (depth : Nat) :
    kind.read depth = Json.readRecord kind.name (Json.within kind.record depth) := by
  cases kind with
  | response => rfl
  | field => rfl
  | object =>
    have same : Kind.record object
        = fun depth => objectRecord (readFields depth) (readObjects depth) := by
      funext depth
      rw [readObjects_eq]
      rfl
    rw [same]
    exact readObject_eq depth
  | task =>
    have same : Kind.record task = taskRecord := by
      funext depth
      rw [taskRecord, readObjects_eq]
      rfl
    rw [same]
    rfl
  | group =>
    have same : Kind.record group = groupRecord := by
      funext depth
      rw [groupRecord, readObjects_eq]
      rfl
    rw [same]
    rfl
  | job =>
    have same : Kind.record job = jobRecord := by
      funext depth
      rw [jobRecord, readObjects_eq]
      rfl
    rw [same]
    rfl

/-! ### Decoding -/

/-- A list or text that may be left out or `null`. -/
def orElse {α : Type} (absent : α) (decode : Tree → Option α) (tree : Tree) : Option α :=
  (Json.decodeNullable decode tree).map (·.getD absent)

theorem orElse_of_ne_null {α : Type} (absent : α) (decode : Tree → Option α) {tree : Tree}
    (solid : tree ≠ .null) : orElse absent decode tree = decode tree := by
  have present : Json.decodeNullable decode tree = (decode tree).map some := by
    cases tree with
    | null => exact absurd rfl solid
    | _ => rfl
  rw [orElse, present]
  cases decode tree <;> rfl

theorem orElse_eq_some_iff {α : Type} {absent value : α} {decode : Tree → Option α} {tree : Tree} :
    orElse absent decode tree = some value ↔
      (tree = .null ∧ value = absent) ∨ (tree ≠ .null ∧ decode tree = some value) := by
  by_cases null : tree = .null
  · subst null
    simp [orElse, Json.decodeNullable, eq_comm]
  · simp [orElse_of_ne_null absent decode null, null]

section

variable (node : (kind : Kind) → Tree → Option kind.Result)
  (item : Option ((kind : Kind) → Tree → Option kind.Result)) (depth : Nat)

/-- What a part is read as, given what the records in it are read as. -/
def Part.decodeWith : (part : Part) → Tree → Option part.Result
  | .node kind => node kind
  | type => fun tree => (Json.decodeText tree).map DiffType.ofString
  | name => Json.decodeText
  | text => orElse "" Json.decodeText
  | texts => orElse [] (Json.decodeList (Json.within (fun _ => Json.decodeText) depth))
  | nodes kind => orElse [] (Json.decodeList (item.map fun item => item kind))
  | diff => Json.decodeNullable (node .job)
  | index => Json.decodeUnsigned
  | unplaced => Json.decodeNullable (Json.decodeMembersOf (Json.within Json.decodeDatum depth))

def Parts.decodersWith : (parts : Parts) → Decoders parts.types
  | [] => ()
  | (_, part) :: parts => (part.decodeWith node item depth, Parts.decodersWith parts)

end

/-- What a record is read as where `depth` lists and objects may open. -/
def Kind.decode : (depth : Nat) → (kind : Kind) → Tree → Option kind.Result
  | 0, _, _ => none
  | depth + 1, kind, tree =>
    (kind.record depth).decode (kind.parts.decodersWith (Kind.decode depth)
      (match depth with
        | 0 => none
        | depth + 1 => some (Kind.decode depth)) depth) tree

/-- What a part is read as where `depth` lists and objects may open. -/
def Part.decode (part : Part) (depth : Nat) : Tree → Option part.Result :=
  part.decodeWith (Kind.decode depth) (Json.within Kind.decode depth) depth

def Parts.decoders (depth : Nat) : (parts : Parts) → Decoders parts.types
  | [] => ()
  | (_, part) :: parts => (part.decode depth, Parts.decoders depth parts)

theorem Parts.decodersWith_eq (depth : Nat) (parts : Parts) :
    parts.decodersWith (Kind.decode depth) (Json.within Kind.decode depth) depth
      = parts.decoders depth := by
  induction parts with
  | nil => rfl
  | cons entry parts ih => exact congrArg (Prod.mk _) ih

theorem Kind.decode_succ (kind : Kind) (depth : Nat) :
    kind.decode (depth + 1) = (kind.record depth).decode (kind.parts.decoders depth) := by
  rw [← Parts.decodersWith_eq]
  cases depth <;> rfl

theorem Part.decode_type (depth : Nat) :
    type.decode depth = fun tree => (Json.decodeText tree).map DiffType.ofString :=
  rfl

theorem Part.decode_text (depth : Nat) : text.decode depth = orElse "" Json.decodeText := rfl

theorem Part.decode_texts (depth : Nat) :
    texts.decode depth
      = orElse [] (Json.decodeList (Json.within (fun _ => Json.decodeText) depth)) :=
  rfl

theorem Part.decode_nodes (kind : Kind) (depth : Nat) :
    (nodes kind).decode depth
      = orElse [] (Json.decodeList (Json.within (fun depth => kind.decode depth) depth)) := by
  cases depth <;> rfl

/-! ### Key by key -/

/-- What stands for a part that is left out. -/
def Part.absent : (part : Part) → Option part.Result
  | node _ => none
  | type => none
  | name => none
  | text => some ""
  | texts => some []
  | nodes _ => some []
  | diff => some none
  | index => some 0
  | unplaced => some none

/-- What the values of a key come to. -/
def Part.cell (part : Part) (depth : Nat) : List Tree → Option part.Result
  | [] => part.absent
  | [tree] => part.decode depth tree
  | _ => none

namespace Parts

/-- The row of the members of an object. -/
def ofMembers (depth : Nat) (parts : Parts) (members : List (List Nat × Tree)) :
    Option (Row parts.types) :=
  (parts.keys depth).rowOfMembers (parts.decoders depth) members

/-- The row of the elements of a list. -/
def ofElements (depth : Nat) (parts : Parts) (elements : List Tree) : Option (Row parts.types) :=
  (parts.keys depth).rowOfElements (parts.decoders depth) elements

variable {depth : Nat} {name : String} {part : Part} {parts : Parts}

theorem ofMembers_cons (members : List (List Nat × Tree)) :
    ofMembers depth ((name, part) :: parts) members =
      (part.cell depth (Json.valuesOf name members)).bind fun value =>
        (parts.ofMembers depth members).map fun row => (value, row) := by
  have named : (part.key name depth).name = name := by cases part <;> rfl
  have cell (values : List Tree) :
      (part.key name depth).cell (part.decode depth) values = part.cell depth values := by
    cases values with
    | nil => cases part <;> rfl
    | cons value values => cases values <;> rfl
  have values : Json.valuesOf (part.key name depth).name members = Json.valuesOf name members := by
    rw [named]
  rw [← cell, ← values]
  rfl

theorem ofElements_nil :
    ofElements depth ((name, part) :: parts) [] =
      part.absent.bind fun value => (parts.ofElements depth []).map fun row => (value, row) := by
  cases part <;> rfl

theorem ofElements_cons (element : Tree) (elements : List Tree) :
    ofElements depth ((name, part) :: parts) (element :: elements) =
      (part.decode depth element).bind fun value =>
        (parts.ofElements depth elements).map fun row => (value, row) :=
  rfl

end Parts

namespace Kind

theorem decode_object (kind : Kind) (depth : Nat) (members : List (List Nat × Tree)) :
    kind.decode (depth + 1) (.object members) =
      if Json.areTexts members then (kind.parts.ofMembers depth members).map kind.build
      else none := by
  rw [decode_succ]
  rfl

theorem decode_array (kind : Kind) (depth : Nat) (elements : List Tree) :
    kind.decode (depth + 1) (.array elements)
      = (kind.parts.ofElements depth elements).map kind.build := by
  rw [decode_succ]
  rfl

/-- How a record is made of a tree. -/
inductive Decoded (kind : Kind) : Nat → Tree → kind.Result → Prop
  | object {depth : Nat} {members : List (List Nat × Tree)} {row : Row kind.parts.types} :
    Json.areTexts members = true → kind.parts.ofMembers depth members = some row →
      kind.Decoded (depth + 1) (.object members) (kind.build row)
  | array {depth : Nat} {elements : List Tree} {row : Row kind.parts.types} :
    kind.parts.ofElements depth elements = some row →
      kind.Decoded (depth + 1) (.array elements) (kind.build row)

theorem decode_eq_some_iff {kind : Kind} {depth : Nat} {tree : Tree} {result : kind.Result} :
    kind.decode depth tree = some result ↔ kind.Decoded depth tree result := by
  constructor
  · intro decoded
    cases depth with
    | zero => cases decoded
    | succ depth =>
      cases tree with
      | object members =>
        rw [decode_object] at decoded
        split at decoded
        next texts =>
          obtain ⟨row, found, rfl⟩ := Option.map_eq_some_iff.mp decoded
          exact .object texts found
        next => cases decoded
      | array elements =>
        rw [decode_array] at decoded
        obtain ⟨row, found, rfl⟩ := Option.map_eq_some_iff.mp decoded
        exact .array found
      | _ => rw [decode_succ] at decoded; cases decoded
  · intro decoded
    cases decoded with
    | object texts found => rw [decode_object, if_pos texts, found, Option.map_some]
    | array found => rw [decode_array, found, Option.map_some]

end Kind

/-! ### Readers -/

theorem reads_orElse {α : Type} {reader : Reader α} {decode : Tree → Option α} (name : String)
    (absent : α) (reads : Reads reader decode) :
    Reads (optional name reader absent).read (orElse absent decode) :=
  reads.nullable.map fun found : Option α => found.getD absent

theorem Kind.names_nodup (kind : Kind) : (kind.parts.map Prod.fst).Nodup := by
  cases kind <;> decide

theorem Parts.names_keys (depth : Nat) (parts : Parts) :
    (parts.keys depth).names = parts.map Prod.fst := by
  induction parts with
  | nil => rfl
  | cons entry parts ih =>
    obtain ⟨name, part⟩ := entry
    have named : (part.key name depth).name = name := by cases part <;> rfl
    exact congrArg₂ List.cons named ih

/-- The reader of a part reads it if the readers of the records in it do. -/
theorem Part.reads {depth : Nat} (node : ∀ kind : Kind, Reads (kind.read depth) (kind.decode depth))
    (item : ∀ kind : Kind, Option.Rel Reads (Json.within kind.read depth)
      (Json.within (fun depth => kind.decode depth) depth)) (name : String) (part : Part) :
    Reads (part.key name depth).read (part.decode depth) := by
  cases part with
  | node kind => exact node kind
  | type =>
    have same : DiffType.ofString = DiffType.ofOwned :=
      funext fun text => (DiffType.ofOwned_eq text).symm
    rw [Part.decode_type, same]
    exact Reads.text.map DiffType.ofOwned
  | name => exact Reads.text
  | text => exact reads_orElse name "" Reads.text
  | texts => exact reads_orElse name [] (.list (Reads.within (fun _ => Reads.text) depth))
  | nodes kind =>
    rw [Part.decode_nodes]
    exact reads_orElse name [] (.list (item kind))
  | diff => exact (node .job).nullable
  | index => exact Reads.unsigned
  | unplaced => exact (Reads.membersOf (Reads.within Reads.datum depth)).nullable

theorem Parts.reads {depth : Nat}
    (reads : ∀ name (part : Part), Reads (part.key name depth).read (part.decode depth))
    (parts : Parts) : (parts.keys depth).Reads (parts.decoders depth) := by
  induction parts with
  | nil => trivial
  | cons entry parts ih => exact ⟨reads entry.1 entry.2, ih⟩

/-- Every reader of a plan reads what its record in the schema says. -/
theorem Kind.reads (kind : Kind) (depth : Nat) : Reads (kind.read depth) (kind.decode depth) := by
  -- the elements of a list are read two levels further in
  induction depth using Nat.strongRecOn generalizing kind with
  | ind depth ih =>
    rw [kind.read_eq]
    cases depth with
    | zero => exact Reads.record_none kind.name
    | succ depth =>
      rw [kind.decode_succ]
      refine Reads.record kind.name (Parts.reads ?_ kind.parts) ?_ rfl
      · intro name part
        refine Part.reads (fun kind => ih depth (by omega) kind) (fun kind => ?_) name part
        cases depth with
        | zero => exact .none
        | succ depth => exact .some (ih depth (by omega) kind)
      · rw [Kind.record, Parts.names_keys]
        exact kind.names_nodup

end DeployGate.Plan
