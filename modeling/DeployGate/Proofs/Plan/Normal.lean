import DeployGate.Plan.Response
import Mathlib.Data.List.Basic

/-!
# Normal forms of diffs

A type that no one knows is written as its text, and this text may be the name of a known type. So
when a written diff is read, every type comes back as what its text says: the diff in its normal
form. A diff is its own normal form exactly when no unknown type has the name of a known one.
-/

namespace DeployGate.Plan

/-! ### Types -/

namespace DiffType

/-- The type with its text read again. -/
def norm : DiffType → DiffType
  | unrecognized raw => ofString raw
  | type => type

theorem ofString_toString (type : DiffType) : ofString type.toString = type.norm := by
  cases type with
  | unrecognized raw => rfl
  | _ => decide

/-- The text is the name of a known type, in any case of its ASCII letters. -/
def Names (raw : String) : Prop :=
  ∃ name ∈ ["Added", "Deleted", "Edited", "None"], sameIgnoringCase name raw = true

theorem names_iff {raw : String} :
    Names raw ↔ ∃ entry ∈ known, sameIgnoringCase entry.1 raw = true := by
  simp [Names, known]

theorem ofString_eq_iff {raw : String} : ofString raw = unrecognized raw ↔ ¬ Names raw := by
  rw [names_iff, ofString]
  cases found : known.find? fun entry => sameIgnoringCase entry.1 raw with
  | none =>
    rw [List.find?_eq_none] at found
    simpa using found
  | some entry =>
    have inside : entry ∈ known := List.mem_of_find?_eq_some found
    have same : sameIgnoringCase entry.1 raw = true := by simpa using List.find?_some found
    exact iff_of_false (ne_unrecognized_of_mem_known inside raw)
      (not_not.mpr ⟨entry, inside, same⟩)

/-- What a text says is in normal form. -/
theorem norm_ofString (text : String) : (ofString text).norm = ofString text := by
  cases said : ofString text with
  | unrecognized raw =>
    obtain rfl := ofString_eq_unrecognized said
    exact said
  | _ => rfl

theorem norm_eq_self_iff {type : DiffType} :
    type.norm = type ↔ ∀ raw, type = unrecognized raw → ¬ Names raw := by
  cases type with
  | unrecognized raw => simp [norm, ofString_eq_iff]
  | _ => simp [norm]

theorem forall_norm_eq_self_iff {types : List DiffType} :
    (∀ type ∈ types, type.norm = type) ↔ ∀ raw, unrecognized raw ∈ types → ¬ Names raw := by
  simp only [norm_eq_self_iff]
  constructor
  · intro unnamed raw inside
    exact unnamed _ inside raw rfl
  · rintro unnamed _ inside raw rfl
    exact unnamed raw inside

end DiffType

/-! ### Diffs -/

def FieldDiff.norm (field : FieldDiff) : FieldDiff := { field with type := field.type.norm }

namespace ObjectDiff

mutual

def norm : ObjectDiff → ObjectDiff
  | ⟨type, name, fields, objects⟩ =>
    ⟨type.norm, name, fields.map FieldDiff.norm, normAll objects⟩

def normAll : List ObjectDiff → List ObjectDiff
  | [] => []
  | object :: objects => object.norm :: normAll objects

end

mutual

/-- The types of the object, of its fields and of everything inside. -/
def types : ObjectDiff → List DiffType
  | ⟨type, _, fields, objects⟩ => type :: fields.map (·.type) ++ typesAll objects

def typesAll : List ObjectDiff → List DiffType
  | [] => []
  | object :: objects => object.types ++ typesAll objects

end

theorem normAll_eq_map (objects : List ObjectDiff) : normAll objects = objects.map norm := by
  induction objects with
  | nil => rfl
  | cons object objects ih => rw [normAll, ih, List.map_cons]

theorem typesAll_eq_flatMap (objects : List ObjectDiff) :
    typesAll objects = objects.flatMap types := by
  induction objects with
  | nil => rfl
  | cons object objects ih => rw [typesAll, ih, List.flatMap_cons]

end ObjectDiff

def TaskDiff.norm (task : TaskDiff) : TaskDiff :=
  { task with
    type := task.type.norm
    fields := task.fields.map FieldDiff.norm
    objects := task.objects.map ObjectDiff.norm }

def TaskDiff.types (task : TaskDiff) : List DiffType :=
  task.type :: task.fields.map (·.type) ++ task.objects.flatMap ObjectDiff.types

def TaskGroupDiff.norm (group : TaskGroupDiff) : TaskGroupDiff where
  type := group.type.norm
  name := group.name
  fields := group.fields.map FieldDiff.norm
  objects := group.objects.map ObjectDiff.norm
  tasks := group.tasks.map TaskDiff.norm

def TaskGroupDiff.types (group : TaskGroupDiff) : List DiffType :=
  group.type :: group.fields.map (·.type) ++ group.objects.flatMap ObjectDiff.types
    ++ group.tasks.flatMap TaskDiff.types

def JobDiff.norm (job : JobDiff) : JobDiff where
  type := job.type.norm
  id := job.id
  fields := job.fields.map FieldDiff.norm
  objects := job.objects.map ObjectDiff.norm
  groups := job.groups.map TaskGroupDiff.norm

def JobDiff.types (job : JobDiff) : List DiffType :=
  job.type :: job.fields.map (·.type) ++ job.objects.flatMap ObjectDiff.types
    ++ job.groups.flatMap TaskGroupDiff.types

def Response.norm (response : Response) : Response :=
  { response with diff := response.diff.map JobDiff.norm }

def Response.types (response : Response) : List DiffType :=
  response.diff.toList.flatMap JobDiff.types

/-! ### Diffs in normal form -/

/-- A list is in normal form when its elements are. -/
theorem map_eq_self_iff {α : Type} {norm : α → α} {types : α → List DiffType} {elements : List α}
    (same : ∀ element ∈ elements,
      norm element = element ↔ ∀ type ∈ types element, type.norm = type) :
    elements.map norm = elements ↔ ∀ type ∈ elements.flatMap types, type.norm = type := by
  induction elements with
  | nil => simp
  | cons element elements ih =>
    rw [List.forall_mem_cons] at same
    rw [List.map_cons, List.cons.injEq, same.1, ih same.2, List.flatMap_cons,
      List.forall_mem_append]

theorem map_fieldNorm_eq_self_iff {fields : List FieldDiff} :
    fields.map FieldDiff.norm = fields ↔ ∀ type ∈ fields.map (·.type), type.norm = type := by
  have listed : fields.map (·.type) = fields.flatMap fun field => [field.type] :=
    List.map_eq_flatMap
  rw [listed]
  refine map_eq_self_iff fun field _ => ?_
  cases field
  simp [FieldDiff.norm]

theorem ObjectDiff.norm_eq_self_iff (object : ObjectDiff) :
    object.norm = object ↔ ∀ type ∈ object.types, type.norm = type := by
  induction object with
  | step type name fields objects ih =>
    rw [norm, types, normAll_eq_map, typesAll_eq_flatMap, List.cons_append, List.forall_mem_cons,
      List.forall_mem_append, ← map_fieldNorm_eq_self_iff, ← map_eq_self_iff ih]
    simp

theorem TaskDiff.norm_eq_self_iff (task : TaskDiff) :
    task.norm = task ↔ ∀ type ∈ task.types, type.norm = type := by
  rw [types, List.cons_append, List.forall_mem_cons, List.forall_mem_append,
    ← map_fieldNorm_eq_self_iff, ← map_eq_self_iff fun object _ => object.norm_eq_self_iff]
  cases task
  simp [norm]

theorem TaskGroupDiff.norm_eq_self_iff (group : TaskGroupDiff) :
    group.norm = group ↔ ∀ type ∈ group.types, type.norm = type := by
  rw [types, List.cons_append, List.cons_append, List.forall_mem_cons, List.forall_mem_append,
    List.forall_mem_append, ← map_fieldNorm_eq_self_iff,
    ← map_eq_self_iff fun object _ => object.norm_eq_self_iff,
    ← map_eq_self_iff fun task _ => task.norm_eq_self_iff]
  cases group
  simp [norm, and_assoc]

theorem JobDiff.norm_eq_self_iff (job : JobDiff) :
    job.norm = job ↔ ∀ type ∈ job.types, type.norm = type := by
  rw [types, List.cons_append, List.cons_append, List.forall_mem_cons, List.forall_mem_append,
    List.forall_mem_append, ← map_fieldNorm_eq_self_iff,
    ← map_eq_self_iff fun object _ => object.norm_eq_self_iff,
    ← map_eq_self_iff fun group _ => group.norm_eq_self_iff]
  cases job
  simp [norm, and_assoc]

theorem Response.norm_eq_self_iff (response : Response) :
    response.norm = response ↔ ∀ type ∈ response.types, type.norm = type := by
  obtain ⟨_ | job, index, warnings, unplaced⟩ := response
  · simp [norm, types]
  · simpa [norm, types] using job.norm_eq_self_iff

end DeployGate.Plan
