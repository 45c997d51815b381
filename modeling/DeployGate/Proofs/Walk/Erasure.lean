import DeployGate.Proofs.Walk.Steps

/-!
# What a walk looks at

Most of a job plays no part in a walk over it. What does not is erased here: groups and tasks that
are not edited are left out, and everything else that is not looked at is blanked. No object is left
out, as an object without children is treated in another way than one with children, and a task
without objects in another way than one with objects.

## Main result

`walk_erase`: a walk over an erased job takes the same steps as one over the job, so that jobs with
the same erasure cannot be told apart by any walk.
-/

namespace DeployGate.Plan

def FieldDiff.erase (field : FieldDiff) : FieldDiff := { field with annotations := [] }

namespace ObjectDiff

mutual

/-- Of an object with children its name and the children are kept. Of one without children the type
is kept as well, and its edited fields if it is edited itself. -/
def erase : ObjectDiff → ObjectDiff
  | ⟨type, name, fields, objects⟩ =>
    if objects.isEmpty then
      if type.isEdited then
        ⟨type, name, (fields.filter (·.type.isEdited)).map FieldDiff.erase, []⟩
      else ⟨type, name, [], []⟩
    else ⟨.none, name, [], eraseAll objects⟩

def eraseAll : List ObjectDiff → List ObjectDiff
  | [] => []
  | object :: objects => object.erase :: eraseAll objects

end

theorem eraseAll_eq_map (objects : List ObjectDiff) : eraseAll objects = objects.map erase := by
  induction objects with
  | nil => rfl
  | cons object objects ih => rw [eraseAll, ih, List.map_cons]

end ObjectDiff

def TaskDiff.erase (task : TaskDiff) : TaskDiff :=
  { task with fields := [], objects := task.objects.map ObjectDiff.erase, annotations := [] }

/-- Only the edited tasks are kept, and of the group its name, type and objects. -/
def TaskGroupDiff.erase (group : TaskGroupDiff) : TaskGroupDiff :=
  { group with
    fields := []
    objects := group.objects.map ObjectDiff.erase
    tasks := (group.tasks.filter (·.type.isEdited)).map TaskDiff.erase }

/-- Only the edited groups are kept. -/
def JobDiff.erase (job : JobDiff) : JobDiff :=
  { type := .none, groups := (job.groups.filter (·.type.isEdited)).map TaskGroupDiff.erase }

end DeployGate.Plan

namespace DeployGate.Walk

open Plan (DiffType FieldDiff ObjectDiff TaskDiff TaskGroupDiff JobDiff)

/-! ### Objects -/

/-- The edited fields are found again among themselves, without their annotations. -/
theorem fieldChanges_erase (group task object : String) (fields : List FieldDiff) :
    fieldChanges group task object ((fields.filter (·.type.isEdited)).map FieldDiff.erase)
      = fieldChanges group task object fields := by
  have kept : (·.type.isEdited) ∘ FieldDiff.erase = (·.type.isEdited) := rfl
  rw [fieldChanges, List.filter_map, kept, List.filter_filter, List.map_map]
  simp only [Bool.and_self]
  rfl

theorem objectsChanges_map {erase : ObjectDiff → ObjectDiff} {group task : String}
    {objects : List ObjectDiff}
    (same : ∀ object ∈ objects,
      objectChanges group task (erase object) = objectChanges group task object) :
    objectsChanges group task (objects.map erase) = objectsChanges group task objects := by
  induction objects with
  | nil => rfl
  | cons object objects ih =>
    rw [List.forall_mem_cons] at same
    rw [List.map_cons, objectsChanges, objectsChanges, same.1, ih same.2]

theorem objectChanges_erase (group task : String) (object : ObjectDiff) :
    objectChanges group task object.erase = objectChanges group task object := by
  induction object with
  | step type name fields objects ih =>
    rw [ObjectDiff.erase, objectChanges, ObjectDiff.eraseAll_eq_map]
    by_cases leaf : objects.isEmpty = true
    · rw [if_pos leaf, List.isEmpty_iff.mp leaf]
      by_cases edited : type.isEdited = true
      · simp [objectChanges, edited, fieldChanges_erase]
      · simp [objectChanges, edited]
    · -- it has children before and after, and is entered whatever its type and its fields are
      have entered : (objects.map ObjectDiff.erase).isEmpty = false := by simpa using leaf
      rw [if_neg leaf, objectChanges, entered]
      simp [leaf, objectsChanges_map ih]

theorem objectSteps_erase (group task : String) (objects : List ObjectDiff) :
    objectSteps group task (objects.map ObjectDiff.erase) = objectSteps group task objects := by
  rw [objectSteps, objectSteps, objectsChanges_map fun object _ => objectChanges_erase _ _ object]

/-! ### Tasks and groups -/

variable (policy : EmptyTaskPolicy)

/-- A task that is not edited is passed over, so that it can as well be left out. A task without
objects still has none. -/
theorem taskSteps_erase (group : String) (tasks : List TaskDiff) :
    taskSteps policy group ((tasks.filter (·.type.isEdited)).map TaskDiff.erase)
      = taskSteps policy group tasks := by
  induction tasks with
  | nil => rfl
  | cons task tasks ih =>
    by_cases edited : task.type.isEdited = true
    · have none : task.erase.objects.isEmpty = task.objects.isEmpty := List.isEmpty_map
      have steps : objectSteps group task.name task.erase.objects
          = objectSteps group task.name task.objects := objectSteps_erase group task.name _
      have stays : task.erase.type.isEdited = true := edited
      have named : task.erase.name = task.name := rfl
      rw [List.filter_cons, if_pos edited, List.map_cons]
      by_cases empty : task.objects.isEmpty = true
      · cases policy with
        | abortWalk => simp [taskSteps, edited, stays, none, empty, named]
        | skipTask => simp [taskSteps, edited, stays, none, empty, named, ih]
      · simp [taskSteps, edited, stays, none, empty, named, steps, ih]
    · rw [List.filter_cons, if_neg edited, ih]
      simp [taskSteps, edited]

theorem groupSteps_erase (groups : List TaskGroupDiff) :
    groupSteps policy ((groups.filter (·.type.isEdited)).map TaskGroupDiff.erase)
      = groupSteps policy groups := by
  induction groups with
  | nil => rfl
  | cons group groups ih =>
    by_cases edited : group.type.isEdited = true
    · have own : objectSteps group.name "" group.erase.objects
          = objectSteps group.name "" group.objects := objectSteps_erase group.name "" _
      have tasks : taskSteps policy group.name group.erase.tasks
          = taskSteps policy group.name group.tasks := taskSteps_erase policy group.name _
      have stays : group.erase.type.isEdited = true := edited
      have named : group.erase.name = group.name := rfl
      rw [List.filter_cons, if_pos edited, List.map_cons, groupSteps, groupSteps, ih, named, own,
        tasks, stays, edited]
    · rw [List.filter_cons, if_neg edited, ih, groupSteps, if_pos (by simpa using edited)]

/-! ### The main result -/

/-- A walk over an erased job does the same to every receiver, with the same outcome, as one over
the job itself, and reports the same changes. Two jobs with the same erasure are walked alike. -/
theorem walk_erase :
    (∀ (σ : Type) (receive : Receiver σ) policy job state,
      walk receive policy job.erase state = walk receive policy job state) ∧
    (∀ job policy, collectChanges job.erase policy = collectChanges job policy) ∧
    ∀ (σ : Type) (receive : Receiver σ) policy job job' state, job.erase = job'.erase →
      walk receive policy job state = walk receive policy job' state := by
  have erased (σ : Type) (receive : Receiver σ) (policy : EmptyTaskPolicy) (job : JobDiff)
      (state : σ) : walk receive policy job.erase state = walk receive policy job state := by
    have steps : groupSteps policy job.erase.groups = groupSteps policy job.groups :=
      groupSteps_erase policy job.groups
    rw [walk_eq_foldl, walk_eq_foldl, steps]
  refine ⟨erased, fun job policy => erased _ _ policy job [], ?_⟩
  intro σ receive policy job job' state same
  calc walk receive policy job state
      = walk receive policy job.erase state := (erased σ receive policy job state).symm
    _ = walk receive policy job'.erase state := by rw [same]
    _ = walk receive policy job' state := erased σ receive policy job' state

/-- Two jobs with another group, another task, another type of an object with a child, and other
fields and annotations everywhere. -/
theorem walk_erase_unlike :
    let label : FieldDiff := .edited "Label" "http" "web"
    let port : ObjectDiff := { type := .edited, name := "Port", fields := [label] }
    let port' : ObjectDiff := { port with
      fields := [.unchanged "Value" "80", { label with annotations := ["forces create"] }] }
    let resources : ObjectDiff := { type := .none, name := "Resources", objects := [port] }
    let resources' : ObjectDiff := { resources with
      type := .edited, fields := [.edited "CPU" "100" "200"], objects := [port'] }
    let app : TaskDiff := { type := .edited, name := "app", objects := [resources] }
    let app' : TaskDiff := { app with objects := [resources'], annotations := ["forces update"] }
    let idle : TaskDiff := { type := .edited, name := "idle" }
    let web : TaskGroupDiff := { type := .edited, name := "web", tasks := [app, idle] }
    let web' : TaskGroupDiff := { web with
      fields := [.edited "Count" "1" "2"], tasks := [{ idle with type := .added }, app', idle] }
    let job : JobDiff := { type := .edited, groups := [web] }
    let job' : JobDiff := { job with
      type := .added, id := "shop", groups := [{ web with type := .none }, web'] }
    job ≠ job' ∧ job.erase = job'.erase ∧
      walk (fun steps step => steps ++ [step]) .abortWalk job []
        = walk (fun steps step => steps ++ [step]) .abortWalk job' [] ∧
      collectChanges job .abortWalk
        = ([⟨"web", "app", "Port", "Label", "http", "web"⟩], .halted "web" "idle" 1) := by
  intro label port port' resources resources' app app' idle web web' job job'
  have same : job.erase = job'.erase := rfl
  exact ⟨by decide, same, walk_erase.2.2 _ _ .abortWalk job job' [] same, by decide⟩

end DeployGate.Walk
