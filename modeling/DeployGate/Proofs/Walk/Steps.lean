import DeployGate.Walk.Traversal

/-!
# The steps of a walk

What a walk comes by is a list of steps that depends on the job and the policy alone. The walk hands
them to its receiver one after the other, counts the changes among them, and ends where the list
ends.

## Main result

`walk_eq_foldl`: for every receiver, the state after a walk is the left fold of the receiver over
the steps, and the outcome is the one of the steps.
-/

namespace DeployGate.Walk

open Plan (DiffType FieldDiff ObjectDiff TaskDiff TaskGroupDiff JobDiff)

/-! ### Changes of objects -/

/-- What the edited ones of an object's fields change. -/
def fieldChanges (group task object : String) (fields : List FieldDiff) : List FieldChange :=
  (fields.filter (·.type.isEdited)).map fun field =>
    ⟨group, task, object, field.name, field.old, field.new⟩

mutual

def objectChanges (group task : String) : ObjectDiff → List FieldChange
  | ⟨type, name, fields, objects⟩ =>
    if objects.isEmpty && type.isEdited then fieldChanges group task name fields
    else objectsChanges group task objects

def objectsChanges (group task : String) : List ObjectDiff → List FieldChange
  | [] => []
  | object :: objects => objectChanges group task object ++ objectsChanges group task objects

end

theorem objectsChanges_eq_flatMap (group task : String) (objects : List ObjectDiff) :
    objectsChanges group task objects = objects.flatMap (objectChanges group task) := by
  induction objects with
  | nil => rfl
  | cons object objects ih => rw [objectsChanges, ih, List.flatMap_cons]

/-! ### Steps of tasks and groups -/

/-- The change that a step hands on, if it does. -/
def Step.change? : Step → Option FieldChange
  | .change made => some made
  | _ => none

def changesOf (steps : List Step) : List FieldChange := steps.filterMap Step.change?

@[simp] theorem changesOf_append (steps more : List Step) :
    changesOf (steps ++ more) = changesOf steps ++ changesOf more :=
  List.filterMap_append

@[simp] theorem changesOf_map_change (changes : List FieldChange) :
    changesOf (changes.map .change) = changes := by
  induction changes with
  | nil => rfl
  | cons change changes ih =>
    simp only [changesOf, List.map_cons, List.filterMap_cons, Step.change?] at ih ⊢
    rw [ih]

/-- The steps in some objects, which are all changes. -/
def objectSteps (group task : String) (objects : List ObjectDiff) : List Step :=
  (objectsChanges group task objects).map .change

section

variable (policy : EmptyTaskPolicy)

/-- The steps in the tasks of a group, and the task at which they end, if any. -/
def taskSteps (group : String) : List TaskDiff → List Step × Option String
  | [] => ([], none)
  | task :: tasks =>
    if !task.type.isEdited then taskSteps group tasks
    else if task.objects.isEmpty then
      match policy with
      | .abortWalk => ([.stopped group task.name], some task.name)
      | .skipTask =>
        (.skipped group task.name :: (taskSteps group tasks).1, (taskSteps group tasks).2)
    else
      (objectSteps group task.name task.objects ++ (taskSteps group tasks).1,
        (taskSteps group tasks).2)

/-- The steps in the groups of a job, and the group and task at which they end, if any. -/
def groupSteps : List TaskGroupDiff → List Step × Option (String × String)
  | [] => ([], none)
  | group :: groups =>
    if !group.type.isEdited then groupSteps groups
    else
      let own := objectSteps group.name "" group.objects
      match taskSteps policy group.name group.tasks with
      | (steps, some task) => (own ++ steps, some (group.name, task))
      | (steps, none) => (own ++ steps ++ (groupSteps groups).1, (groupSteps groups).2)

end

/-- An edited group whose tasks are all passed is followed by the groups after it. -/
theorem groupSteps_cons_of_none {policy : EmptyTaskPolicy} {group : TaskGroupDiff}
    (edited : group.type.isEdited = true) (groups : List TaskGroupDiff)
    (passed : (taskSteps policy group.name group.tasks).2 = none) :
    groupSteps policy (group :: groups)
      = (objectSteps group.name "" group.objects ++ (taskSteps policy group.name group.tasks).1
          ++ (groupSteps policy groups).1, (groupSteps policy groups).2) := by
  rw [groupSteps, if_neg (by simp [edited])]
  rcases steps : taskSteps policy group.name group.tasks with ⟨found, stop⟩
  obtain rfl : stop = none := by rw [← passed, steps]
  rfl

/-- An edited group with a task that ends the steps is followed by nothing. -/
theorem groupSteps_cons_of_some {policy : EmptyTaskPolicy} {group : TaskGroupDiff} {task : String}
    (edited : group.type.isEdited = true) (groups : List TaskGroupDiff)
    (stopped : (taskSteps policy group.name group.tasks).2 = some task) :
    groupSteps policy (group :: groups)
      = (objectSteps group.name "" group.objects ++ (taskSteps policy group.name group.tasks).1,
          some (group.name, task)) := by
  rw [groupSteps, if_neg (by simp [edited])]
  rcases steps : taskSteps policy group.name group.tasks with ⟨found, stop⟩
  obtain rfl : stop = some task := by rw [← stopped, steps]
  rfl

/-! ### Where steps stop -/

/-- No step stops the walk but the last one, and that one where the walk ends at a task. -/
inductive StopsAt : List Step → Option (String × String) → Prop
  | through {steps : List Step} : (∀ group task, .stopped group task ∉ steps) → StopsAt steps none
  | stopped (steps : List Step) (group task : String) :
    (∀ group task, .stopped group task ∉ steps) →
      StopsAt (steps ++ [.stopped group task]) (some (group, task))

namespace StopsAt

variable {steps : List Step} {stop : Option (String × String)}

theorem append {front : List Step} (passing : ∀ group task, .stopped group task ∉ front)
    (stops : StopsAt steps stop) : StopsAt (front ++ steps) stop := by
  have passed {more : List Step} (through : ∀ group task, .stopped group task ∉ more)
      (group task : String) : .stopped group task ∉ front ++ more := by
    simp [passing group task, through group task]
  cases stops with
  | through through => exact .through (passed through)
  | stopped steps group task through =>
    rw [← List.append_assoc]
    exact .stopped _ group task (passed through)

theorem passing (stops : StopsAt steps none) : ∀ group task, .stopped group task ∉ steps := by
  cases stops with
  | through through => exact through

end StopsAt

theorem stopped_not_mem_objectSteps (inGroup inTask : String) (objects : List ObjectDiff) :
    ∀ group task, .stopped group task ∉ objectSteps inGroup inTask objects := by
  simp [objectSteps]

theorem taskSteps_stopsAt (policy : EmptyTaskPolicy) (group : String) (tasks : List TaskDiff) :
    StopsAt (taskSteps policy group tasks).1
      ((taskSteps policy group tasks).2.map fun task => (group, task)) := by
  induction tasks with
  | nil => exact .through (by simp [taskSteps])
  | cons task tasks ih =>
    by_cases edited : task.type.isEdited
    · by_cases empty : task.objects.isEmpty
      · cases policy with
        | abortWalk =>
          simp only [taskSteps, edited, empty]
          exact .stopped [] group task.name (by simp)
        | skipTask =>
          simp only [taskSteps, edited, empty]
          have passing : ∀ inGroup inTask,
              .stopped inGroup inTask ∉ [Step.skipped group task.name] := by simp
          exact ih.append passing
      · simp only [taskSteps, edited, empty]
        exact ih.append (stopped_not_mem_objectSteps group task.name task.objects)
    · simpa [taskSteps, edited] using ih

theorem groupSteps_stopsAt (policy : EmptyTaskPolicy) (groups : List TaskGroupDiff) :
    StopsAt (groupSteps policy groups).1 (groupSteps policy groups).2 := by
  induction groups with
  | nil => exact .through (by simp [groupSteps])
  | cons group groups ih =>
    by_cases edited : group.type.isEdited
    · have own := stopped_not_mem_objectSteps group.name "" group.objects
      have tasks := taskSteps_stopsAt policy group.name group.tasks
      -- the steps go on behind a group whose tasks are all passed
      cases stop : (taskSteps policy group.name group.tasks).2 with
      | none =>
        rw [stop] at tasks
        rw [groupSteps_cons_of_none edited groups stop, List.append_assoc]
        exact (ih.append tasks.passing).append own
      | some task =>
        rw [stop] at tasks
        rw [groupSteps_cons_of_some edited groups stop]
        exact tasks.append own
    · simpa [groupSteps, edited] using ih

/-- How a walk ends that handed on some changes and stopped at a task, if at any. -/
def Outcome.ofStop (emitted : Nat) : Option (String × String) → Outcome
  | none => completed emitted
  | some (group, task) => halted group task emitted

/-! ### The walk as a fold -/

section

variable {σ : Type} (receive : Receiver σ)

/-- The progress after one more step. -/
def Progress.advance (progress : Progress σ) : Step → Progress σ
  | .change change => progress.emit receive change
  | step => progress.note receive step

theorem foldl_advance (steps : List Step) (progress : Progress σ) :
    steps.foldl (Progress.advance receive) progress
      = ⟨steps.foldl receive progress.state, progress.emitted + (changesOf steps).length⟩ := by
  induction steps generalizing progress with
  | nil => rfl
  | cons step steps ih =>
    rw [List.foldl_cons, ih, List.foldl_cons]
    cases step with
    | change change =>
      -- only a change raises the count
      simp only [Progress.advance, Progress.emit, changesOf, List.filterMap_cons, Step.change?,
        List.length_cons]
      congr 1
      omega
    | stopped group task => rfl
    | skipped group task => rfl

theorem walkFields_eq_foldl (group task object : String) (fields : List FieldDiff)
    (progress : Progress σ) :
    walkFields receive group task object fields progress
      = (fieldChanges group task object fields).foldl (Progress.emit receive) progress := by
  rw [walkFields, fieldChanges, List.foldl_map]

mutual

theorem walkObject_eq_foldl (group task : String) (object : ObjectDiff) (progress : Progress σ) :
    walkObject receive group task object progress
      = (objectChanges group task object).foldl (Progress.emit receive) progress := by
  obtain ⟨type, name, fields, objects⟩ := object
  rw [walkObject, objectChanges]
  split
  · exact walkFields_eq_foldl receive group task name fields progress
  · exact walkObjects_eq_foldl group task objects progress

theorem walkObjects_eq_foldl (group task : String) (objects : List ObjectDiff)
    (progress : Progress σ) :
    walkObjects receive group task objects progress
      = (objectsChanges group task objects).foldl (Progress.emit receive) progress := by
  cases objects with
  | nil => rfl
  | cons object objects =>
    rw [walkObjects, objectsChanges, List.foldl_append, walkObject_eq_foldl,
      walkObjects_eq_foldl]

end

theorem walkObjects_eq_advance (group task : String) (objects : List ObjectDiff)
    (progress : Progress σ) :
    walkObjects receive group task objects progress
      = (objectSteps group task objects).foldl (Progress.advance receive) progress := by
  rw [walkObjects_eq_foldl, objectSteps, List.foldl_map]
  rfl

variable (policy : EmptyTaskPolicy)

theorem walkTasks_eq_advance (group : String) (tasks : List TaskDiff) (progress : Progress σ) :
    walkTasks receive policy group tasks progress
      = ((taskSteps policy group tasks).1.foldl (Progress.advance receive) progress,
          (taskSteps policy group tasks).2) := by
  -- every step moves the progress on, so the rest of the tasks starts from another one
  induction tasks generalizing progress with
  | nil => rfl
  | cons task tasks ih =>
    by_cases edited : task.type.isEdited
    · by_cases empty : task.objects.isEmpty
      · cases policy with
        | abortWalk => simp [walkTasks, taskSteps, edited, empty, Progress.advance]
        | skipTask => simp [walkTasks, taskSteps, edited, empty, Progress.advance, ih]
      · simp [walkTasks, taskSteps, edited, empty, walkObjects_eq_advance, List.foldl_append, ih]
    · simp [walkTasks, taskSteps, edited, ih]

theorem walkGroups_eq_advance (groups : List TaskGroupDiff) (progress : Progress σ) :
    walkGroups receive policy groups progress
      = ((groupSteps policy groups).1.foldl (Progress.advance receive) progress,
          (groupSteps policy groups).2) := by
  induction groups generalizing progress with
  | nil => rfl
  | cons group groups ih =>
    rw [walkGroups, groupSteps]
    split
    · exact ih progress
    · -- whether the groups behind it play a part depends on the task at which its own steps end
      simp only [walkObjects_eq_advance, walkTasks_eq_advance]
      rcases taskSteps policy group.name group.tasks with ⟨steps, _ | task⟩
      · simp only [ih, List.foldl_append]
      · simp only [List.foldl_append]

/-- A walk folds its receiver over the steps, and its outcome counts the changes among them. -/
theorem walk_eq_foldl (job : JobDiff) (state : σ) :
    walk receive policy job state
      = ((groupSteps policy job.groups).1.foldl receive state,
          .ofStop (changesOf (groupSteps policy job.groups).1).length
            (groupSteps policy job.groups).2) := by
  rw [walk, walkGroups_eq_advance, foldl_advance, Nat.zero_add]
  rcases (groupSteps policy job.groups).2 with _ | ⟨group, task⟩ <;> rfl

end

theorem foldl_ofChanges {σ : Type} (receive : σ → FieldChange → σ) (steps : List Step) (state : σ) :
    steps.foldl (Receiver.ofChanges receive) state = (changesOf steps).foldl receive state := by
  induction steps generalizing state with
  | nil => rfl
  | cons step steps ih =>
    rw [List.foldl_cons, ih]
    cases step <;> rfl

/-- A list to which values are put one by one gains them in order. -/
theorem foldl_append_singleton {α : Type} (held more : List α) :
    more.foldl (fun values value => values ++ [value]) held = held ++ more := by
  rw [List.foldl_append_eq_append, ← List.flatMap_def, List.flatMap_singleton']

theorem collectChanges_eq (job : JobDiff) (policy : EmptyTaskPolicy) :
    collectChanges job policy
      = (changesOf (groupSteps policy job.groups).1,
          .ofStop (changesOf (groupSteps policy job.groups).1).length
            (groupSteps policy job.groups).2) := by
  rw [collectChanges, walk_eq_foldl, foldl_ofChanges, foldl_append_singleton, List.nil_append]

/-- The outcome of a walk counts its changes. -/
theorem emitted_collectChanges (job : JobDiff) (policy : EmptyTaskPolicy) :
    (collectChanges job policy).2.emitted = (collectChanges job policy).1.length := by
  rw [collectChanges_eq]
  rcases (groupSteps policy job.groups).2 with _ | ⟨group, task⟩ <;> rfl

/-! ### Walks that skip empty tasks -/

def tasksChanges (group : String) (tasks : List TaskDiff) : List FieldChange :=
  (tasks.filter (·.type.isEdited)).flatMap fun task => objectsChanges group task.name task.objects

def groupChanges (group : TaskGroupDiff) : List FieldChange :=
  objectsChanges group.name "" group.objects ++ tasksChanges group.name group.tasks

/-- The changes in some groups when no task ends the walk. -/
def groupsChanges (groups : List TaskGroupDiff) : List FieldChange :=
  (groups.filter (·.type.isEdited)).flatMap groupChanges

theorem tasksChanges_cons (group : String) (task : TaskDiff) (tasks : List TaskDiff) :
    tasksChanges group (task :: tasks)
      = (if task.type.isEdited then objectsChanges group task.name task.objects else [])
        ++ tasksChanges group tasks := by
  rw [tasksChanges, List.filter_cons]
  split
  · rw [List.flatMap_cons, tasksChanges]
  · rw [List.nil_append, tasksChanges]

theorem groupsChanges_cons (group : TaskGroupDiff) (groups : List TaskGroupDiff) :
    groupsChanges (group :: groups)
      = (if group.type.isEdited then groupChanges group else []) ++ groupsChanges groups := by
  rw [groupsChanges, List.filter_cons]
  split
  · rw [List.flatMap_cons, groupsChanges]
  · rw [List.nil_append, groupsChanges]

theorem tasksChanges_append (group : String) (tasks more : List TaskDiff) :
    tasksChanges group (tasks ++ more) = tasksChanges group tasks ++ tasksChanges group more := by
  rw [tasksChanges, List.filter_append, List.flatMap_append, tasksChanges, tasksChanges]

theorem groupsChanges_append (groups more : List TaskGroupDiff) :
    groupsChanges (groups ++ more) = groupsChanges groups ++ groupsChanges more := by
  rw [groupsChanges, List.filter_append, List.flatMap_append, groupsChanges, groupsChanges]

@[simp] theorem changesOf_objectSteps (group task : String) (objects : List ObjectDiff) :
    changesOf (objectSteps group task objects) = objectsChanges group task objects :=
  changesOf_map_change _

theorem taskSteps_skipTask (group : String) (tasks : List TaskDiff) :
    changesOf (taskSteps .skipTask group tasks).1 = tasksChanges group tasks
      ∧ (taskSteps .skipTask group tasks).2 = none := by
  induction tasks with
  | nil => exact ⟨rfl, rfl⟩
  | cons task tasks ih =>
    obtain ⟨changes, stop⟩ := ih
    rw [tasksChanges_cons]
    by_cases edited : task.type.isEdited
    · by_cases empty : task.objects.isEmpty
      · -- the step of an empty task hands on no change, and there is none in the task
        have nothing : objectsChanges group task.name task.objects = [] := by
          rw [List.isEmpty_iff.mp empty, objectsChanges]
        simpa [taskSteps, edited, empty, nothing, changesOf, Step.change?] using ⟨changes, stop⟩
      · simpa [taskSteps, edited, empty] using ⟨changes, stop⟩
    · simpa [taskSteps, edited] using ⟨changes, stop⟩

theorem groupSteps_skipTask (groups : List TaskGroupDiff) :
    changesOf (groupSteps .skipTask groups).1 = groupsChanges groups
      ∧ (groupSteps .skipTask groups).2 = none := by
  induction groups with
  | nil => exact ⟨rfl, rfl⟩
  | cons group groups ih =>
    obtain ⟨changes, stop⟩ := ih
    rw [groupsChanges_cons]
    by_cases edited : group.type.isEdited
    · -- no task of the group ends the steps, so the groups behind it follow
      have tasks := taskSteps_skipTask group.name group.tasks
      rw [groupSteps_cons_of_none edited groups tasks.2, if_pos edited, groupChanges]
      simp only [changesOf_append, changesOf_objectSteps, tasks.1, changes, List.append_assoc]
      exact ⟨trivial, stop⟩
    · simpa [groupSteps, edited] using ⟨changes, stop⟩

/-- A walk that skips empty tasks is never halted, and finds every change. -/
theorem collectChanges_skipTask (job : JobDiff) :
    collectChanges job .skipTask
      = (groupsChanges job.groups, .completed (groupsChanges job.groups).length) := by
  obtain ⟨changes, stop⟩ := groupSteps_skipTask job.groups
  rw [collectChanges_eq, changes, stop]
  rfl

end DeployGate.Walk
