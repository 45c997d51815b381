import DeployGate.Proofs.Walk.Positions
import Mathlib.Order.Nat

/-!
# Walks that end at an empty task

An edited task without objects in an edited group ends a walk under one policy and is skipped under
the other. What the policies have in common is everything in front of the first such task.

## Main result

`collectChanges_abortWalk`: without such a task the policies agree. With one, the walk that ends
there reports the changes whose positions come before the first of them, a prefix of all changes,
and does not depend on anything behind it.

The tasks of a group and the groups of a job are cut at that task, so that all steps in front of it
are passed (`taskSteps_append`, `groupSteps_append`) and the step at it is the last one.
-/

namespace DeployGate.Walk

open Plan (DiffType FieldDiff ObjectDiff TaskDiff TaskGroupDiff JobDiff)

/-- The task with the given indices is an edited one without objects, in an edited group. -/
structure EmptyTask (job : JobDiff) (g t : Nat) (group : TaskGroupDiff) (task : TaskDiff) :
    Prop where
  groupAt : job.groups[g]? = some group
  groupEdited : group.type = .edited
  taskAt : group.tasks[t]? = some task
  taskEdited : task.type = .edited
  empty : task.objects = []

/-- The first such task by group and then by task. -/
structure FirstEmptyTask (job : JobDiff) (g t : Nat) (group : TaskGroupDiff) (task : TaskDiff) :
    Prop extends EmptyTask job g t group task where
  first : ∀ g' t' group' task', EmptyTask job g' t' group' task' → g < g' ∨ g = g' ∧ t ≤ t'

theorem exists_firstEmptyTask {job : JobDiff}
    (found : ∃ g t group task, EmptyTask job g t group task) :
    ∃ g t group task, FirstEmptyTask job g t group task := by
  classical
  -- the least group with such a task, and in it the least task
  obtain ⟨g, inGroup, least⟩ : ∃ g, (∃ t group task, EmptyTask job g t group task)
      ∧ ∀ g', (∃ t group task, EmptyTask job g' t group task) → g ≤ g' :=
    ⟨Nat.find found, Nat.find_spec found, fun g' => Nat.find_min' found⟩
  obtain ⟨t, ⟨group, task, empty⟩, leastTask⟩ : ∃ t, (∃ group task, EmptyTask job g t group task)
      ∧ ∀ t', (∃ group task, EmptyTask job g t' group task) → t ≤ t' :=
    ⟨Nat.find inGroup, Nat.find_spec inGroup, fun t' => Nat.find_min' inGroup⟩
  refine ⟨g, t, group, task, empty, fun g' t' group' task' other => ?_⟩
  rcases Nat.lt_or_eq_of_le (least g' ⟨t', group', task', other⟩) with less | rfl
  · exact .inl less
  · exact .inr ⟨rfl, leastTask t' ⟨group', task', other⟩⟩

/-! ### Steps in front of an empty task -/

def TaskPassed (task : TaskDiff) : Prop := ¬(task.type = .edited ∧ task.objects = [])

/-- A group in which no walk ends. -/
def GroupPassed (group : TaskGroupDiff) : Prop :=
  group.type = .edited → ∀ task ∈ group.tasks, TaskPassed task

theorem taskSteps_append (group : String) {tasks : List TaskDiff}
    (passed : ∀ task ∈ tasks, TaskPassed task) (more : List TaskDiff) :
    changesOf (taskSteps .abortWalk group (tasks ++ more)).1
        = tasksChanges group tasks ++ changesOf (taskSteps .abortWalk group more).1
      ∧ (taskSteps .abortWalk group (tasks ++ more)).2 = (taskSteps .abortWalk group more).2 := by
  induction tasks with
  | nil => exact ⟨rfl, rfl⟩
  | cons task tasks ih =>
    obtain ⟨head, tail⟩ := List.forall_mem_cons.mp passed
    obtain ⟨changes, stop⟩ := ih tail
    rw [tasksChanges_cons, List.cons_append]
    by_cases edited : task.type.isEdited
    · -- as it is passed it has objects, and its steps are their changes
      have objects : task.objects.isEmpty = false := by
        rw [Bool.eq_false_iff, Ne, List.isEmpty_iff]
        exact fun empty => head ⟨DiffType.isEdited_iff.mp edited, empty⟩
      simp [taskSteps, edited, objects, changes, stop]
    · simp [taskSteps, edited, changes, stop]

theorem taskSteps_passed (group : String) {tasks : List TaskDiff}
    (passed : ∀ task ∈ tasks, TaskPassed task) :
    changesOf (taskSteps .abortWalk group tasks).1 = tasksChanges group tasks
      ∧ (taskSteps .abortWalk group tasks).2 = none := by
  simpa [taskSteps, changesOf] using taskSteps_append group passed []

theorem groupSteps_append {groups : List TaskGroupDiff}
    (passed : ∀ group ∈ groups, GroupPassed group) (more : List TaskGroupDiff) :
    changesOf (groupSteps .abortWalk (groups ++ more)).1
        = groupsChanges groups ++ changesOf (groupSteps .abortWalk more).1
      ∧ (groupSteps .abortWalk (groups ++ more)).2 = (groupSteps .abortWalk more).2 := by
  induction groups with
  | nil => exact ⟨rfl, rfl⟩
  | cons group groups ih =>
    obtain ⟨head, tail⟩ := List.forall_mem_cons.mp passed
    obtain ⟨changes, stop⟩ := ih tail
    rw [groupsChanges_cons, List.cons_append]
    by_cases edited : group.type.isEdited
    · -- no task in it ends the steps, so they go on behind it
      obtain ⟨tasks, through⟩ :=
        taskSteps_passed group.name (head (DiffType.isEdited_iff.mp edited))
      rw [groupSteps_cons_of_none edited _ through, if_pos edited, groupChanges]
      simp [changes, stop, tasks]
    · simp [groupSteps, edited, changes, stop]

theorem groupSteps_passed {groups : List TaskGroupDiff}
    (passed : ∀ group ∈ groups, GroupPassed group) :
    changesOf (groupSteps .abortWalk groups).1 = groupsChanges groups
      ∧ (groupSteps .abortWalk groups).2 = none := by
  simpa [groupSteps, changesOf] using groupSteps_append passed []

/-- The steps end at an empty task behind tasks and groups that are passed. -/
theorem groupSteps_stopped {before : List TaskGroupDiff} {passedTasks more : List TaskDiff}
    {task : TaskDiff} (group : TaskGroupDiff) (after : List TaskGroupDiff)
    (passed : ∀ group ∈ before, GroupPassed group) (edited : group.type = .edited)
    (tasks : group.tasks = passedTasks ++ task :: more)
    (tasksPassed : ∀ task ∈ passedTasks, TaskPassed task)
    (taskEdited : task.type = .edited) (empty : task.objects = []) :
    changesOf (groupSteps .abortWalk (before ++ group :: after)).1
        = groupsChanges (before ++ [{ group with tasks := passedTasks }])
      ∧ (groupSteps .abortWalk (before ++ group :: after)).2 = some (group.name, task.name) := by
  have last : taskSteps .abortWalk group.name (task :: more)
      = ([.stopped group.name task.name], some task.name) := by
    simp [taskSteps, taskEdited, empty, DiffType.isEdited]
  obtain ⟨changes, stop⟩ := taskSteps_append group.name tasksPassed (task :: more)
  rw [← tasks, last] at changes stop
  obtain ⟨front, end_⟩ := groupSteps_append passed (group :: after)
  rw [front, end_, groupSteps_cons_of_some (DiffType.isEdited_iff.mpr edited) after stop]
  refine ⟨?_, rfl⟩
  -- the last step is no change, so the changes are those of the group without that task
  have none : changesOf [Step.stopped group.name task.name] = [] := rfl
  have cut : DiffType.isEdited ({ group with tasks := passedTasks } : TaskGroupDiff).type = true :=
    DiffType.isEdited_iff.mpr edited
  rw [groupsChanges_append, groupsChanges_cons, if_pos cut, groupChanges, changesOf_append,
    changesOf_objectSteps, changes, none]
  simp [groupsChanges]

/-- The job with everything behind some groups, and behind some tasks of one more group, cut off. -/
def cutBehind (job : JobDiff) (g t : Nat) (group : TaskGroupDiff) : JobDiff :=
  { job with groups := job.groups.take g ++ [{ group with tasks := group.tasks.take t }] }

/-- The job with other tasks and groups in place of everything behind a task. -/
def replaceBehind (job : JobDiff) (g t : Nat) (group : TaskGroupDiff) (tasks : List TaskDiff)
    (groups : List TaskGroupDiff) : JobDiff :=
  { job with
    groups := job.groups.take g
      ++ { group with tasks := group.tasks.take (t + 1) ++ tasks } :: groups }

section

variable {job : JobDiff} {g t : Nat} {group : TaskGroupDiff} {task : TaskDiff}

theorem FirstEmptyTask.groupsPassed (first : FirstEmptyTask job g t group task) :
    ∀ other ∈ job.groups.take g, GroupPassed other := by
  intro other inside edited task' taskInside ⟨taskEdited, empty⟩
  obtain ⟨g', less, at_⟩ := List.mem_take_iff_getElem.mp inside
  obtain ⟨t', taskAt⟩ := List.getElem?_of_mem taskInside
  have groupAt : job.groups[g']? = some other := by
    rw [← at_]
    exact List.getElem?_eq_getElem _
  -- an empty task in an earlier group would come before the first one
  have := first.first g' t' other task' ⟨groupAt, edited, taskAt, taskEdited, empty⟩
  omega

theorem FirstEmptyTask.tasksPassed (first : FirstEmptyTask job g t group task) :
    ∀ other ∈ group.tasks.take t, TaskPassed other := by
  intro other inside ⟨taskEdited, empty⟩
  obtain ⟨t', less, at_⟩ := List.mem_take_iff_getElem.mp inside
  have taskAt : group.tasks[t']? = some other := by
    rw [← at_]
    exact List.getElem?_eq_getElem _
  have := first.first g t' group other ⟨first.groupAt, first.groupEdited, taskAt, taskEdited, empty⟩
  omega

theorem take_append_cons_drop {α : Type} {list : List α} {i : Nat} {x : α}
    (at_ : list[i]? = some x) :
    list = list.take i ++ x :: list.drop (i + 1) := by
  obtain ⟨inside, rfl⟩ := List.getElem?_eq_some_iff.mp at_
  rw [← List.drop_eq_getElem_cons inside, List.take_append_drop]

/-- Whatever is behind the first empty task, the walk ends there. -/
theorem FirstEmptyTask.collectChanges_replaceBehind (first : FirstEmptyTask job g t group task)
    (tasks : List TaskDiff) (groups : List TaskGroupDiff) :
    collectChanges (replaceBehind job g t group tasks groups) .abortWalk
      = (groupsChanges (cutBehind job g t group).groups,
          .halted group.name task.name
            (groupsChanges (cutBehind job g t group).groups).length) := by
  have upTo : group.tasks.take (t + 1) ++ tasks = group.tasks.take t ++ task :: tasks := by
    rw [List.take_add_one, first.taskAt]
    simp
  obtain ⟨changes, stop⟩ := groupSteps_stopped
    { group with tasks := group.tasks.take (t + 1) ++ tasks } groups
    first.groupsPassed first.groupEdited upTo first.tasksPassed first.taskEdited first.empty
  rw [collectChanges_eq, replaceBehind, changes, stop]
  rfl

theorem FirstEmptyTask.replaceBehind_self (first : FirstEmptyTask job g t group task) :
    replaceBehind job g t group (group.tasks.drop (t + 1)) (job.groups.drop (g + 1)) = job := by
  rw [replaceBehind, List.take_append_drop, ← take_append_cons_drop first.groupAt]

theorem FirstEmptyTask.collectChanges_stopped (first : FirstEmptyTask job g t group task) :
    collectChanges job .abortWalk
      = (groupsChanges (cutBehind job g t group).groups,
          .halted group.name task.name
            (groupsChanges (cutBehind job g t group).groups).length) := by
  -- the job is the one in which everything behind the task is replaced by itself
  rw [← first.collectChanges_replaceBehind, first.replaceBehind_self]

/-- The position is in an earlier group, or in the same group outside of its tasks or in an earlier
task. -/
def Position.ComesBefore (position : Position) (g t : Nat) : Prop :=
  position.group < g ∨ position.group = g ∧
    (position.task = none ∨ ∃ t', position.task = some t' ∧ t' < t)

theorem reportsInGroup_take {key : Option Nat × List Nat × Nat} {change : FieldChange} :
    ReportsInGroup { group with tasks := group.tasks.take t } key change ↔
      ReportsInGroup group key change ∧ (key.1 = none ∨ ∃ t', key.1 = some t' ∧ t' < t) := by
  obtain ⟨_ | t', path, index⟩ := key
  · simp [ReportsInGroup]
  · by_cases less : t' < t
    · simp [ReportsInGroup, List.getElem?_take, less]
    · simp [ReportsInGroup, List.getElem?_take, less]

/-- Of the positions that report a change those are left that come before the cut. -/
theorem reports_cutBehind (groupAt : job.groups[g]? = some group) {position : Position}
    {change : FieldChange} :
    Reports (cutBehind job g t group) position change ↔
      Reports job position change ∧ position.ComesBefore g t := by
  rw [reports_iff, reports_iff, Position.ComesBefore, cutBehind]
  have inside : g < job.groups.length := (List.getElem?_eq_some_iff.mp groupAt).1
  have length : (job.groups.take g).length = g := List.length_take_of_le (Nat.le_of_lt inside)
  -- groups in front of the cut are kept, the one at the cut loses tasks, and no other is left
  rcases Nat.lt_trichotomy position.group g with less | same | more
  · rw [List.getElem?_append_left (by omega), List.getElem?_take_of_lt less]
    simp [less]
  · rw [same, List.getElem?_append_right (by omega), length, Nat.sub_self, groupAt]
    simp [reportsInGroup_take, and_assoc]
  · rw [List.getElem?_eq_none (by simp [length]; omega)]
    have apart : ¬(position.group < g ∨ position.group = g) := by omega
    simp only [not_or] at apart
    simp [apart]

theorem groupChanges_take_begins (group : TaskGroupDiff) (t : Nat) :
    groupChanges { group with tasks := group.tasks.take t } <+: groupChanges group := by
  have tasks : tasksChanges group.name (group.tasks.take t)
      <+: tasksChanges group.name group.tasks := by
    conv => rhs; rw [← List.take_append_drop t group.tasks]
    rw [tasksChanges_append]
    exact List.prefix_append _ _
  exact (List.prefix_append_right_inj _).mpr tasks

theorem groupsChanges_cutBehind_begins (groupAt : job.groups[g]? = some group) (t : Nat) :
    groupsChanges (cutBehind job g t group).groups <+: groupsChanges job.groups := by
  conv => rhs; rw [take_append_cons_drop groupAt]
  rw [cutBehind, groupsChanges_append, groupsChanges_append, List.prefix_append_right_inj,
    groupsChanges_cons, groupsChanges_cons]
  by_cases edited : group.type.isEdited
  · have nothing : groupsChanges [] = [] := rfl
    rw [if_pos edited, if_pos edited, nothing, List.append_nil]
    exact (groupChanges_take_begins group t).trans (List.prefix_append _ _)
  · rw [if_neg edited]
    exact List.nil_prefix

theorem collectChanges_of_no_emptyTask (none : ∀ g t group task, ¬EmptyTask job g t group task) :
    collectChanges job .abortWalk = collectChanges job .skipTask := by
  have passed : ∀ group ∈ job.groups, GroupPassed group := by
    intro group inside edited task taskInside ⟨taskEdited, empty⟩
    obtain ⟨g, groupAt⟩ := List.getElem?_of_mem inside
    obtain ⟨t, taskAt⟩ := List.getElem?_of_mem taskInside
    exact none g t group task ⟨groupAt, edited, taskAt, taskEdited, empty⟩
  obtain ⟨changes, stop⟩ := groupSteps_passed passed
  rw [collectChanges_eq, changes, stop, collectChanges_skipTask]
  rfl

end

/-- A walk that ends at empty tasks finds the first ones of all changes. -/
theorem collectChanges_begins (job : JobDiff) :
    (collectChanges job .abortWalk).1 <+: (collectChanges job .skipTask).1 := by
  by_cases found : ∃ g t group task, EmptyTask job g t group task
  · obtain ⟨g, t, group, task, first⟩ := exists_firstEmptyTask found
    rw [first.collectChanges_stopped, collectChanges_skipTask]
    exact groupsChanges_cutBehind_begins first.groupAt t
  · simp only [not_exists] at found
    exact collectChanges_of_no_emptyTask found ▸ List.prefix_rfl

/-- The policies agree unless the walk is halted. -/
theorem collectChanges_of_not_halted {job : JobDiff}
    (through : (collectChanges job .abortWalk).2.isHalted = false) :
    collectChanges job .abortWalk = collectChanges job .skipTask := by
  by_cases found : ∃ g t group task, EmptyTask job g t group task
  · obtain ⟨g, t, group, task, first⟩ := exists_firstEmptyTask found
    rw [first.collectChanges_stopped] at through
    cases through
  · simp only [not_exists] at found
    exact collectChanges_of_no_emptyTask found

/-- A walk that skips empty tasks is never halted. One that ends at them is the same without any;
else it is halted at the first of them, has reported the changes that come before it and no others,
which are the first ones of all changes, and does not depend on what is behind it. -/
theorem collectChanges_abortWalk (job : JobDiff) :
    (collectChanges job .skipTask).2.isHalted = false ∧
    ((∀ g t group task, ¬EmptyTask job g t group task) →
      collectChanges job .abortWalk = collectChanges job .skipTask) ∧
    ((∃ g t group task, EmptyTask job g t group task) →
      ∃ g t group task, FirstEmptyTask job g t group task) ∧
    ∀ g t group task, FirstEmptyTask job g t group task →
      (∃ entries : List (Position × FieldChange),
        (∀ position change, (position, change) ∈ entries ↔
          Reports job position change ∧ position.ComesBefore g t) ∧
        (entries.map Prod.fst).Pairwise Position.Before ∧
        collectChanges job .abortWalk
          = (entries.map Prod.snd, .halted group.name task.name entries.length)) ∧
      (collectChanges job .abortWalk).1 <+: (collectChanges job .skipTask).1 ∧
      ∀ tasks groups, collectChanges (replaceBehind job g t group tasks groups) .abortWalk
        = collectChanges job .abortWalk := by
  refine ⟨by rw [collectChanges_skipTask]; rfl, collectChanges_of_no_emptyTask,
    exists_firstEmptyTask, fun g t group task first => ?_⟩
  have stopped := first.collectChanges_stopped
  refine ⟨?_, ?_, fun tasks groups => ?_⟩
  · obtain ⟨entries, changes, ascending, entry⟩ :=
      (groupsChanges_enumerates (cutBehind job g t group)).congr fun _ _ =>
        reports_cutBehind first.groupAt
    refine ⟨entries, entry, List.pairwise_map.mpr ascending, ?_⟩
    rw [stopped, ← changes, List.length_map]
  · exact collectChanges_begins job
  · rw [first.collectChanges_replaceBehind, stopped]

theorem collectChanges_abortWalk_second :
    let resources : ObjectDiff :=
      { type := .edited, name := "Resources", fields := [.edited "CPU" "100" "200"] }
    let app : TaskDiff := { type := .edited, name := "app", objects := [resources] }
    let idle : TaskDiff := { type := .edited, name := "idle" }
    let web : TaskGroupDiff := { type := .edited, name := "web", tasks := [app, idle, app] }
    let job : JobDiff := { type := .edited, groups := [web] }
    FirstEmptyTask job 0 1 web idle ∧ ∀ tasks groups,
      collectChanges (replaceBehind job 0 1 web tasks groups) .abortWalk
        = collectChanges job .abortWalk := by
  intro resources app idle web job
  have first : FirstEmptyTask job 0 1 web idle := by
    refine ⟨⟨rfl, rfl, rfl, rfl, rfl⟩, fun g t group task other => ?_⟩
    rcases g with _ | g
    · obtain rfl := Option.some.inj other.groupAt
      rcases t with _ | t
      · obtain rfl := Option.some.inj other.taskAt
        cases other.empty
      · exact .inr ⟨rfl, Nat.le_add_left 1 t⟩
    · exact .inl (Nat.succ_pos g)
  exact ⟨first, ((collectChanges_abortWalk job).2.2.2 0 1 web idle first).2.2⟩

end DeployGate.Walk
