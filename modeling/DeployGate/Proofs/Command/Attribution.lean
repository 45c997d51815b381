import DeployGate.Plan.Reading
import DeployGate.Proofs.Command.Messages
import DeployGate.Proofs.Walk.EmptyTasks

/-!
# Changes and their tasks

A change carries the name of the task that it was found in, and the empty text if it was found in an
object of a group itself. A task may have the empty name, however, and a change in such a task
cannot be told from one outside of every task.

## Main result

`collectChanges_attribution`: every change of a walk stands at a position, whatever the policy. It
has a task, and its message names one, exactly if the position is in a task whose name is not empty.
-/

namespace DeployGate.Walk

open Plan (JobDiff ObjectDiff TaskDiff TaskGroupDiff)

/-! ### Positions in tasks -/

/-- The position is in the task of the group. -/
def Position.InTask (job : JobDiff) (position : Position) (group : TaskGroupDiff)
    (task : TaskDiff) : Prop :=
  job.groups[position.group]? = some group ∧
    ∃ t, position.task = some t ∧ group.tasks[t]? = some task

/-- What is found in an object of a group or of a task carries the names of both. -/
theorem ReportsIn.names {group task : String} {objects : List ObjectDiff} {path : List Nat}
    {index : Nat} {change : FieldChange}
    (reports : ReportsIn group task objects path index change) :
    change.group = group ∧ change.task = task := by
  cases reports with
  | intro => exact ⟨rfl, rfl⟩

theorem Reports.names {job : JobDiff} {position : Position} {change : FieldChange}
    (reports : Reports job position change) :
    (position.task = none ∧ change.task = "") ∨
      ∃ group task, position.InTask job group task ∧ change.task = task.name := by
  cases reports with
  | ofGroup groupAt edited inside => exact .inl ⟨rfl, inside.names.2⟩
  | @ofTask g t f path group task _ groupAt edited taskAt taskEdited inside =>
    exact .inr ⟨group, task, ⟨groupAt, t, rfl, taskAt⟩, inside.names.2⟩

theorem Position.InTask.unique {job : JobDiff} {position : Position} {group group' : TaskGroupDiff}
    {task task' : TaskDiff} (inTask : position.InTask job group task)
    (inTask' : position.InTask job group' task') : group = group' ∧ task = task' := by
  obtain ⟨groupAt, t, found, taskAt⟩ := inTask
  obtain ⟨groupAt', t', found', taskAt'⟩ := inTask'
  cases groupAt.symm.trans groupAt'
  cases found.symm.trans found'
  cases taskAt.symm.trans taskAt'
  exact ⟨rfl, rfl⟩

/-! ### Messages that name a task -/

namespace FieldChange

theorem hasTask_iff (change : FieldChange) : change.hasTask = true ↔ change.task ≠ "" := by
  simp [hasTask]

/-- Between the words for the group and the account of the change stand words for a task. -/
def NamesTask (change : FieldChange) : Prop :=
  ∃ task : String, change.message.toList
    = labelled "group ".toList change.group
        ++ ("and task ".toList ++ (task.toList ++ [' ']) ++ change.account)

theorem namesTask_iff (change : FieldChange) : change.NamesTask ↔ change.task ≠ "" := by
  rw [NamesTask, toList_message]
  simp only [List.append_cancel_left_eq]
  constructor
  · rintro ⟨task, same⟩ nameless
    rw [labelled, if_pos (by simp [nameless]), List.nil_append] at same
    -- the account does not begin like the words for a task
    have first := change.head_account
    rw [same] at first
    cases first
  · intro named
    refine ⟨change.task, ?_⟩
    rw [labelled, if_neg (by simpa [String.isEmpty_iff] using named)]

end FieldChange

/-! ### Changes of a walk -/

/-- Under either policy the changes of a walk stand at positions that report them, in tree order. -/
theorem collectChanges_reported (job : JobDiff) (policy : EmptyTaskPolicy) :
    ∃ entries : List (Position × FieldChange),
      (collectChanges job policy).1 = entries.map Prod.snd ∧
        (entries.map Prod.fst).Pairwise Position.Before ∧
        ∀ position change, (position, change) ∈ entries → Reports job position change := by
  obtain ⟨entries, changes, ascending, reported⟩ := groupsChanges_enumerates job
  have ordered : (entries.map Prod.fst).Pairwise Position.Before := List.pairwise_map.mpr ascending
  have collected : (collectChanges job .skipTask).1 = entries.map Prod.snd := by
    rw [collectChanges_skipTask, changes]
  cases policy with
  | skipTask => exact ⟨entries, collected, ordered, fun _ _ => (reported _ _).mp⟩
  | abortWalk =>
    -- a walk that may end at a task hands on the first of the changes
    have begins := collectChanges_begins job
    rw [collected, List.prefix_iff_eq_take] at begins
    refine ⟨entries.take (collectChanges job .abortWalk).1.length, ?_, ?_, ?_⟩
    · rw [List.map_take]
      exact begins
    · rw [List.map_take]
      exact ordered.sublist (List.take_sublist _ _)
    · intro position change inside
      exact (reported position change).mp (List.mem_of_mem_take inside)

/-- Every change of a walk has a position, and it has a task, and its message names one, exactly if
the position is in a task with a name. -/
theorem collectChanges_attribution (job : JobDiff) (policy : EmptyTaskPolicy) :
    ∃ entries : List (Position × FieldChange),
      (collectChanges job policy).1 = entries.map Prod.snd ∧
        (entries.map Prod.fst).Pairwise Position.Before ∧
        ∀ position change, (position, change) ∈ entries → Reports job position change ∧
          (change.hasTask = true ↔ ∃ group task, position.InTask job group task ∧ task.name ≠ "") ∧
          (change.NamesTask ↔ ∃ group task, position.InTask job group task ∧ task.name ≠ "") := by
  obtain ⟨entries, collected, ordered, reported⟩ := collectChanges_reported job policy
  refine ⟨entries, collected, ordered, fun position change inside => ?_⟩
  have reports := reported position change inside
  have named : change.task ≠ "" ↔
      ∃ group task, position.InTask job group task ∧ task.name ≠ "" := by
    rcases reports.names with ⟨outside, nameless⟩ | ⟨group, task, inTask, same⟩
    · refine iff_of_false (not_not.mpr nameless) ?_
      rintro ⟨group, task, ⟨-, t, found, -⟩, -⟩
      cases outside.symm.trans found
    · rw [same]
      constructor
      · exact fun named => ⟨group, task, inTask, named⟩
      · rintro ⟨group', task', inTask', named⟩
        rwa [(inTask.unique inTask').2]
  exact ⟨reports, change.hasTask_iff.trans named, change.namesTask_iff.trans named⟩

/-- The field of a task with the empty name, which a document may give to it, is reported without a
task. -/
theorem collectChanges_nameless :
    let resources : ObjectDiff :=
      { type := .edited, name := "Resources", fields := [.edited "CPU" "500" "1000"] }
    let task : TaskDiff := { type := .edited, name := "", objects := [resources] }
    let group : TaskGroupDiff := { type := .edited, name := "cache", tasks := [task] }
    let job : JobDiff := { type := .edited, groups := [group] }
    let change : FieldChange := ⟨"cache", "", "Resources", "CPU", "500", "1000"⟩
    let document := "\x7b\"Type\":\"Edited\",\"TaskGroups\":[\x7b\"Type\":\"Edited\","
      ++ "\"Name\":\"cache\",\"Tasks\":[\x7b\"Type\":\"Edited\",\"Name\":\"\","
      ++ "\"Objects\":[\x7b\"Type\":\"Edited\",\"Name\":\"Resources\",\"Fields\":[\x7b"
      ++ "\"Type\":\"Edited\",\"Name\":\"CPU\",\"Old\":\"500\",\"New\":\"1000\"\x7d]\x7d]\x7d]\x7d]\x7d"
    JobDiff.ofJson document = .ok job ∧
      (∀ policy, collectChanges job policy = ([change], .completed 1)) ∧
      Reports job ⟨0, some 0, [0], 0⟩ change ∧ Position.InTask job ⟨0, some 0, [0], 0⟩ group task ∧
      change.hasTask = false ∧ ¬change.NamesTask ∧
      change.message = "group cache plan indicates change of Resources:CPU from 500 to 1000" := by
  intro resources task group job change document
  have inTask : Position.InTask job ⟨0, some 0, [0], 0⟩ group task := ⟨rfl, 0, rfl, rfl⟩
  have edited : EditedField resources [] 0 resources (.edited "CPU" "500" "1000") :=
    .here rfl rfl rfl rfl
  have reports : Reports job ⟨0, some 0, [0], 0⟩ change :=
    .ofTask rfl rfl rfl rfl (.intro rfl edited)
  have nameless : ¬change.NamesTask := mt change.namesTask_iff.mp (by decide)
  refine ⟨by decide +kernel, fun policy => ?_, reports, inTask, by decide, nameless, by decide⟩
  cases policy <;> decide

end DeployGate.Walk
