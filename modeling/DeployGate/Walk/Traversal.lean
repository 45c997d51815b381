import DeployGate.Plan.Diff
import DeployGate.Walk.Change

/-!
# Walking a diff

A walk hands the edited fields of a job's edited innermost objects to a receiver, in tree order: the
groups one after the other, in a group its own objects before its tasks, and an object's children
before its next sibling. Groups and tasks that are not edited are passed over; an object with
children is always entered. An edited task without objects ends the walk or is skipped, as the
policy says.

A receiver is a state and what a step does to it, so that the walk is the same for every use of it.
-/

namespace DeployGate.Walk

open Plan (DiffType FieldDiff ObjectDiff TaskDiff TaskGroupDiff JobDiff)

/-- What an edited task without objects does to the walk. -/
inductive EmptyTaskPolicy
  | abortWalk
  | skipTask
  deriving DecidableEq, Repr

def EmptyTaskPolicy.name : EmptyTaskPolicy → String
  | abortWalk => "abort-walk"
  | skipTask => "skip-task"

/-- What a walk comes by. -/
inductive Step
  | change (change : FieldChange)
  -- An edited task without objects, at which the walk ends.
  | stopped (group task : String)
  -- An edited task without objects that is skipped.
  | skipped (group task : String)
  deriving DecidableEq, Repr

/-- How a walk ended, and how many changes it handed on. -/
inductive Outcome
  | completed (emitted : Nat)
  | halted (group task : String) (emitted : Nat)
  deriving DecidableEq, Repr

namespace Outcome

def emitted : Outcome → Nat
  | completed emitted => emitted
  | halted _ _ emitted => emitted

def isHalted : Outcome → Bool
  | completed _ => false
  | halted .. => true

end Outcome

/-- What a step does to the state of a receiver. -/
abbrev Receiver (σ : Type) := σ → Step → σ

/-- The state of the receiver, and how many changes it was handed. -/
structure Progress (σ : Type) where
  state : σ
  emitted : Nat

namespace Progress

variable {σ : Type} (receive : Receiver σ)

def emit (progress : Progress σ) (change : FieldChange) : Progress σ :=
  ⟨receive progress.state (.change change), progress.emitted + 1⟩

def note (progress : Progress σ) (step : Step) : Progress σ :=
  { progress with state := receive progress.state step }

end Progress

section

variable {σ : Type} (receive : Receiver σ) (policy : EmptyTaskPolicy)

/-- Hands on the edited ones of an object's fields. -/
def walkFields (group task object : String) (fields : List FieldDiff) (progress : Progress σ) :
    Progress σ :=
  (fields.filter (·.type.isEdited)).foldl
    (fun progress field =>
      progress.emit receive ⟨group, task, object, field.name, field.old, field.new⟩)
    progress

mutual

def walkObject (group task : String) : ObjectDiff → Progress σ → Progress σ
  | ⟨type, name, fields, objects⟩, progress =>
    if objects.isEmpty && type.isEdited then walkFields receive group task name fields progress
    else walkObjects group task objects progress

def walkObjects (group task : String) : List ObjectDiff → Progress σ → Progress σ
  | [], progress => progress
  | object :: objects, progress =>
    walkObjects group task objects (walkObject group task object progress)

end

/-- The tasks of a group, and the one at which the walk ends, if any. -/
def walkTasks (group : String) : List TaskDiff → Progress σ → Progress σ × Option String
  | [], progress => (progress, none)
  | task :: tasks, progress =>
    if !task.type.isEdited then walkTasks group tasks progress
    else if task.objects.isEmpty then
      match policy with
      | .abortWalk => (progress.note receive (.stopped group task.name), some task.name)
      | .skipTask => walkTasks group tasks (progress.note receive (.skipped group task.name))
    else walkTasks group tasks (walkObjects receive group task.name task.objects progress)

/-- The groups of a job, and the group and task at which the walk ends, if any. -/
def walkGroups : List TaskGroupDiff → Progress σ → Progress σ × Option (String × String)
  | [], progress => (progress, none)
  | group :: groups, progress =>
    if !group.type.isEdited then walkGroups groups progress
    else
      let progress := walkObjects receive group.name "" group.objects progress
      match walkTasks receive policy group.name group.tasks progress with
      | (progress, none) => walkGroups groups progress
      | (progress, some task) => (progress, some (group.name, task))

/-- Walks a job. The job's own type, fields and objects play no part. -/
def walk (job : JobDiff) (state : σ) : σ × Outcome :=
  match walkGroups receive policy job.groups ⟨state, 0⟩ with
  | (progress, none) => (progress.state, .completed progress.emitted)
  | (progress, some (group, task)) => (progress.state, .halted group task progress.emitted)

end

/-- A receiver of changes alone. -/
def Receiver.ofChanges (receive : σ → FieldChange → σ) : Receiver σ
  | state, .change change => receive state change
  | state, _ => state

/-- The changes in a job, in order, and how the walk ended. -/
def collectChanges (job : JobDiff) (policy : EmptyTaskPolicy) : List FieldChange × Outcome :=
  walk (.ofChanges fun changes change => changes ++ [change]) policy job []

end DeployGate.Walk
