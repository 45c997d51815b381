import DeployGate.Proofs.Enumeration
import DeployGate.Proofs.Walk.Steps

/-!
# Positions of changes

A position says where a field stands in a job: its group, its task unless it is in an object of the
group itself, the child indices that lead to its object, and its index there. `Reports` says of a
position which change has to be reported for it; most positions report none.

## Main result

`collectChanges_positions`: a walk that skips empty tasks reports one change for every position that
reports any, in the order of the positions, and counts them.
-/

namespace DeployGate.Walk

open Plan (DiffType FieldDiff ObjectDiff TaskDiff TaskGroupDiff JobDiff)

/-- Where a field stands in a job. -/
structure Position where
  group : Nat
  -- No task for the objects of the group itself.
  task : Option Nat
  -- The index of an object in its group or task, and from there of one child after another.
  path : List Nat
  field : Nat
  deriving DecidableEq, Repr

/-- Tree order: the objects of a group come before its tasks. -/
inductive Position.Before : Position → Position → Prop
  | group {g g' : Nat} {t t' : Option Nat} {p p' : List Nat} {f f' : Nat} :
    g < g' → Before ⟨g, t, p, f⟩ ⟨g', t', p', f'⟩
  | task {g : Nat} {t t' : Option Nat} {p p' : List Nat} {f f' : Nat} :
    t < t' → Before ⟨g, t, p, f⟩ ⟨g, t', p', f'⟩
  | path {g : Nat} {t : Option Nat} {p p' : List Nat} {f f' : Nat} :
    p < p' → Before ⟨g, t, p, f⟩ ⟨g, t, p', f'⟩
  | field {g : Nat} {t : Option Nat} {p : List Nat} {f f' : Nat} :
    f < f' → Before ⟨g, t, p, f⟩ ⟨g, t, p, f'⟩

/-- The child indices lead from an object to one that is edited and has no children, and the field
with the given index there is edited. Nothing is asked of the objects on the way. -/
inductive EditedField : ObjectDiff → List Nat → Nat → ObjectDiff → FieldDiff → Prop
  | here {object : ObjectDiff} {index : Nat} {field : FieldDiff} :
    object.objects = [] → object.type = .edited → object.fields[index]? = some field →
      field.type = .edited → EditedField object [] index object field
  | child {object child leaf : ObjectDiff} {i index : Nat} {path : List Nat} {field : FieldDiff} :
    object.objects[i]? = some child → EditedField child path index leaf field →
      EditedField object (i :: path) index leaf field

def changeOf (group task : String) (object : ObjectDiff) (field : FieldDiff) : FieldChange :=
  ⟨group, task, object.name, field.name, field.old, field.new⟩

/-- The objects have an edited field with the change at the end of the path. -/
inductive ReportsIn (group task : String) (objects : List ObjectDiff) :
    List Nat → Nat → FieldChange → Prop
  | intro {object leaf : ObjectDiff} {i index : Nat} {path : List Nat} {field : FieldDiff} :
    objects[i]? = some object → EditedField object path index leaf field →
      ReportsIn group task objects (i :: path) index (changeOf group task leaf field)

/-- What has to be reported for a position of a job. -/
inductive Reports (job : JobDiff) : Position → FieldChange → Prop
  | ofGroup {g f : Nat} {path : List Nat} {group : TaskGroupDiff} {change : FieldChange} :
    job.groups[g]? = some group → group.type = .edited →
      ReportsIn group.name "" group.objects path f change → Reports job ⟨g, none, path, f⟩ change
  | ofTask {g t f : Nat} {path : List Nat} {group : TaskGroupDiff} {task : TaskDiff}
      {change : FieldChange} :
    job.groups[g]? = some group → group.type = .edited → group.tasks[t]? = some task →
      task.type = .edited → ReportsIn group.name task.name task.objects path f change →
        Reports job ⟨g, some t, path, f⟩ change

/-! ### Objects -/

abbrev ByPath : List Nat × Nat → List Nat × Nat → Prop := Prod.Lex (· < ·) (· < ·)

theorem fieldChanges_enumerates (group task : String) (object : ObjectDiff) :
    Enumerates (· < ·)
      (fun (index : Nat) change => ∃ field, object.fields[index]? = some field
        ∧ field.type = .edited ∧ changeOf group task object field = change)
      (fieldChanges group task object.name object.fields) :=
  (Enumerates.map_filter object.fields (·.type.isEdited) (changeOf group task object)).congr
    fun index change => by simp only [DiffType.isEdited_iff]

/-- What the edited fields report that the child indices lead to from an object. -/
def ReportsBelow (group task : String) (object : ObjectDiff) (key : List Nat × Nat)
    (change : FieldChange) : Prop :=
  ∃ leaf field, EditedField object key.1 key.2 leaf field ∧ changeOf group task leaf field = change

/-- Objects are enumerated by the index of each and the path from there. -/
theorem objectsChanges_enumerates {group task : String} {objects : List ObjectDiff}
    (each : ∀ object ∈ objects,
      Enumerates ByPath (ReportsBelow group task object) (objectChanges group task object)) :
    Enumerates ByPath (fun key => ReportsIn group task objects key.1 key.2)
      (objectsChanges group task objects) := by
  rw [objectsChanges_eq_flatMap]
  refine ((Enumerates.flatMap _ objects _ each).rekey ByPath
    (fun key => (key.1 :: key.2.1, key.2.2)) ?_).congr ?_
  · -- the index of the child goes in front of the path, where it decides first
    rintro ⟨i, path, index⟩ ⟨i', path', index'⟩ (⟨_, _, less⟩ | ⟨_, ⟨_, _, less⟩ | ⟨_, less⟩⟩)
    · exact .left _ _ (List.Lex.rel less)
    · exact .left _ _ (List.Lex.cons less)
    · exact .right _ less
  · rintro ⟨path, index⟩ change
    constructor
    · rintro ⟨⟨i, rest, _⟩, same, object, at_, leaf, field, inside, rfl⟩
      cases same
      exact .intro at_ inside
    · rintro ⟨at_, inside⟩
      exact ⟨(_, _, _), rfl, _, at_, _, _, inside, rfl⟩

/-- The edited fields of an object stand in it if it is edited and has no children, and otherwise in
its children. -/
theorem reportsBelow_iff (group task : String) (object : ObjectDiff) (key : List Nat × Nat)
    (change : FieldChange) :
    ReportsBelow group task object key change ↔
      (key.1 = [] ∧ object.objects = [] ∧ object.type = .edited ∧
        ∃ field, object.fields[key.2]? = some field ∧ field.type = .edited
          ∧ changeOf group task object field = change)
      ∨ ReportsIn group task object.objects key.1 key.2 change := by
  obtain ⟨path, index⟩ := key
  constructor
  · rintro ⟨leaf, field, inside, rfl⟩
    cases inside with
    | here leaf edited at_ changed => exact .inl ⟨rfl, leaf, edited, field, at_, changed, rfl⟩
    | child at_ inside => exact .inr (.intro at_ inside)
  · rintro (⟨rfl, leaf, edited, field, at_, changed, rfl⟩ | ⟨at_, inside⟩)
    · exact ⟨object, field, .here leaf edited at_ changed, rfl⟩
    · exact ⟨_, _, .child at_ inside, rfl⟩

theorem not_reportsIn_nil {group task : String} {path : List Nat} {index : Nat}
    {change : FieldChange} : ¬ReportsIn group task [] path index change := by
  rintro ⟨at_, _⟩
  cases at_

theorem objectChanges_enumerates (group task : String) (object : ObjectDiff) :
    Enumerates ByPath (ReportsBelow group task object) (objectChanges group task object) := by
  induction object with
  | step type name fields objects ih =>
    rw [objectChanges]
    by_cases leaf : objects.isEmpty && type.isEdited
    · -- its own fields are reported, at the empty path
      rw [if_pos leaf]
      simp only [Bool.and_eq_true, List.isEmpty_iff, DiffType.isEdited_iff] at leaf
      obtain ⟨rfl, rfl⟩ := leaf
      refine ((fieldChanges_enumerates group task ⟨.edited, name, fields, []⟩).rekey ByPath
        (fun index => ([], index)) fun _ _ less => .right _ less).congr ?_
      rintro ⟨path, index⟩ change
      simp [reportsBelow_iff, not_reportsIn_nil, eq_comm]
    · -- it is entered, whatever its type is
      rw [if_neg leaf]
      refine (objectsChanges_enumerates ih).congr ?_
      rintro ⟨path, index⟩ change
      have entered : ¬(objects = [] ∧ type = .edited) := by
        simpa [DiffType.isEdited_iff] using leaf
      rw [reportsBelow_iff, iff_or_self]
      exact fun ⟨_, childless, edited, _⟩ => (entered ⟨childless, edited⟩).elim

/-! ### Groups and jobs -/

/-- What a group reports at a task, or outside of its tasks. -/
def ReportsInGroup (group : TaskGroupDiff) (key : Option Nat × List Nat × Nat)
    (change : FieldChange) : Prop :=
  (key.1 = none ∧ ReportsIn group.name "" group.objects key.2.1 key.2.2 change)
  ∨ ∃ t task, key.1 = some t ∧ group.tasks[t]? = some task ∧ task.type = .edited
      ∧ ReportsIn group.name task.name task.objects key.2.1 key.2.2 change

/-- First by task, with no task before all others, then by path. -/
abbrev ByTask : Option Nat × List Nat × Nat → Option Nat × List Nat × Nat → Prop :=
  Prod.Lex (· < ·) ByPath

theorem objects_enumerate (group task : String) (objects : List ObjectDiff) :
    Enumerates ByPath (fun key => ReportsIn group task objects key.1 key.2)
      (objectsChanges group task objects) :=
  objectsChanges_enumerates fun object _ => objectChanges_enumerates group task object

theorem groupChanges_enumerates (group : TaskGroupDiff) :
    Enumerates ByTask (ReportsInGroup group) (groupChanges group) := by
  have own := (objects_enumerate group.name "" group.objects).rekey ByTask (fun key => (none, key))
    fun _ _ ordered => .right _ ordered
  have tasks := (Enumerates.flatMap_filter
      (fun task key => ReportsIn group.name task.name task.objects key.1 key.2) group.tasks
      (·.type.isEdited) _ fun task _ => objects_enumerate group.name task.name task.objects).rekey
    ByTask (fun key => (some key.1, key.2)) (by
      rintro _ _ (⟨_, _, less⟩ | ⟨_, ordered⟩)
      · exact .left _ _ less
      · exact .right _ ordered)
  rw [groupChanges]
  refine (own.append tasks ?_).congr fun key change => ?_
  · -- no task comes before every task
    rintro _ _ _ _ ⟨_, rfl, _⟩ ⟨_, rfl, _⟩
    exact .left _ _ trivial
  · obtain ⟨_ | t, path, index⟩ := key
    · simp [ReportsInGroup]
    · simp [ReportsInGroup, DiffType.isEdited_iff]

theorem reports_iff {job : JobDiff} {position : Position} {change : FieldChange} :
    Reports job position change ↔ ∃ group, job.groups[position.group]? = some group
      ∧ group.type = .edited
      ∧ ReportsInGroup group (position.task, position.path, position.field) change := by
  constructor
  · intro reports
    cases reports with
    | ofGroup at_ edited inside => exact ⟨_, at_, edited, .inl ⟨rfl, inside⟩⟩
    | ofTask at_ edited taskAt taskEdited inside =>
      exact ⟨_, at_, edited, .inr ⟨_, _, rfl, taskAt, taskEdited, inside⟩⟩
  · obtain ⟨g, task, path, index⟩ := position
    rintro ⟨group, at_, edited, ⟨rfl, inside⟩ | ⟨t, task, rfl, taskAt, taskEdited, inside⟩⟩
    · exact .ofGroup at_ edited inside
    · exact .ofTask at_ edited taskAt taskEdited inside

theorem groupsChanges_enumerates (job : JobDiff) :
    Enumerates Position.Before (Reports job) (groupsChanges job.groups) := by
  refine ((Enumerates.flatMap_filter ReportsInGroup job.groups (·.type.isEdited) _ fun group _ =>
      groupChanges_enumerates group).rekey Position.Before
    (fun key => ⟨key.1, key.2.1, key.2.2.1, key.2.2.2⟩) ?_).congr fun position change => ?_
  · rintro ⟨g, t, path, index⟩ ⟨g', t', path', index'⟩
      (⟨_, _, less⟩ | ⟨_, ⟨_, _, less⟩ | ⟨_, ⟨_, _, less⟩ | ⟨_, less⟩⟩⟩)
    · exact .group less
    · exact .task less
    · exact .path less
    · exact .field less
  · rw [reports_iff]
    constructor
    · rintro ⟨⟨g, t, path, index⟩, rfl, group, at_, edited, inside⟩
      exact ⟨group, at_, DiffType.isEdited_iff.mp edited, inside⟩
    · rintro ⟨group, at_, edited, inside⟩
      exact ⟨(position.group, position.task, position.path, position.field), rfl, group, at_,
        DiffType.isEdited_iff.mpr edited, inside⟩

theorem Position.not_before_self (position : Position) : ¬position.Before position := by
  obtain ⟨g, t, path, index⟩ := position
  intro before
  cases before with
  | group less => exact Nat.lt_irrefl g less
  | task less =>
    cases t with
    | none => exact less
    | some t => exact Nat.lt_irrefl t less
  | path less => exact List.lt_irrefl _ less
  | field less => exact Nat.lt_irrefl _ less

/-- A walk that skips empty tasks reports one change for every position that reports any, in tree
order, and completes with their number. -/
theorem collectChanges_positions (job : JobDiff) :
    ∃ entries : List (Position × FieldChange),
      (∀ position change, (position, change) ∈ entries ↔ Reports job position change) ∧
      (entries.map Prod.fst).Nodup ∧
      (entries.map Prod.fst).Pairwise Position.Before ∧
      collectChanges job .skipTask = (entries.map Prod.snd, .completed entries.length) := by
  obtain ⟨entries, changes, ascending, entry⟩ := groupsChanges_enumerates job
  have positions : (entries.map Prod.fst).Pairwise Position.Before :=
    List.pairwise_map.mpr ascending
  refine ⟨entries, entry, positions.imp ?_, positions, ?_⟩
  · -- no position comes twice, as the order is strict
    rintro position _ before rfl
    exact position.not_before_self before
  · rw [collectChanges_skipTask, ← changes, List.length_map]

end DeployGate.Walk
