/-!
# Field changes

One changed field, with the group and the task it was found under. A field of a group's own objects
has no task, which an empty task name says.
-/

namespace DeployGate.Walk

structure FieldChange where
  group : String
  task : String
  -- The innermost object that holds the field.
  object : String
  field : String
  old : String
  new : String
  deriving DecidableEq, Repr

namespace FieldChange

def hasTask (change : FieldChange) : Bool := !change.task.isEmpty

/-- Names the group and the task where there are any. -/
def message (change : FieldChange) : String :=
  (if change.group.isEmpty then "" else "group " ++ change.group ++ " ")
    ++ (if change.task.isEmpty then "" else "and task " ++ change.task ++ " ")
    ++ "plan indicates change of " ++ change.object ++ ":" ++ change.field
    ++ " from " ++ change.old ++ " to " ++ change.new

end FieldChange

end DeployGate.Walk
