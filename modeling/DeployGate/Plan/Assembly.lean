import DeployGate.Plan.Diff

/-!
# Assembling diffs

A diff can be put together node by node: fields are appended to a node, and a finished node is
appended to the node that may hold it.
-/

namespace DeployGate.Plan

inductive Node
  | job (job : JobDiff)
  | group (group : TaskGroupDiff)
  | task (task : TaskDiff)
  | object (object : ObjectDiff)

namespace Node

def addField (field : FieldDiff) : Node → Node
  | job node => job { node with fields := node.fields ++ [field] }
  | group node => group { node with fields := node.fields ++ [field] }
  | task node => task { node with fields := node.fields ++ [field] }
  | object node => object { node with fields := node.fields ++ [field] }

/-- The second node with the first one appended. Objects go into every node, tasks into groups and
groups into the job. -/
def appendTo? : (child parent : Node) → Option Node
  | object child, job parent => some (job { parent with objects := parent.objects ++ [child] })
  | object child, group parent => some (group { parent with objects := parent.objects ++ [child] })
  | object child, task parent => some (task { parent with objects := parent.objects ++ [child] })
  | object child, object parent =>
    some (object { parent with objects := parent.objects ++ [child] })
  | task child, group parent => some (group { parent with tasks := parent.tasks ++ [child] })
  | group child, job parent => some (job { parent with groups := parent.groups ++ [child] })
  | _, _ => none

end Node

end DeployGate.Plan
