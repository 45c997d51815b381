import DeployGate.Plan.DiffType

/-!
# Diffs

The difference between a running job and its candidate, as a tree: a job has task groups, a group
has tasks, and each of the three has fields and objects. Objects contain objects to any depth.
-/

namespace DeployGate.Plan

structure FieldDiff where
  type : DiffType
  name : String
  old : String := ""
  new : String := ""
  annotations : List String := []
  deriving DecidableEq, Repr, Inhabited

namespace FieldDiff

def edited (name old new : String) : FieldDiff := { type := .edited, name, old, new }

def unchanged (name value : String) : FieldDiff :=
  { type := .none, name, old := value, new := value }

end FieldDiff

structure ObjectDiff where
  type : DiffType
  name : String
  fields : List FieldDiff := []
  objects : List ObjectDiff := []
  deriving Repr, Inhabited

structure TaskDiff where
  type : DiffType
  name : String
  fields : List FieldDiff := []
  objects : List ObjectDiff := []
  annotations : List String := []
  deriving Repr, Inhabited

structure TaskGroupDiff where
  type : DiffType
  name : String
  fields : List FieldDiff := []
  objects : List ObjectDiff := []
  tasks : List TaskDiff := []
  deriving Repr, Inhabited

structure JobDiff where
  type : DiffType
  id : String := ""
  fields : List FieldDiff := []
  objects : List ObjectDiff := []
  groups : List TaskGroupDiff := []
  deriving Repr, Inhabited

namespace ObjectDiff

/-- An object without objects inside. -/
def isLeaf (object : ObjectDiff) : Bool := object.objects.isEmpty

mutual

/-- What holds of an object when it holds of its children holds of every object. -/
theorem induction {motive : ObjectDiff → Prop}
    (step : ∀ type name fields objects, (∀ child ∈ objects, motive child) →
      motive ⟨type, name, fields, objects⟩) : (object : ObjectDiff) → motive object
  | ⟨type, name, fields, objects⟩ => step type name fields objects (induction_forall step objects)

theorem induction_forall {motive : ObjectDiff → Prop}
    (step : ∀ type name fields objects, (∀ child ∈ objects, motive child) →
      motive ⟨type, name, fields, objects⟩) :
    (objects : List ObjectDiff) → ∀ child ∈ objects, motive child
  | [] => fun _ inside => by cases inside
  | object :: objects =>
    List.forall_mem_cons.mpr ⟨induction step object, induction_forall step objects⟩

end

attribute [induction_eliminator] induction

mutual

def decEq : (a b : ObjectDiff) → Decidable (a = b)
  | ⟨type, name, fields, objects⟩, ⟨type', name', fields', objects'⟩ =>
    match decEqList objects objects' with
    | isFalse differ => isFalse (by simp [differ])
    | isTrue same =>
      decidable_of_iff (type = type' ∧ name = name' ∧ fields = fields') (by simp [same])

def decEqList : (as bs : List ObjectDiff) → Decidable (as = bs)
  | [], [] => isTrue rfl
  | [], _ :: _ | _ :: _, [] => isFalse (by simp)
  | a :: as, b :: bs =>
    match decEq a b, decEqList as bs with
    | isTrue same, isTrue same' => isTrue (by rw [same, same'])
    | isFalse differ, _ | _, isFalse differ => isFalse (by simp [differ])

end

instance : DecidableEq ObjectDiff := decEq

end ObjectDiff

deriving instance DecidableEq for TaskDiff
deriving instance DecidableEq for TaskGroupDiff
deriving instance DecidableEq for JobDiff

end DeployGate.Plan
