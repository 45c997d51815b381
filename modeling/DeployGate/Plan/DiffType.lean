/-!
# Diff types

The scheduler marks every node of a diff with a type. Four names are known; the case of their ASCII
letters does not matter. Every other text is kept as it is.
-/

namespace DeployGate.Plan

inductive DiffType
  | added
  | deleted
  | edited
  | none
  | unrecognized (raw : String)
  deriving DecidableEq, Repr, Inhabited

/-- The texts agree up to the case of ASCII letters. -/
def sameIgnoringCase (a b : String) : Bool :=
  a.toList.map Char.toLower == b.toList.map Char.toLower

namespace DiffType

def known : List (String × DiffType) :=
  [("Added", added), ("Deleted", deleted), ("Edited", edited), ("None", none)]

def ofString (text : String) : DiffType :=
  match known.find? fun entry => sameIgnoringCase entry.1 text with
  | some entry => entry.2
  | _ => unrecognized text

/-- The type of a text that is handed over: where no name is known it is kept as it came. -/
def ofOwned (text : String) : DiffType :=
  match ofString text with
  | unrecognized _ => unrecognized text
  | type => type

def toString : DiffType → String
  | added => "Added"
  | deleted => "Deleted"
  | edited => "Edited"
  | none => "None"
  | unrecognized raw => raw

/-- The text that is left of a type: one that was kept is given back. -/
def intoString : DiffType → String
  | unrecognized raw => raw
  | type => type.toString

instance : ToString DiffType where
  toString := DiffType.toString

/-- No known name stands for an unknown type. -/
theorem ne_unrecognized_of_mem_known {entry : String × DiffType} (inside : entry ∈ known)
    (raw : String) : entry.2 ≠ unrecognized raw := by
  simp only [known, List.mem_cons, List.not_mem_nil, or_false] at inside
  rcases inside with rfl | rfl | rfl | rfl <;> simp

/-- A text that is unknown is the one that is kept. -/
theorem ofString_eq_unrecognized {text raw : String} (unknown : ofString text = unrecognized raw) :
    text = raw := by
  rw [ofString] at unknown
  split at unknown
  next entry found =>
    exact absurd unknown (ne_unrecognized_of_mem_known (List.mem_of_find?_eq_some found) raw)
  next =>
    cases unknown
    rfl

theorem ofOwned_eq (text : String) : ofOwned text = ofString text := by
  rw [ofOwned]
  split
  next raw unknown => rw [unknown, ofString_eq_unrecognized unknown]
  next => rfl

theorem intoString_eq (type : DiffType) : type.intoString = type.toString := by
  cases type <;> rfl

def isEdited : DiffType → Bool
  | edited => true
  | _ => false

theorem isEdited_iff {type : DiffType} : type.isEdited = true ↔ type = edited := by
  cases type <;> simp [isEdited]

def isUnrecognized : DiffType → Bool
  | unrecognized _ => true
  | _ => false

end DiffType

end DeployGate.Plan
