import DeployGate.Json.Container

/-!
# Records

A record has declared keys in a fixed order, each with a reader of its value and, when the key may
be left out, the value that stands for its absence. It is written either as an object, whose members
may come in any order, or as a list of the values in declared order, of which the last may be left
out. Every key has one slot: a key that comes twice is refused, and so is an object at whose end the
slot of a key that may not be left out is empty.
-/

namespace DeployGate.Json

structure Key (β : Type) where
  name : String
  read : Reader β
  absent : Option β

/-- The declared keys of a record, in order, by the types of their values. -/
inductive Keys : List Type → Type 1
  | nil : Keys []
  | cons {β : Type} {βs : List Type} : Key β → Keys βs → Keys (β :: βs)

/-- One value for every key. -/
def Row : List Type → Type
  | [] => Unit
  | β :: βs => β × Row βs

/-- For every key the value that was read for it, if any. -/
def Slots : List Type → Type
  | [] => Unit
  | β :: βs => Option β × Slots βs

namespace Keys

def names : Keys βs → List String
  | nil => []
  | cons key keys => key.name :: keys.names

def empty : Keys βs → Slots βs
  | nil => ()
  | cons _ keys => (none, keys.empty)

/-- What to do with a member of the given name: nothing is known about it, or it is refused, or its
value is read into its slot. -/
def member? : Keys βs → Slots βs → String → Option (Except Cause (Reader (Slots βs)))
  | nil, _, _ => none
  | cons key keys, (slot, slots), name =>
    if key.name = name then
      match slot with
      | some _ => some (.error (.duplicateField name))
      | none => some (.ok (key.read.map fun value => (some value, slots)))
    else
      (keys.member? slots name).map fun result =>
        result.map fun reader => reader.map fun slots => (slot, slots)

/-- The row of filled slots, or the name of the first key that must not be left out. -/
def finish : Keys βs → Slots βs → Except String (Row βs)
  | nil, _ => .ok ()
  | cons key keys, (slot, slots) =>
    match slot.or key.absent with
    | none => .error key.name
    | some value => (keys.finish slots).map fun row => (value, row)

/-- The row of the values in a list, from the key with the given index on. -/
def readRow (expected : String) :
    Keys βs → (index : Nat) → (text : List Char) → Except Fault (Found (Row βs) text)
  | nil, _, text => (closeList text).map (Found.map fun _ => ())
  | cons key keys, index, text =>
    match nextElement (index == 0) text with
    | .error fault => .error fault
    | .ok (.close rest _) =>
      match key.absent with
      | none => .error (.here (.wrongLength index expected) rest)
      | some value => (keys.readRow expected index text).map (Found.map fun row => (value, row))
    | .ok (.element ⟨rest, le⟩) =>
      match key.read rest with
      | .error fault => .error fault
      | .ok ⟨value, after, shorter⟩ =>
        (keys.readRow expected (index + 1) after).map fun found =>
          ⟨(value, found.value), found.rest, by have := found.shorter; omega⟩

end Keys

structure Record (α : Type) where
  types : List Type
  keys : Keys types
  build : Row types → α
  -- Members with other keys are refused instead of skipped.
  closed : Bool := false

namespace Record

def member (record : Record α) : MemberFold (Slots record.types) := fun slots name =>
  match record.keys.member? slots name with
  | some result => result
  | none =>
    if record.closed then .error (.unknownField name record.keys.names)
    else .ok (skipValue.map fun _ => slots)

end Record

/-- A record of the given name; `none` where no list or object may open any more. -/
def readRecord (name : String) (record : Option (Record α)) : Reader α :=
  afterBlank fun
    | '[' :: rest =>
      match record with
      | none => .error (.next .tooDeep ('[' :: rest))
      | some record =>
        let expected := "struct " ++ name ++ " with " ++ toString record.keys.names.length
          ++ " elements"
        (record.keys.readRow expected 0 rest).map fun found =>
          ⟨record.build found.value, found.rest, by
            have := found.shorter
            simp only [List.length_cons]
            omega⟩
    | '\x7b' :: rest =>
      match record with
      | none => .error (.next .tooDeep ('\x7b' :: rest))
      | some record =>
        match readObject record.member record.keys.empty rest with
        | .error fault => .error fault
        | .ok ⟨slots, after, shorter⟩ =>
          match record.keys.finish slots with
          | .error key => .error (.here (.missingField key) after)
          | .ok row => .ok ⟨record.build row, after, by simp only [List.length_cons]; omega⟩
    | text => .error (mismatch ("struct " ++ name) text)

end DeployGate.Json
