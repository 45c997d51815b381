import DeployGate.Json.Container
import DeployGate.Json.Value

/-!
# Canonical values

A value is canonical when the keys of every object in it ascend by their UTF-8 bytes, so that none
is repeated. Reading a document gives canonical values: a member moves to the place of its key, and
replaces the member with that key.
-/

namespace DeployGate.Json

/-- Members without repeated keys, in ascending order of the keys. -/
def Ascending (members : List (String × β)) : Prop :=
  (members.map Prod.fst).Pairwise Text.Precedes

/-- Puts a member at the place of its key, over the one that is there. -/
def insertMember (key : String) (value : β) : List (String × β) → List (String × β)
  | [] => [(key, value)]
  | (k, v) :: rest =>
    if key = k then (key, value) :: rest
    else if Text.Precedes key k then (key, value) :: (k, v) :: rest
    else (k, v) :: insertMember key value rest

theorem mem_insertMember {key : String} {value : β} {members : List (String × β)}
    {member : String × β} (inside : member ∈ insertMember key value members) :
    member = (key, value) ∨ member ∈ members := by
  induction members with
  | nil => simpa [insertMember] using inside
  | cons first rest ih =>
    obtain ⟨k, v⟩ := first
    simp only [insertMember] at inside
    split at inside
    · rcases List.mem_cons.1 inside with rfl | inside
      · exact .inl rfl
      · exact .inr (List.mem_cons_of_mem _ inside)
    · split at inside
      · exact (List.mem_cons.1 inside).imp id id
      · rcases List.mem_cons.1 inside with rfl | inside
        · exact .inr List.mem_cons_self
        · exact (ih inside).imp id (List.mem_cons_of_mem _)

theorem ascending_insertMember {key : String} {value : β} {members : List (String × β)}
    (ascending : Ascending members) : Ascending (insertMember key value members) := by
  induction members with
  | nil => simp [insertMember, Ascending]
  | cons first rest ih =>
    obtain ⟨k, v⟩ := first
    simp only [Ascending, List.map_cons, List.pairwise_cons] at ascending
    obtain ⟨after, ascending⟩ := ascending
    simp only [insertMember]
    split
    · subst k
      exact List.pairwise_cons.2 ⟨after, ascending⟩
    · next differ =>
      split
      · next before =>
        refine List.pairwise_cons.2 ⟨?_, List.pairwise_cons.2 ⟨after, ascending⟩⟩
        intro other inside
        rcases List.mem_cons.1 inside with rfl | inside
        · exact before
        · exact before.trans (after other inside)
      · next notBefore =>
        refine List.pairwise_cons.2 ⟨?_, ih ascending⟩
        intro other inside
        obtain ⟨member, placed, rfl⟩ := List.mem_map.1 inside
        rcases mem_insertMember placed with rfl | old
        · exact Text.precedes_of_not notBefore differ
        · exact after member.1 (List.mem_map.2 ⟨member, old, rfl⟩)

namespace Value

/-- The keys of every object in the value ascend. -/
inductive Canonical : Value → Prop
  | null : Canonical null
  | bool (value : Bool) : Canonical (bool value)
  | number (value : Number) : Canonical (number value)
  | string (value : String) : Canonical (string value)
  | array {elements : List Value} :
    (∀ element ∈ elements, Canonical element) → Canonical (array elements)
  | object {members : List (String × Value)} :
    Ascending members → (∀ member ∈ members, Canonical member.2) → Canonical (object members)

end Value

abbrev Datum := { value : Value // value.Canonical }

structure Members where
  entries : List (String × Value)
  ascending : Ascending entries
  canonical : ∀ member ∈ entries, member.2.Canonical
  deriving DecidableEq, Repr

namespace Members

def empty : Members := ⟨[], .nil, by simp⟩

def keys (members : Members) : List String := members.entries.map Prod.fst

def insert (members : Members) (key : String) (value : Datum) : Members where
  entries := insertMember key value.val members.entries
  ascending := ascending_insertMember members.ascending
  canonical := fun member inside =>
    match mem_insertMember inside with
    | .inl same => same ▸ value.property
    | .inr inside => members.canonical member inside

def toDatum (members : Members) : Datum :=
  ⟨.object members.entries, .object members.ascending members.canonical⟩

end Members

namespace Datum

def null : Datum := ⟨.null, .null⟩

def bool (value : Bool) : Datum := ⟨.bool value, .bool value⟩

def number (value : Number) : Datum := ⟨.number value, .number value⟩

def string (value : String) : Datum := ⟨.string value, .string value⟩

def array (elements : List Datum) : Datum :=
  ⟨.array (elements.map (·.val)), .array fun element inside => by
    obtain ⟨datum, _, rfl⟩ := List.mem_map.1 inside
    exact datum.property⟩

end Datum

def memberValues (item : Reader Datum) : MemberFold Members := fun members key =>
  .ok (item.map (members.insert key))

/-- A value with parts that the given reader reads; `none` where no list or object may open. -/
def readDatumWithin (item : Option (Reader Datum)) : Reader Datum :=
  afterBlank fun
    | [] => .error (.next .endInValue [])
    | 'n' :: rest => readWord 'n' "ull" .null rest
    | 't' :: rest => readWord 't' "rue" (.bool true) rest
    | 'f' :: rest => readWord 'f' "alse" (.bool false) rest
    | '"' :: rest => (readQuoted rest).map fun found => (found.map .string).later
    | '[' :: rest =>
      match item with
      | none => .error (.next .tooDeep ('[' :: rest))
      | some item =>
        (readElements item true rest).map fun found => (found.map .array).later
    | '\x7b' :: rest =>
      match item with
      | none => .error (.next .tooDeep ('\x7b' :: rest))
      | some item =>
        (readObject (memberValues item) .empty rest).map fun found =>
          (found.map Members.toDatum).later
    | text =>
      if startsNumber text then (readNumber text).map (Found.map .number)
      else .error (.next .noValue text)

/-- A value in which at most `depth` lists and objects are open at the same time. -/
def readDatum : (depth : Nat) → Reader Datum
  | 0 => readDatumWithin none
  | depth + 1 => readDatumWithin (some (readDatum depth))

def readMembersOf (item : Option (Reader Datum)) : Reader Members :=
  afterBlank fun
    | '\x7b' :: rest =>
      match item with
      | none => .error (.next .tooDeep ('\x7b' :: rest))
      | some item => (readObject (memberValues item) .empty rest).map Found.later
    | text => .error (mismatch "a map" text)

end DeployGate.Json
