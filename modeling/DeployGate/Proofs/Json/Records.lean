import DeployGate.Proofs.Json.Recovery

/-!
# Recovery of records

A record that is written as an object with every declared key in declared order is recovered when
the values of all keys are, inside one more level.
-/

namespace DeployGate.Json

variable {α β : Type} {βs : List Type}

/-! ### Runs -/

section

variable {record : Record α} {slots : Slots record.types} {row : Row record.types}
  {text rest : List Char}

theorem run_readRecord_some (name : String)
    (read : (readObject record.member record.keys.empty).run text = .ok (slots, rest))
    (complete : record.keys.finish slots = .ok row) :
    (readRecord name (some record)).run ('\x7b' :: text) = .ok (record.build row, rest) := by
  rw [run_readRecord_object, read]
  simp only [Except.bind, complete]

theorem run_readRecord_error (name : String) {fault : Fault}
    (refused : (readObject record.member record.keys.empty).run text = .error fault) :
    (readRecord name (some record)).run ('\x7b' :: text) = .error fault := by
  rw [run_readRecord_object, refused]
  rfl

end

/-! ### Slots -/

/-- The slots of a record when every key has its value. -/
def Slots.ofRow : {βs : List Type} → Row βs → Slots βs
  | [], _ => ()
  | _ :: _, (value, row) => (some value, ofRow row)

namespace Keys

theorem finish_ofRow (keys : Keys βs) (row : Row βs) :
    keys.finish (Slots.ofRow row) = .ok row := by
  induction keys with
  | nil => rfl
  | cons key keys ih =>
    obtain ⟨value, row⟩ := row
    simp only [Slots.ofRow, finish, Option.some_or, ih row]
    rfl

/-- A member is read into the slot of its key. -/
def Accepts (keys : Keys βs) (slots : Slots βs) (name : String) (reader : Reader (Slots βs)) :
    Prop :=
  keys.member? slots name = some (.ok reader)

/-- The members have the declared keys in declared order, and their values are recovered. -/
inductive Recovers (depth : Nat) :
    {βs : List Type} → Keys βs → List (String × Value) → Row βs → Prop
  | nil : Recovers depth .nil [] ()
  | cons {β : Type} {βs : List Type} {key : Key β} {keys : Keys βs} {value : Value} {result : β}
    {members : List (String × Value)} {row : Row βs} :
    Json.Recovers depth key.read value result → Recovers depth keys members row →
      Recovers depth (.cons key keys) ((key.name, value) :: members) (result, row)

variable {depth : Nat} {keys : Keys βs} {members : List (String × Value)} {row : Row βs}

theorem Recovers.map_fst (recovers : keys.Recovers depth members row) :
    members.map Prod.fst = keys.names := by
  induction recovers with
  | nil => rfl
  | cons _ _ ih => rw [names, ← ih, List.map_cons]

theorem Accepts.member {record : Record α} {slots : Slots record.types} {name : String}
    {reader : Reader (Slots record.types)} (accepted : record.keys.Accepts slots name reader) :
    record.member slots name = .ok reader := by
  rw [Record.member, accepted]

theorem accepts_first (key : Key β) (slots : Slots βs) :
    Accepts (.cons key keys) (none, slots) key.name
      (key.read.map fun value => (some value, slots)) := by
  -- one step of the search for the name, on slots whose type is known to be a pair
  have step : (Keys.cons key keys).member? (none, slots) key.name
      = if key.name = key.name then some (.ok (key.read.map fun value => (some value, slots)))
        else _ := rfl
  exact step.trans (if_pos rfl)

theorem accepts_other {key : Key β} {slots : Slots βs} {name : String}
    {reader : Reader (Slots βs)} (slot : Option β) (other : key.name ≠ name)
    (accepted : keys.Accepts slots name reader) :
    Accepts (.cons key keys) (slot, slots) name (reader.map fun slots => (slot, slots)) := by
  have step : (Keys.cons key keys).member? (slot, slots) name
      = if key.name = name then _ else
        (keys.member? slots name).map fun result =>
          result.map fun reader => reader.map fun slots => (slot, slots) := rfl
  refine step.trans ((if_neg other).trans ?_)
  rw [accepted]
  rfl

theorem folds_cons {key : Key β} {slots last : Slots βs} (slot : Option β)
    (others : ∀ name ∈ members.map Prod.fst, key.name ≠ name)
    (folds : Folds keys.Accepts depth slots members last) :
    Folds (Accepts (.cons key keys)) depth (slot, slots) members (slot, last) := by
  induction folds with
  | nil => exact .nil
  | cons accepted recovers _ ih =>
    rw [List.map_cons, List.forall_mem_cons] at others
    exact .cons (accepts_other slot others.1 accepted)
      (recovers.map fun slots => (slot, slots)) (ih others.2)

/-- The values of the keys fill all slots. -/
theorem Recovers.folds (recovers : keys.Recovers depth members row) (distinct : keys.names.Nodup) :
    Folds keys.Accepts depth keys.empty members (Slots.ofRow row) := by
  induction recovers with
  | nil => exact .nil
  | @cons β βs key keys value result members row recovered recovers ih =>
    -- no later member has the name of the first key, so its slot stays filled
    obtain ⟨fresh, distinct⟩ := List.nodup_cons.mp distinct
    rw [← recovers.map_fst] at fresh
    refine .cons (accepts_first key keys.empty)
      (recovered.map fun value => (some value, keys.empty)) ?_
    exact folds_cons (some result) (fun name inside same => fresh (same ▸ inside)) (ih distinct)

end Keys

/-! ### Records -/

variable {depth : Nat} {members : List (String × Value)}

namespace Recovers

/-- A record is recovered when the values of its keys are, one level further in. -/
theorem record (name : String) {record : Record α} {row : Row record.types}
    (recovers : record.keys.Recovers depth members row) (distinct : record.keys.names.Nodup) :
    Recovers (depth + 1) (readRecord name (some record)) (.object members) (record.build row) where
  integral := (recovers.folds distinct).integral
  ends rest delimited := by
    have known (slots : Slots record.types) (name : String) (reader : Reader (Slots record.types))
        (accepted : record.keys.Accepts slots name reader) :
        record.member slots name = .ok reader :=
      accepted.member
    obtain ⟨text, opened, ends⟩ := (recovers.folds distinct).ends_object known rest
    rw [opened]
    refine Ends.congr ⟨fun shallow => ?_, fun deep => ?_⟩ Value.depth_object_le.symm
    · exact run_readRecord_some name (ends.found shallow) (Keys.finish_ofRow _ row)
    · obtain ⟨left, tooDeep⟩ := ends.tooDeep deep
      exact ⟨left, run_readRecord_error name tooDeep⟩

/-- A record whose keys have readers that take the depth that is left. -/
theorem record_within (name : String) {record : Nat → Record α} {result : α}
    (recover : ∀ depth, ∃ row : Row (record depth).types, (record depth).build row = result ∧
      (record depth).keys.Recovers depth members row)
    (distinct : ∀ depth, (record depth).keys.names.Nodup) :
    Recovers depth (readRecord name (within record depth)) (.object members) result := by
  cases depth with
  | zero =>
    obtain ⟨text, opened⟩ := Value.compact_object members
    obtain ⟨row, -, recovers⟩ := recover 0
    exact .shut (recovers.folds (distinct 0)).integral
      (by rw [Value.depth]; exact Nat.succ_pos _) opened (run_readRecord_none name)
  | succ depth =>
    obtain ⟨row, rfl, recovers⟩ := recover depth
    exact Recovers.record name recovers (distinct depth)

end Recovers

end DeployGate.Json
