import DeployGate.Json.Record
import DeployGate.Proofs.Json.DecodingObjects

/-!
# Decoding records

What a record is read as, told key by key. In an object the value of a key is looked for among all
members, so that their order does not matter; a reader meets the members in order and keeps a slot
for every key. In a list the values stand in the order of the keys.
-/

namespace DeployGate.Json

/-! ### Rows -/

/-- One function for every key. -/
def Decoders : List Type → Type
  | [] => Unit
  | β :: βs => (Tree → Option β) × Decoders βs

/-- The values of the members with the name. -/
def valuesOf (name : String) (members : List (List Nat × Tree)) : List Tree :=
  members.filterMap fun member => if textOfUnits member.1 = some name then some member.2 else none

/-- What the values of a key come to: without any it may be left out, and one has to suffice. -/
def Key.cell (key : Key β) (decode : Tree → Option β) : List Tree → Option β
  | [] => key.absent
  | [tree] => decode tree
  | _ => none

namespace Keys

def rowOfMembers : Keys βs → Decoders βs → List (List Nat × Tree) → Option (Row βs)
  | nil, _, _ => some ()
  | cons key keys, (decode, decoders), members =>
    (key.cell decode (valuesOf key.name members)).bind fun value =>
      (keys.rowOfMembers decoders members).map fun row => (value, row)

def rowOfElements : Keys βs → Decoders βs → List Tree → Option (Row βs)
  | nil, _, [] => some ()
  | nil, _, _ :: _ => none
  | cons key keys, (_, decoders), [] =>
    key.absent.bind fun value => (keys.rowOfElements decoders []).map fun row => (value, row)
  | cons _ keys, (decode, decoders), element :: elements =>
    (decode element).bind fun value =>
      (keys.rowOfElements decoders elements).map fun row => (value, row)

/-- The values of the keys are read as the functions say. -/
def Reads : Keys βs → Decoders βs → Prop
  | nil, _ => True
  | cons key keys, (decode, decoders) => Json.Reads key.read decode ∧ keys.Reads decoders

end Keys

/-- No key of the members is spelled as half of a surrogate pair. -/
def areTexts (members : List (List Nat × Tree)) : Bool :=
  members.all fun member => (textOfUnits member.1).isSome

def Record.decode (record : Record α) (decoders : Decoders record.types) : Tree → Option α
  | .array elements => (record.keys.rowOfElements decoders elements).map record.build
  | .object members =>
    if areTexts members then (record.keys.rowOfMembers decoders members).map record.build else none
  | _ => none

/-! ### Slots -/

/-- What the values of a key come to when its slot may be filled. -/
def Key.cellFrom (key : Key β) (decode : Tree → Option β) (slot : Option β) (values : List Tree) :
    Option β :=
  match slot, values with
  | none, values => key.cell decode values
  | some value, [] => some value
  | some _, _ :: _ => none

namespace Keys

/-- A value goes into the slot of its key, which must be empty. One of another key is dropped. -/
def place : Keys βs → Decoders βs → Slots βs → String → Tree → Option (Slots βs)
  | nil, _, slots, _, _ => some slots
  | cons key keys, (decode, decoders), (slot, slots), name, tree =>
    if key.name = name then
      match slot with
      | some _ => none
      | none => (decode tree).map fun value => (some value, slots)
    else (keys.place decoders slots name tree).map fun slots => (slot, slots)

/-- The row of the members that come when some slots are already filled. -/
def rowFrom : Keys βs → Decoders βs → Slots βs → List (List Nat × Tree) → Option (Row βs)
  | nil, _, _, _ => some ()
  | cons key keys, (decode, decoders), (slot, slots), members =>
    (key.cellFrom decode slot (valuesOf key.name members)).bind fun value =>
      (keys.rowFrom decoders slots members).map fun row => (value, row)

end Keys

variable {α β : Type} {βs : List Type}

namespace Keys

variable {keys : Keys βs} {decoders : Decoders βs}

theorem member?_reads (reads : keys.Reads decoders) (slots : Slots βs) (name : String) :
    match keys.member? slots name with
    | none => ∀ tree, keys.place decoders slots name tree = some slots
    | some (.error _) => ∀ tree, keys.place decoders slots name tree = none
    | some (.ok reader) => Json.Reads reader (keys.place decoders slots name) := by
  induction keys with
  | nil => exact fun tree => rfl
  | @cons β βs key keys ih =>
    obtain ⟨slot, slots⟩ := slots
    obtain ⟨decode, decoders⟩ := decoders
    obtain ⟨read, reads⟩ := reads
    have ih := ih reads slots
    by_cases same : key.name = name
    · cases slot with
      | some value => simp [member?, place, same]
      | none =>
        simp only [member?, place, same, if_true]
        exact read.map fun value => (some value, slots)
    · simp only [member?, place, same, if_false]
      cases known : keys.member? slots name with
      | none =>
        rw [known] at ih
        intro tree
        rw [ih tree]
        rfl
      | some result =>
        rw [known] at ih
        cases result with
        | error cause =>
          intro tree
          rw [ih tree]
          rfl
        | ok reader => exact Json.Reads.map (fun slots => (slot, slots)) ih

end Keys

/-- The reader for a member of a record puts its value into the slot of its key. -/
theorem Record.places {record : Record α} {decoders : Decoders record.types}
    (reads : record.keys.Reads decoders) (accepting : record.closed = false) :
    Places record.member (record.keys.place decoders) := by
  intro slots name
  have placed := Keys.member?_reads reads slots name
  rw [Record.member]
  cases known : record.keys.member? slots name with
  | none =>
    rw [known] at placed
    simp only [accepting]
    have passed : record.keys.place decoders slots name = fun _ => some slots := funext placed
    rw [passed]
    exact Reads.skip.map fun _ => slots
  | some result =>
    rw [known] at placed
    cases result with
    | error cause => exact placed
    | ok reader => exact placed

/-! ### Key by key -/

theorem valuesOf_cons (name : String) (member : List Nat × Tree)
    (members : List (List Nat × Tree)) :
    valuesOf name (member :: members)
      = (if textOfUnits member.1 = some name then [member.2] else []) ++ valuesOf name members := by
  rw [valuesOf, List.filterMap_cons]
  split <;> simp_all [valuesOf]

theorem valuesOf_append (name : String) (members members' : List (List Nat × Tree)) :
    valuesOf name (members ++ members') = valuesOf name members ++ valuesOf name members' :=
  List.filterMap_append

theorem mem_valuesOf {name : String} {members : List (List Nat × Tree)} {tree : Tree} :
    tree ∈ valuesOf name members ↔
      ∃ key, (key, tree) ∈ members ∧ textOfUnits key = some name := by
  simp only [valuesOf, List.mem_filterMap]
  constructor
  · rintro ⟨⟨key, value⟩, inside, found⟩
    split at found
    · cases found
      exact ⟨key, inside, ‹_›⟩
    · cases found
  · rintro ⟨key, inside, spelled⟩
    exact ⟨(key, tree), inside, if_pos spelled⟩

/-- The keys of members, as far as they are texts. -/
def keysOf (members : List (List Nat × Tree)) : List (Option String) :=
  members.map fun member => textOfUnits member.1

theorem mem_keysOf_iff {name : String} {members : List (List Nat × Tree)} :
    some name ∈ keysOf members ↔ valuesOf name members ≠ [] := by
  induction members with
  | nil => simp [keysOf, valuesOf]
  | cons member members ih =>
    rw [keysOf, List.map_cons, List.mem_cons, ← keysOf, ih, valuesOf_cons]
    by_cases same : textOfUnits member.1 = some name
    · simp [same]
    · simp [same, Ne.symm same]

/-- A key that comes once gives one value. -/
theorem valuesOf_of_nodup {members : List (List Nat × Tree)} (distinct : (keysOf members).Nodup)
    (name : String) : valuesOf name members = [] ∨ ∃ tree, valuesOf name members = [tree] := by
  induction members with
  | nil => exact .inl rfl
  | cons member members ih =>
    rw [keysOf, List.map_cons, List.nodup_cons, ← keysOf] at distinct
    rw [valuesOf_cons]
    by_cases same : textOfUnits member.1 = some name
    · have none : valuesOf name members = [] := by
        rw [same, mem_keysOf_iff, not_not] at distinct
        exact distinct.1
      exact .inr ⟨member.2, by rw [if_pos same, none, List.append_nil]⟩
    · simpa [same] using ih distinct.2

theorem Key.cellFrom_cons (key : Key β) (decode : Tree → Option β) (tree : Tree)
    (values : List Tree) :
    key.cellFrom decode none (tree :: values)
      = (decode tree).bind fun value => key.cellFrom decode (some value) values := by
  cases values with
  | nil =>
    change decode tree = (decode tree).bind some
    cases decode tree <;> rfl
  | cons another values =>
    change none = (decode tree).bind fun _ => none
    cases decode tree <;> rfl

namespace Keys

variable {keys : Keys βs} {decoders : Decoders βs}

theorem rowFrom_empty (keys : Keys βs) (decoders : Decoders βs)
    (members : List (List Nat × Tree)) :
    keys.rowFrom decoders keys.empty members = keys.rowOfMembers decoders members := by
  induction keys with
  | nil => rfl
  | cons key keys ih =>
    obtain ⟨decode, decoders⟩ := decoders
    rw [rowOfMembers, ← ih]
    rfl

theorem rowFrom_nil (keys : Keys βs) (decoders : Decoders βs) (slots : Slots βs) :
    keys.rowFrom decoders slots [] = (keys.finish slots).toOption := by
  induction keys with
  | nil => rfl
  | cons key keys ih =>
    obtain ⟨decode, decoders⟩ := decoders
    obtain ⟨slot, slots⟩ := slots
    have cell : key.cellFrom decode slot (valuesOf key.name []) = slot.or key.absent := by
      cases slot <;> rfl
    rw [rowFrom, cell, ih, finish]
    cases slot.or key.absent with
    | none => rfl
    | some value => cases keys.finish slots <;> rfl

/-- A member of none of the keys makes no difference. -/
theorem rowFrom_other {slots : Slots βs} {name : String} {member : List Nat × Tree}
    (spelled : textOfUnits member.1 = some name) (other : name ∉ keys.names)
    (members : List (List Nat × Tree)) :
    keys.rowFrom decoders slots (member :: members) = keys.rowFrom decoders slots members := by
  induction keys with
  | nil => rfl
  | cons key keys ih =>
    obtain ⟨decode, decoders⟩ := decoders
    obtain ⟨slot, slots⟩ := slots
    rw [names, List.mem_cons, not_or] at other
    have same : valuesOf key.name (member :: members) = valuesOf key.name members := by
      rw [valuesOf_cons, if_neg (by simp [spelled, other.1]), List.nil_append]
    rw [rowFrom, rowFrom, same, ih other.2]

/-- A member goes into its slot, and then those after it go into theirs. -/
theorem rowFrom_cons (distinct : keys.names.Nodup) (slots : Slots βs) {name : String}
    {member : List Nat × Tree} (spelled : textOfUnits member.1 = some name)
    (members : List (List Nat × Tree)) :
    keys.rowFrom decoders slots (member :: members) =
      (keys.place decoders slots name member.2).bind fun slots =>
        keys.rowFrom decoders slots members := by
  induction keys with
  | nil => rfl
  | cons key keys ih =>
    obtain ⟨decode, decoders⟩ := decoders
    obtain ⟨slot, slots⟩ := slots
    rw [names, List.nodup_cons] at distinct
    rw [rowFrom, valuesOf_cons, spelled]
    have place : (cons key keys).place (decode, decoders) (slot, slots) name member.2 =
        if key.name = name then
          match slot with
          | some _ => none
          | none => (decode member.2).map fun value => (some value, slots)
        else (keys.place decoders slots name member.2).map fun slots => (slot, slots) := rfl
    rw [place]
    by_cases same : key.name = name
    · subst same
      -- the other keys have other names, so that the member is none of theirs
      rw [if_pos rfl, if_pos rfl, List.singleton_append, rowFrom_other spelled distinct.1]
      cases slot with
      | some value => rfl
      | none =>
        rw [key.cellFrom_cons]
        cases decode member.2 <;> rfl
    · rw [if_neg same, if_neg (by simpa using Ne.symm same), List.nil_append, ih distinct.2]
      cases keys.place decoders slots name member.2 with
      | none => cases key.cellFrom decode slot (valuesOf key.name members) <;> rfl
      | some next => rfl

theorem fold_place (distinct : keys.names.Nodup) (decoders : Decoders βs) (slots : Slots βs)
    (members : List (List Nat × Tree)) :
    ((foldMembers (keys.place decoders) slots members).bind fun slots =>
        (keys.finish slots).toOption)
      = if areTexts members then keys.rowFrom decoders slots members else none := by
  -- the slots after each member take the place of those before it
  induction members generalizing slots with
  | nil => exact (rowFrom_nil keys decoders slots).symm
  | cons member members ih =>
    obtain ⟨key, tree⟩ := member
    have texts : areTexts ((key, tree) :: members)
        = ((textOfUnits key).isSome && areTexts members) := rfl
    rw [foldMembers, texts]
    cases spelled : textOfUnits key with
    | none => rfl
    | some name =>
      rw [Option.isSome_some, Bool.true_and, Option.bind_some, rowFrom_cons distinct slots spelled]
      cases keys.place decoders slots name tree with
      | none => simp
      | some next => exact ih next

end Keys

/-! ### Lists of values -/

theorem run_closeList {text rest : List Char} (skipped : skipBlank text = ']' :: rest) :
    closeList.run text = .ok ((), rest) := by
  rw [closeList, run_afterBlank, skipped]
  rfl

theorem skipBlank_of_closeList {text : List Char} {found : Found Unit text}
    (closed : closeList text = .ok found) : skipBlank text = ']' :: found.rest := by
  obtain ⟨found, inner, rfl⟩ := map_eq_ok_iff.mp closed
  rw [Found.rest_widen]
  clear closed
  generalize skipBlank text = given at found inner
  beta_reduce at inner
  split at inner
  · cases inner
  · cases inner
    rfl
  · split at inner <;> cases inner
  · cases inner

namespace Keys

variable {keys : Keys βs} {decoders : Decoders βs} {text : List Char}

theorem run_readRow_cons (expected : String) (key : Key β) (keys : Keys βs) (index : Nat)
    (text : List Char) :
    Reader.run ((cons key keys).readRow expected index) text =
      match nextElement (index == 0) text with
      | .error fault => .error fault
      | .ok (.close rest _) =>
        match key.absent with
        | none => .error (.here (.wrongLength index expected) rest)
        | some value =>
          (Reader.run (keys.readRow expected index) text).map
            (Prod.map (fun row => (value, row)) id)
      | .ok (.element rest) =>
        (key.read.run rest).bind fun (value, after) =>
          (Reader.run (keys.readRow expected (index + 1)) after).map
            (Prod.map (fun row => (value, row)) id) := by
  rw [Reader.run, readRow]
  cases nextElement (index == 0) text with
  | error fault => rfl
  | ok step =>
    cases step with
    | close rest shorter =>
      simp only [Reader.run]
      cases key.absent with
      | none => rfl
      | some value => cases keys.readRow expected index text <;> rfl
    | element rest =>
      simp only [Reader.run]
      cases key.read rest with
      | error fault => rfl
      | ok found =>
        simp only [Except.map, Except.bind]
        cases keys.readRow expected (index + 1) found.rest <;> rfl

theorem gives_readRow (reads : keys.Reads decoders) (expected : String) {index : Nat}
    {trees : List Tree} (listing : Listing (index == 0) trees text) (rest : List Char) :
    Gives rest (Reader.run (keys.readRow expected index) (text ++ rest))
      (keys.rowOfElements decoders trees) := by
  induction keys generalizing index trees text with
  | nil =>
    cases trees with
    | nil =>
      obtain ⟨shorter, next⟩ := listing.close rest
      obtain ⟨shorter, closed⟩ := eq_of_run (run_closeList (skipBlank_of_close next))
      rw [Reader.run, readRow, closed]
      exact .value ()
    | cons tree trees =>
      obtain ⟨element, others, le, -, -, next⟩ := listing.next rest
      refine .of_error ?_
      rw [Reader.run, readRow]
      cases closed : closeList (text ++ rest) with
      | error fault => exact ⟨fault, rfl⟩
      | ok found =>
        obtain ⟨shorter, close⟩ := nextElement_close (index == 0) (skipBlank_of_closeList closed)
        cases next.symm.trans close
  | cons key keys ih =>
    obtain ⟨decode, decoders⟩ := decoders
    obtain ⟨read, reads⟩ := reads
    rw [run_readRow_cons]
    cases trees with
    | nil =>
      obtain ⟨shorter, next⟩ := listing.close rest
      rw [next, rowOfElements]
      simp only
      cases key.absent with
      | none => exact .fault _
      | some value => exact (ih reads listing).map fun row => (value, row)
    | cons tree trees =>
      obtain ⟨element, others, le, spells, further, next⟩ := listing.next rest
      rw [next, rowOfElements]
      have delimited := Spells.delimited_elements further rest
      refine (read.gives _ spells (.of_delimited tree delimited)).bind fun value => ?_
      have further : Listing (index + 1 == 0) trees others := further
      exact (ih reads further).map fun row => (value, row)

theorem lists_of_readRow (reads : keys.Reads decoders) {expected : String} {index : Nat}
    {found : Found (Row βs) text} (read : keys.readRow expected index text = .ok found) :
    Lists (index == 0) text found.rest := by
  induction keys generalizing index text with
  | nil =>
    obtain ⟨found, closed, rfl⟩ := map_eq_ok_iff.mp read
    obtain ⟨shorter, close⟩ := nextElement_close (index == 0) (skipBlank_of_closeList closed)
    exact .close close
  | cons key keys ih =>
    obtain ⟨decode, decoders⟩ := decoders
    obtain ⟨reads', reads⟩ := reads
    rw [readRow] at read
    split at read
    next => cases read
    next rest shorter next =>
      split at read
      next => cases read
      next =>
        obtain ⟨found, row, rfl⟩ := map_eq_ok_iff.mp read
        exact ih reads row
    next rest le next =>
      split at read
      next => cases read
      next value after shorter element =>
        obtain ⟨found, row, rfl⟩ := map_eq_ok_iff.mp read
        obtain ⟨tree, begins⟩ := reads'.begins element
        have lists : Lists false after found.rest := ih reads row
        exact .next next begins lists

end Keys

/-! ### Records -/

/-- What an object is read as is what its members come to one after the other. -/
theorem Record.decode_object {record : Record α} {decoders : Decoders record.types}
    (distinct : record.keys.names.Nodup) (members : List (List Nat × Tree)) :
    record.decode decoders (.object members) =
      (foldMembers (record.keys.place decoders) record.keys.empty members).bind fun slots =>
        (record.keys.finish slots).toOption.map record.build := by
  have folded := Keys.fold_place distinct decoders record.keys.empty members
  rw [Keys.rowFrom_empty] at folded
  have mapped : record.decode decoders (.object members) =
      (if areTexts members then record.keys.rowOfMembers decoders members else none).map
        record.build := by
    rw [Record.decode]
    split <;> rfl
  rw [mapped, ← folded]
  cases foldMembers (record.keys.place decoders) record.keys.empty members <;> rfl

section

variable {record : Record α} {decoders : Decoders record.types} {text : List Char} (name : String)
  (reads : record.keys.Reads decoders)

include reads

theorem Record.gives_list {trees : List Tree} (listing : Listing true trees text)
    (rest : List Char) :
    Gives rest ((readRecord name (some record)).run ('[' :: (text ++ rest)))
      (record.decode decoders (.array trees)) := by
  have first : Listing (0 == 0) trees text := listing
  rw [run_readRecord_list]
  exact (Keys.gives_readRow reads _ first rest).map record.build

theorem Record.gives_object (distinct : record.keys.names.Nodup) (accepting : record.closed = false)
    {members : List (List Nat × Tree)} (spells : Spells (.value (.object members)) ('\x7b' :: text))
    (rest : List Char) :
    Gives rest ((readRecord name (some record)).run ('\x7b' :: (text ++ rest)))
      (record.decode decoders (.object members)) := by
  rw [run_readRecord_object, Record.decode_object distinct]
  refine (gives_readObject (record.places reads accepting) spells rest).bind fun slots => ?_
  simp only
  cases record.keys.finish slots with
  | error key => exact .fault _
  | ok row => exact .value _

end

namespace Reads

theorem record {record : Record α} {decoders : Decoders record.types} (name : String)
    (reads : record.keys.Reads decoders) (distinct : record.keys.names.Nodup)
    (accepting : record.closed = false) :
    Reads (readRecord name (some record)) (record.decode decoders) := by
  refine afterBlank ?_ ?_
  · intro tree c text rest spells opens ends
    generalize whole : c :: (text ++ rest) = given
    rw [Reader.run]
    split
    next =>
      obtain ⟨rfl, rfl⟩ := List.cons.inj whole
      obtain ⟨trees, rfl⟩ := opens.of_bracket
      have gives := record.gives_list name reads spells rest
      rw [readRecord, run_afterBlank, skipBlank_cons _ rfl] at gives
      exact gives
    next =>
      obtain ⟨rfl, rfl⟩ := List.cons.inj whole
      obtain ⟨members, rfl⟩ := opens.of_brace
      have gives := record.gives_object name reads distinct accepting spells rest
      rw [readRecord, run_afterBlank, skipBlank_cons _ rfl] at gives
      exact gives
    next noBracket noBrace =>
      have refused : record.decode decoders tree = none := by
        cases tree with
        | array trees => exact absurd (whole.symm.trans (congrArg (· :: _) opens)) (noBracket _)
        | object members => exact absurd (whole.symm.trans (congrArg (· :: _) opens)) (noBrace _)
        | _ => rfl
      rw [refused]
      exact .fault _
  · intro text found read
    split at read
    next rest =>
      obtain ⟨found, row, rfl⟩ := map_eq_ok_iff.mp read
      exact Keys.lists_of_readRow reads row
    next rest =>
      simp only at read
      split at read
      next => cases read
      next members =>
        split at read
        next => cases read
        next =>
          cases read
          exact begins_of_readObject (record.places reads accepting) members
    next => cases read

/-- Where no list or object may open, no record is read. -/
theorem record_none (name : String) :
    Reads (readRecord name (none : Option (Record α))) fun _ => none := by
  refine afterBlank ?_ ?_
  · intro tree c text rest spells opens ends
    generalize c :: (text ++ rest) = given
    refine .of_error ?_
    rw [Reader.run]
    split <;> exact ⟨_, rfl⟩
  · intro text found read
    split at read <;> cases read

end Reads

end DeployGate.Json
