import DeployGate.Proofs.Plan.Cells

/-!
# Nesting of plans

How many lists and objects are open at the innermost place of what is decoded of a document, and how
many when this is written again. A list that was left out is written as an empty one, so that a plan
can be written one level deeper than it was read, and no more.
-/

namespace DeployGate.Plan

open Json (Datum Members Row Tree Value textOfUnits valuesOf)

/-! ### What is written -/

def Kind.toJson : (kind : Kind) → kind.Result → Value
  | response => Response.toJson
  | job => JobDiff.toJson
  | group => TaskGroupDiff.toJson
  | task => TaskDiff.toJson
  | object => ObjectDiff.toJson
  | field => FieldDiff.toJson

theorem word_lower (value : UInt64) : -0x8000000000000000 ≤ (value.toNat : Int) := by omega

theorem word_upper (value : UInt64) : (value.toNat : Int) < 0x10000000000000000 := by
  have := value.toNat_lt
  omega

def Part.toJson : (part : Part) → part.Result → Value
  | node kind => kind.toJson
  | type => DiffType.toJson
  | name | text => .string
  | texts => textsToJson
  | nodes kind => fun results => .array (results.map kind.toJson)
  | diff => fun found => found.elim .null JobDiff.toJson
  | index => fun value => .number (.integer value.toNat (word_lower value) (word_upper value))
  | unplaced => fun found => found.elim .null fun members => .object members.entries

def Parts.toJson : (parts : Parts) → Row parts.types → List (String × Value)
  | [], _ => []
  | (name, part) :: parts, (value, row) => (name, part.toJson value) :: Parts.toJson parts row

/-- A record is written as the object of its parts. -/
theorem Kind.toJson_eq (kind : Kind) (result : kind.Result) :
    kind.toJson result = .object (kind.parts.toJson (kind.row result)) := by
  cases kind with
  | response =>
    obtain ⟨diff, index, warnings, unplaced⟩ := result
    cases diff <;> cases unplaced <;> rfl
  | field => rfl
  | object =>
    obtain ⟨type, name, fields, objects⟩ := result
    change ObjectDiff.toJson _ = _
    rw [ObjectDiff.toJson, objectsToJson_eq_map]
    rfl
  | task =>
    change TaskDiff.toJson _ = _
    rw [TaskDiff.toJson, objectsToJson_eq_map]
    rfl
  | group =>
    change TaskGroupDiff.toJson _ = _
    rw [TaskGroupDiff.toJson, objectsToJson_eq_map]
    rfl
  | job =>
    change JobDiff.toJson _ = _
    rw [JobDiff.toJson, objectsToJson_eq_map]
    rfl

theorem Parts.cell_of_mem_toJson {parts : Parts} {row : Row parts.types} {name : String}
    {value : Value} (inside : (name, value) ∈ parts.toJson row) :
    ∃ part found, parts.Cell row name part found ∧ value = part.toJson found := by
  induction parts with
  | nil => cases inside
  | cons entry parts ih =>
    obtain ⟨other, part⟩ := entry
    obtain ⟨first, row⟩ := row
    rcases List.mem_cons.mp inside with same | inside
    · cases same
      exact ⟨part, first, .first first row, rfl⟩
    · obtain ⟨part', found, cell, same⟩ := ih inside
      exact ⟨part', found, .later first cell, same⟩

/-! ### Nesting -/

/-- What an element of a list is read as, if the list is read as the part. -/
def Part.inArray (position : Nat) : Part → Option Part
  | node kind => kind.parts[position]?.map Prod.snd
  | nodes kind => some (node kind)
  | texts => some name
  | diff => Kind.job.parts[position]?.map Prod.snd
  | unplaced => some unplaced
  | _ => none

/-- What the value of a member is read as, if the object is read as the part. -/
def Part.inObject (name : String) : Part → Option Part
  | node kind => kind.parts.lookup name
  | diff => Kind.job.parts.lookup name
  | unplaced => some unplaced
  | _ => none

mutual

/-- How many lists and objects are open at the innermost place of the tree. What is not decoded,
such as the value of an undeclared key, does not count. -/
def Part.nesting (part : Part) : Tree → Nat
  | .array elements => nestingElements part 0 elements + 1
  | .object members => nestingMembers part members + 1
  | _ => 0

def nestingElements (part : Part) (position : Nat) : List Tree → Nat
  | [] => 0
  | element :: elements =>
    max (match part.inArray position with
      | some inner => inner.nesting element
      | none => 0) (nestingElements part (position + 1) elements)

def nestingMembers (part : Part) : List (List Nat × Tree) → Nat
  | [] => 0
  | (key, value) :: members =>
    max (match (textOfUnits key).bind fun name => part.inObject name with
      | some inner => inner.nesting value
      | none => 0) (nestingMembers part members)

end

variable {part inner : Part} {kind : Kind} {limit : Nat}

theorem nestingElements_le_iff {start : Nat} {elements : List Tree} :
    nestingElements part start elements ≤ limit ↔
      ∀ position tree inner, elements[position]? = some tree →
        part.inArray (start + position) = some inner → inner.nesting tree ≤ limit := by
  induction elements generalizing start with
  | nil => simp [nestingElements]
  | cons element elements ih =>
    rw [nestingElements, Nat.max_le, ih]
    constructor
    · rintro ⟨first, others⟩ position tree inner found read
      cases position with
      | zero =>
        cases found
        rw [Nat.add_zero] at read
        simpa only [read] using first
      | succ position =>
        exact others position tree inner found (by rwa [Nat.add_right_comm])
    · intro every
      refine ⟨?_, fun position tree inner found read => ?_⟩
      · cases read : part.inArray start with
        | none => exact Nat.zero_le limit
        | some inner => exact every 0 element inner rfl read
      · exact every (position + 1) tree inner found (by rwa [Nat.add_right_comm] at read)

theorem nestingMembers_le_iff {members : List (List Nat × Tree)} :
    nestingMembers part members ≤ limit ↔
      ∀ key tree name inner, (key, tree) ∈ members → textOfUnits key = some name →
        part.inObject name = some inner → inner.nesting tree ≤ limit := by
  induction members with
  | nil => simp [nestingMembers]
  | cons member members ih =>
    obtain ⟨key, value⟩ := member
    rw [nestingMembers, Nat.max_le, ih]
    constructor
    · rintro ⟨first, others⟩ key' tree name inner inside spelled read
      rcases List.mem_cons.mp inside with same | inside
      · cases same
        simpa only [spelled, Option.bind_some, read] using first
      · exact others key' tree name inner inside spelled read
    · intro every
      refine ⟨?_, fun key tree name inner inside =>
        every key tree name inner (List.mem_cons_of_mem _ inside)⟩
      cases read : (textOfUnits key).bind fun name => part.inObject name with
      | none => exact Nat.zero_le limit
      | some inner =>
        obtain ⟨name, spelled, read⟩ := Option.bind_eq_some_iff.mp read
        exact every key value name inner List.mem_cons_self spelled read

theorem nesting_array_le_iff {elements : List Tree} :
    part.nesting (.array elements) ≤ limit + 1 ↔
      ∀ position tree inner, elements[position]? = some tree →
        part.inArray position = some inner → inner.nesting tree ≤ limit := by
  rw [Part.nesting, Nat.add_le_add_iff_right, nestingElements_le_iff]
  simp only [Nat.zero_add]

/-- In a list whose elements are all read as the same part. -/
theorem nesting_list_le_iff {elements : List Tree}
    (same : ∀ position, part.inArray position = some inner) :
    part.nesting (.array elements) ≤ limit + 1 ↔ ∀ tree ∈ elements, inner.nesting tree ≤ limit := by
  rw [nesting_array_le_iff]
  constructor
  · intro every tree inside
    obtain ⟨position, found⟩ := List.getElem?_of_mem inside
    exact every position tree inner found (same position)
  · intro every position tree other found read
    cases (same position).symm.trans read
    exact every tree (List.mem_of_getElem? found)

theorem nesting_object_le_iff {members : List (List Nat × Tree)} :
    part.nesting (.object members) ≤ limit + 1 ↔
      ∀ key tree name inner, (key, tree) ∈ members → textOfUnits key = some name →
        part.inObject name = some inner → inner.nesting tree ≤ limit := by
  rw [Part.nesting, Nat.add_le_add_iff_right, nestingMembers_le_iff]

theorem Parts.lookup_eq_some_iff {parts : Parts} (distinct : (parts.map Prod.fst).Nodup)
    {name : String} : parts.lookup name = some part ↔ (name, part) ∈ parts := by
  induction parts with
  | nil => simp
  | cons entry parts ih =>
    obtain ⟨other, first⟩ := entry
    rw [List.map_cons, List.nodup_cons] at distinct
    rw [List.lookup_cons, List.mem_cons, ← ih distinct.2]
    by_cases same : name = other
    · subst same
      have none : List.lookup name parts ≠ some part := by
        intro found
        exact distinct.1 (List.mem_map.mpr ⟨_, (ih distinct.2).mp found, rfl⟩)
      simp [none, eq_comm]
    · simp [beq_eq_false_iff_ne.mpr same, same]

/-- The nesting of a record is that of its values. -/
theorem nesting_record_le_iff {depth : Nat} {tree : Tree} {result : kind.Result}
    (decoded : kind.Decoded depth tree result) :
    (Part.node kind).nesting tree ≤ limit + 1 ↔
      ∀ index name part, kind.parts[index]? = some (name, part) →
        ∀ value ∈ given name index tree, part.nesting value ≤ limit := by
  cases decoded with
  | object =>
    rw [nesting_object_le_iff]
    simp only [given, Json.mem_valuesOf, Part.inObject, Parts.lookup_eq_some_iff kind.names_nodup]
    constructor
    · rintro every index name part declared value ⟨key, inside, spelled⟩
      exact every key value name part inside spelled (List.mem_of_getElem? declared)
    · intro every key value name part inside spelled declared
      obtain ⟨index, declared⟩ := List.getElem?_of_mem declared
      exact every index name part declared value ⟨key, inside, spelled⟩
  | array =>
    rw [nesting_array_le_iff]
    simp only [given, Part.inArray, Option.mem_toList]
    constructor
    · intro every index name part declared value found
      exact every index value part found (by rw [declared]; rfl)
    · intro every index value part found read
      obtain ⟨⟨name, part⟩, declared, rfl⟩ := Option.map_eq_some_iff.mp read
      exact every index name part declared value found

/-! ### Types -/

def Kind.diffTypes : (kind : Kind) → kind.Result → List DiffType
  | response => Response.types
  | job => JobDiff.types
  | group => TaskGroupDiff.types
  | task => TaskDiff.types
  | object => ObjectDiff.types
  | field => fun result => [result.type]

def Part.diffTypes : (part : Part) → part.Result → List DiffType
  | node kind => kind.diffTypes
  | type => fun value => [value]
  | nodes kind => fun results => results.flatMap kind.diffTypes
  | diff => fun found => found.toList.flatMap JobDiff.types
  | _ => fun _ => []

def Parts.diffTypes : (parts : Parts) → Row parts.types → List DiffType
  | [], _ => []
  | (_, part) :: parts, (value, row) => part.diffTypes value ++ Parts.diffTypes parts row

theorem Kind.diffTypes_eq (kind : Kind) (result : kind.Result) :
    kind.diffTypes result = kind.parts.diffTypes (kind.row result) := by
  have fieldTypes (fields : List FieldDiff) :
      fields.map (·.type) = fields.flatMap (Kind.diffTypes field) := List.map_eq_flatMap
  cases kind with
  | response => exact (List.append_nil _).symm
  | field => rfl
  | object =>
    obtain ⟨type, name, fields, objects⟩ := result
    change ObjectDiff.types _ = _
    rw [ObjectDiff.types, fieldTypes, ObjectDiff.typesAll_eq_flatMap]
    simp [Parts.diffTypes, parts, row, Part.diffTypes, diffTypes]
  | task =>
    change TaskDiff.types _ = _
    rw [TaskDiff.types, fieldTypes]
    simp [Parts.diffTypes, parts, row, Part.diffTypes, diffTypes]
  | group =>
    change TaskGroupDiff.types _ = _
    rw [TaskGroupDiff.types, fieldTypes]
    simp [Parts.diffTypes, parts, row, Part.diffTypes, diffTypes]
  | job =>
    change JobDiff.types _ = _
    rw [JobDiff.types, fieldTypes]
    simp [Parts.diffTypes, parts, row, Part.diffTypes, diffTypes]

theorem Parts.cell_of_mem_diffTypes {parts : Parts} {row : Row parts.types} {type : DiffType}
    (inside : type ∈ parts.diffTypes row) :
    ∃ name part found, parts.Cell row name part found ∧ type ∈ part.diffTypes found := by
  induction parts with
  | nil => cases inside
  | cons entry parts ih =>
    obtain ⟨name, part⟩ := entry
    obtain ⟨first, row⟩ := row
    rcases List.mem_append.mp inside with here | inside
    · exact ⟨name, part, first, .first first row, here⟩
    · obtain ⟨name', part', found, cell, here⟩ := ih inside
      exact ⟨name', part', found, .later first cell, here⟩

/-! ### Untyped values -/

/-- An untyped value is written as deep as it is read. -/
theorem datum_nesting {depth : Nat} {tree : Tree} {datum : Datum}
    (read : Json.decodeDatum depth tree = some datum) :
    Part.unplaced.nesting tree ≤ depth ∧ datum.val.depth ≤ Part.unplaced.nesting tree := by
  induction depth using Nat.strongRecOn generalizing tree datum with
  | ind depth ih =>
    rw [Json.decodeDatum_eq] at read
    -- what is written is compared with how deep the tree is, and this with what was allowed
    cases tree with
    | null | bool =>
      cases read
      exact ⟨Nat.zero_le depth, Nat.le_refl 0⟩
    | number literal | string units =>
      obtain ⟨value, -, rfl⟩ := Option.map_eq_some_iff.mp read
      exact ⟨Nat.zero_le depth, Nat.le_refl 0⟩
    | array elements =>
      obtain ⟨data, found, rfl⟩ := Option.map_eq_some_iff.mp read
      obtain ⟨_, decode, ⟨⟩, given, found⟩ := Json.decodeList_eq_some_iff.mp found
      obtain ⟨depth, rfl, rfl⟩ := Json.within_eq_some_iff.mp given
      have listed (limit : Nat) : Part.unplaced.nesting (.array elements) ≤ limit + 1 ↔
          ∀ tree ∈ elements, Part.unplaced.nesting tree ≤ limit :=
        nesting_list_le_iff fun _ => rfl
      obtain ⟨limit, deepest⟩ : ∃ limit, Part.unplaced.nesting (.array elements) = limit + 1 :=
        ⟨_, rfl⟩
      refine ⟨(listed depth).mpr fun tree inside => ?_, ?_⟩
      · obtain ⟨datum, read⟩ := Json.value_of_mem found tree inside
        exact (ih depth (Nat.lt_succ_self depth) read).1
      · rw [deepest, Datum.array, Value.depth_array_le, Value.depthElements_le_iff,
          List.forall_mem_map]
        intro datum inside
        obtain ⟨tree, inside, read⟩ := Json.tree_of_mem found datum inside
        exact Nat.le_trans (ih depth (Nat.lt_succ_self depth) read).2
          ((listed limit).mp (Nat.le_of_eq deepest) tree inside)
    | object members =>
      obtain ⟨members', found, rfl⟩ := Option.map_eq_some_iff.mp read
      obtain ⟨_, decode, ⟨⟩, given, found⟩ := Json.decodeMembersOf_eq_some_iff.mp found
      obtain ⟨depth, rfl, rfl⟩ := Json.within_eq_some_iff.mp given
      obtain ⟨every, origin⟩ := Json.foldMembers_placeMember found
      obtain ⟨limit, deepest⟩ : ∃ limit, Part.unplaced.nesting (.object members) = limit + 1 :=
        ⟨_, rfl⟩
      refine ⟨nesting_object_le_iff.mpr fun key tree name inner inside _ same => ?_, ?_⟩
      · cases same
        obtain ⟨datum, read⟩ := every key tree inside
        exact (ih depth (Nat.lt_succ_self depth) read).1
      · rw [deepest, Members.toDatum, Value.depth_object_le, Value.depthMembers_le_iff]
        intro entry inside
        rcases origin entry inside with none | ⟨key, tree, name, datum, inside, spelled, read, same⟩
        · cases none
        · rw [same]
          exact Nat.le_trans (ih depth (Nat.lt_succ_self depth) read).2
            (nesting_object_le_iff.mp (Nat.le_of_eq deepest) key tree name _ inside spelled rfl)

/-! ### What is decoded -/

/-- What a part is read as is not nested more deeply than was allowed, is written at most one level
deeper than it was read, and has its types in normal form. -/
structure Part.Sound (part : Part) (depth : Nat) (tree : Tree) (value : part.Result) : Prop where
  nesting : part.nesting tree ≤ depth
  depth : (part.toJson value).depth ≤ part.nesting tree + 1
  canonical : ∀ type ∈ part.diffTypes value, type.norm = type

theorem nesting_of_decodeText {tree : Tree} {text : String}
    (read : Json.decodeText tree = some text) (part : Part) : part.nesting tree = 0 := by
  cases tree with
  | string units => rfl
  | _ => cases read

theorem nesting_diff (tree : Tree) : Part.diff.nesting tree = (Part.node .job).nesting tree := by
  have elements (trees : List Tree) (start : Nat) :
      nestingElements .diff start trees = nestingElements (.node .job) start trees := by
    induction trees generalizing start with
    | nil => rfl
    | cons tree trees ih => exact congrArg (max _) (ih (start + 1))
  have members (members : List (List Nat × Tree)) :
      nestingMembers .diff members = nestingMembers (.node .job) members := by
    induction members with
    | nil => rfl
    | cons member members ih => exact congrArg (max _) ih
  cases tree <;> simp only [Part.nesting, elements, members]

section

variable {depth : Nat} {tree : Tree}

theorem sound_texts {values : List String} (found : Part.texts.decode depth tree = some values) :
    Part.texts.Sound depth tree values := by
  rw [Part.decode_texts, orElse_eq_some_iff] at found
  rcases found with ⟨rfl, rfl⟩ | ⟨-, found⟩
  · exact ⟨Nat.zero_le depth, Nat.le_refl 1, by simp [Part.diffTypes]⟩
  · obtain ⟨elements, decode, rfl, given, found⟩ := Json.decodeList_eq_some_iff.mp found
    obtain ⟨depth, rfl, rfl⟩ := Json.within_eq_some_iff.mp given
    refine ⟨?_, ?_, by simp [Part.diffTypes]⟩
    · refine (nesting_list_le_iff fun _ => rfl).mpr fun tree inside => ?_
      obtain ⟨text, read⟩ := Json.value_of_mem found tree inside
      rw [nesting_of_decodeText read]
      exact Nat.zero_le depth
    · change (Value.array _).depth ≤ _
      rw [Value.depth_array_le, Value.depthElements_le_iff, List.forall_mem_map]
      exact fun text _ => Nat.zero_le _

theorem sound_nodes {results : List kind.Result}
    (item : ∀ inner < depth, ∀ tree result, kind.decode inner tree = some result →
      (Part.node kind).Sound inner tree result)
    (found : (Part.nodes kind).decode depth tree = some results) :
    (Part.nodes kind).Sound depth tree results := by
  rw [Part.decode_nodes, orElse_eq_some_iff] at found
  rcases found with ⟨rfl, rfl⟩ | ⟨-, found⟩
  -- `null` opens nothing, and the empty list that is written for it opens one level
  · exact ⟨Nat.zero_le depth, Nat.le_refl 1, by simp [Part.diffTypes]⟩
  · obtain ⟨elements, decode, rfl, given, found⟩ := Json.decodeList_eq_some_iff.mp found
    obtain ⟨depth, rfl, rfl⟩ := Json.within_eq_some_iff.mp given
    have sound := item depth (Nat.lt_succ_self depth)
    have listed (limit : Nat) : (Part.nodes kind).nesting (.array elements) ≤ limit + 1 ↔
        ∀ tree ∈ elements, (Part.node kind).nesting tree ≤ limit :=
      nesting_list_le_iff fun _ => rfl
    obtain ⟨limit, deepest⟩ : ∃ limit, (Part.nodes kind).nesting (.array elements) = limit + 1 :=
      ⟨_, rfl⟩
    refine ⟨(listed depth).mpr fun tree inside => ?_, ?_, ?_⟩
    · obtain ⟨result, read⟩ := Json.value_of_mem found tree inside
      exact (sound tree result read).nesting
    · change (Value.array _).depth ≤ _
      rw [deepest, Value.depth_array_le, Value.depthElements_le_iff, List.forall_mem_map]
      intro result inside
      obtain ⟨tree, inside, read⟩ := Json.tree_of_mem found result inside
      have shallow := (listed limit).mp (Nat.le_of_eq deepest) tree inside
      exact Nat.le_trans (sound tree result read).depth (Nat.add_le_add_right shallow 1)
    · intro type inside
      obtain ⟨result, inside, of⟩ := List.mem_flatMap.mp inside
      obtain ⟨tree, -, read⟩ := Json.tree_of_mem found result inside
      exact (sound tree result read).canonical type of

theorem sound_unplaced {value : Option Members}
    (found : Part.unplaced.decode depth tree = some value) :
    Part.unplaced.Sound depth tree value := by
  change Json.decodeNullable (Json.decodeMembersOf (Json.within Json.decodeDatum depth)) tree = _
    at found
  rcases Json.decodeNullable_eq_some_iff.mp found with ⟨rfl, rfl⟩ | ⟨-, members, read, rfl⟩
  · exact ⟨Nat.zero_le depth, Nat.zero_le _, by simp [Part.diffTypes]⟩
  · obtain ⟨given, decode, rfl, -, -⟩ := Json.decodeMembersOf_eq_some_iff.mp read
    have datum : Json.decodeDatum depth (.object given) = some members.toDatum := by
      rw [Json.decodeDatum_eq, Json.decodeDatumWithin, read]
      rfl
    obtain ⟨shallow, written⟩ := datum_nesting datum
    exact ⟨shallow, Nat.le_succ_of_le written, by simp [Part.diffTypes]⟩

/-- A part is read soundly if the records in it are. -/
theorem Part.sound_of
    (node : ∀ kind tree result, Kind.decode depth kind tree = some result →
      (Part.node kind).Sound depth tree result)
    (item : ∀ kind, ∀ inner < depth, ∀ tree result, Kind.decode inner kind tree = some result →
      (Part.node kind).Sound inner tree result)
    {value : part.Result} (found : part.decode depth tree = some value) :
    part.Sound depth tree value := by
  cases part with
  | node kind => exact node kind tree value found
  | type =>
    obtain ⟨text, read, rfl⟩ := Option.map_eq_some_iff.mp found
    have flat := nesting_of_decodeText read .type
    refine ⟨flat ▸ Nat.zero_le depth, Nat.zero_le _, ?_⟩
    simpa [diffTypes] using DiffType.norm_ofString text
  | name =>
    have flat := nesting_of_decodeText found .name
    exact ⟨flat ▸ Nat.zero_le depth, Nat.zero_le _, by simp [diffTypes]⟩
  | text =>
    rw [decode_text, orElse_eq_some_iff] at found
    have flat : Part.text.nesting tree = 0 := by
      rcases found with ⟨rfl, -⟩ | ⟨-, read⟩
      · rfl
      · exact nesting_of_decodeText read .text
    exact ⟨flat ▸ Nat.zero_le depth, Nat.zero_le _, by simp [diffTypes]⟩
  | texts => exact sound_texts found
  | nodes kind => exact sound_nodes (item kind) found
  | diff =>
    rcases Json.decodeNullable_eq_some_iff.mp found with ⟨rfl, rfl⟩ | ⟨-, job, read, rfl⟩
    · exact ⟨Nat.zero_le depth, Nat.zero_le _, by simp [diffTypes]⟩
    · obtain ⟨shallow, written, canonical⟩ := node .job tree job read
      rw [← nesting_diff] at shallow written
      exact ⟨shallow, written, by simpa [diffTypes, Kind.diffTypes] using canonical⟩
  | index =>
    have flat : Part.index.nesting tree = 0 := by
      cases tree with
      | number literal => rfl
      | _ => cases found
    exact ⟨flat ▸ Nat.zero_le depth, Nat.zero_le _, by simp [diffTypes]⟩
  | unplaced => exact sound_unplaced found

end

theorem Part.absent_flat {part : Part} {value : part.Result} (absent : part.absent = some value) :
    (part.toJson value).depth ≤ 1 ∧ part.diffTypes value = [] := by
  cases part with
  | node | type | name => cases absent
  | _ =>
    cases absent
    exact ⟨by simp [toJson, textsToJson, Value.depth, Value.depthElements], rfl⟩

section

variable {depth : Nat} {tree : Tree} {result : kind.Result}
  (below : ∀ inner < depth, ∀ (part : Part) tree value,
    part.decode inner tree = some value → part.Sound inner tree value)
  (decoded : kind.decode depth tree = some result)

include below decoded

/-- What a record has is empty or was read soundly from one of its values. -/
theorem Kind.sound_cell {name : String} {part : Part} {value : part.Result}
    (cell : kind.Cell result name part value) :
    part.absent = some value ∨ ∃ index, kind.parts[index]? = some (name, part) ∧
      ∃ tree' ∈ given name index tree, ∃ inner < depth, part.Sound inner tree' value := by
  obtain ⟨index, declared, inner, lt, found⟩ := Kind.given_of_cell decoded cell
  rcases Part.cell_eq_some_iff.mp found with ⟨-, absent⟩ | ⟨tree', one, read⟩
  · exact .inl absent
  · exact .inr ⟨index, declared, tree', by simp [one], inner, lt, below inner lt part _ _ read⟩

theorem Kind.nesting_le : (Part.node kind).nesting tree ≤ depth := by
  have made := Kind.decode_eq_some_iff.mp decoded
  obtain ⟨before, rfl⟩ : ∃ before, depth = before + 1 := by cases made <;> exact ⟨_, rfl⟩
  refine (nesting_record_le_iff made).mpr fun index name part declared tree' inside => ?_
  obtain ⟨inner, lt, value, found, -⟩ := Kind.cell_of_decode decoded declared
  rcases Part.cell_eq_some_iff.mp found with ⟨none, -⟩ | ⟨tree'', one, read⟩
  · rw [none] at inside
    cases inside
  · rw [one, List.mem_singleton] at inside
    subst inside
    exact Nat.le_trans (below inner lt part _ _ read).nesting (Nat.le_of_lt_succ lt)

theorem Kind.depth_toJson_le :
    (kind.toJson result).depth ≤ (Part.node kind).nesting tree + 1 := by
  have made := Kind.decode_eq_some_iff.mp decoded
  obtain ⟨limit, deepest⟩ : ∃ limit, (Part.node kind).nesting tree = limit + 1 := by
    cases made <;> exact ⟨_, rfl⟩
  have within := (nesting_record_le_iff made).mp (Nat.le_of_eq deepest)
  rw [deepest, kind.toJson_eq, Value.depth_object_le, Value.depthMembers_le_iff]
  rintro ⟨name, value⟩ inside
  obtain ⟨part, found, cell, rfl⟩ := Parts.cell_of_mem_toJson inside
  rcases Kind.sound_cell below decoded cell with
    absent | ⟨index, declared, tree', inside, _, _, sound⟩
  · exact Nat.le_trans (Part.absent_flat absent).1 (Nat.le_add_left 1 limit)
  · have shallow := within index name part declared tree' inside
    exact Nat.le_trans sound.depth (Nat.add_le_add_right shallow 1)

theorem Kind.diffTypes_norm {type : DiffType} (inside : type ∈ kind.diffTypes result) :
    type.norm = type := by
  rw [kind.diffTypes_eq] at inside
  obtain ⟨name, part, found, cell, inside⟩ := Parts.cell_of_mem_diffTypes inside
  rcases Kind.sound_cell below decoded cell with absent | ⟨_, _, _, _, _, _, sound⟩
  · rw [(Part.absent_flat absent).2] at inside
    cases inside
  · exact sound.canonical type inside

end

/-- Every record is read soundly. -/
theorem Kind.sound {depth : Nat} {tree : Tree} {kind : Kind} {result : kind.Result}
    (decoded : kind.decode depth tree = some result) :
    (Part.node kind).Sound depth tree result := by
  -- the record of a key is read one level further in, an element of a list two levels
  induction depth using Nat.strongRecOn generalizing kind tree with
  | ind depth ih =>
    have below (inner : Nat) (lt : inner < depth) (part : Part) (tree : Tree) (value : part.Result)
        (found : part.decode inner tree = some value) : part.Sound inner tree value :=
      Part.sound_of (fun kind tree result => ih inner lt)
        (fun kind inner' lt' tree result => ih inner' (Nat.lt_trans lt' lt)) found
    exact {
      nesting := Kind.nesting_le below decoded
      depth := Kind.depth_toJson_le below decoded
      canonical := fun _ => Kind.diffTypes_norm below decoded }

end DeployGate.Plan
