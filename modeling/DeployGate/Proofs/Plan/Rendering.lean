import DeployGate.Proofs.Json.Rendering
import DeployGate.Proofs.Plan.Nesting

/-!
# Renderings of plans

A record can be written as an object with its declared keys or as a list of its values in their
order, and each record inside it in either way again. What is empty may be left out, at any place of
an object and at the end of a list. All these trees are read as the same plan.

## Main result

`ofJson_rendered`: every document that spells a rendering is decoded as what was rendered, up to the
limit of the depth.
-/

namespace DeployGate.Plan

open Json (Members Row Spelled Spells Tree Value unitsOfText valuesOf)

/-- A value that stands under a declared key. -/
structure Entry where
  name : String
  part : Part
  value : part.Result

def Parts.entries : (parts : Parts) → Row parts.types → List Entry
  | [], _ => []
  | (name, part) :: parts, (value, row) => ⟨name, part, value⟩ :: Parts.entries parts row

/-- What a record has, in the order of its keys. -/
def Kind.entries (kind : Kind) (result : kind.Result) : List Entry :=
  kind.parts.entries (kind.row result)

/-- The outside of a record: an object whose keys are declared ones, in any order and none twice, or
a list that is not longer than the keys are. -/
inductive Kind.Laid (kind : Kind) : Tree → Prop
  | object {names : List String} {members : List (List Nat × Tree)} :
    members.map Prod.fst = names.map unitsOfText → names.Nodup →
    (∀ name ∈ names, name ∈ kind.parts.map Prod.fst) → kind.Laid (.object members)
  | array {elements : List Tree} : elements.length ≤ kind.parts.length →
    kind.Laid (.array elements)

/-- The tree says that the part has the value. Each record in it is laid out in its own way, and
gives a rendering of each of its values or, if this is empty, may leave it out. -/
inductive Part.RenderedAs : (part : Part) → part.Result → Tree → Prop
  | node {kind : Kind} {result : kind.Result} {tree : Tree} : kind.Laid tree →
    (∀ (index : Nat) entry, (kind.entries result)[index]? = some entry →
      ∀ tree' ∈ given entry.name index tree, RenderedAs entry.part entry.value tree') →
    (∀ (index : Nat) entry, (kind.entries result)[index]? = some entry →
      given entry.name index tree = [] → entry.part.absent = some entry.value) →
      RenderedAs (.node kind) result tree
  -- What may be left out may also be `null`, but for the index.
  | null {part : Part} {value : part.Result} : part ≠ .index → part.absent = some value →
    RenderedAs part value .null
  | type (type : DiffType) : RenderedAs .type type (.string (unitsOfText type.toString))
  | name (name : String) : RenderedAs .name name (.string (unitsOfText name))
  | text (text : String) : RenderedAs .text text (.string (unitsOfText text))
  | texts (texts : List String) :
    RenderedAs .texts texts (.array (texts.map fun text => .string (unitsOfText text)))
  | nodes {kind : Kind} {results : List kind.Result} {trees : List Tree} :
    results.length = trees.length →
    (∀ (index : Nat) result tree, results[index]? = some result → trees[index]? = some tree →
      RenderedAs (.node kind) result tree) →
      RenderedAs (.nodes kind) results (.array trees)
  | diff {job : JobDiff} {tree : Tree} : RenderedAs (.node .job) job tree →
    RenderedAs .diff (some job) tree
  | index (value : UInt64) : RenderedAs .index value (.number (toString value.toNat).toList)
  | unplaced {members : Members} {tree : Tree} : (Value.object members.entries).RenderedAs tree →
    RenderedAs .unplaced (some members) tree

/-- A record gives a rendering of each of its values, or leaves it out where it is empty. -/
theorem Part.RenderedAs.of_entries {kind : Kind} {result : kind.Result} {tree : Tree}
    (laid : kind.Laid tree)
    (entries : ∀ (index : Nat) entry, (kind.entries result)[index]? = some entry →
      (given entry.name index tree = [] ∧ entry.part.absent = some entry.value) ∨
        ∃ tree', given entry.name index tree = [tree'] ∧
          entry.part.RenderedAs entry.value tree') :
    (Part.node kind).RenderedAs result tree := by
  refine .node laid (fun index entry held tree' inside => ?_) fun index entry held none => ?_
  · rcases entries index entry held with ⟨none, -⟩ | ⟨only, one, rendered⟩
    · rw [none] at inside
      cases inside
    · rw [one, List.mem_singleton] at inside
      exact inside ▸ rendered
  · rcases entries index entry held with ⟨-, absent⟩ | ⟨only, one, -⟩
    · exact absent
    · cases none.symm.trans one

/-! ### Records from their entries -/

namespace Parts

variable {depth : Nat} {parts : Parts} {row : Row parts.types}

theorem ofMembers_of_entries {members : List (List Nat × Tree)}
    (cells : ∀ entry ∈ parts.entries row,
      entry.part.cell depth (valuesOf entry.name members) = some entry.value) :
    parts.ofMembers depth members = some row := by
  induction parts with
  | nil => rfl
  | cons first parts ih =>
    obtain ⟨name, part⟩ := first
    obtain ⟨value, row⟩ := row
    obtain ⟨first, others⟩ := List.forall_mem_cons.mp cells
    rw [ofMembers_cons, first, ih others]
    rfl

theorem ofElements_of_entries {elements : List Tree} (le : elements.length ≤ parts.length)
    (cells : ∀ (index : Nat) entry, (parts.entries row)[index]? = some entry →
      entry.part.cell depth elements[index]?.toList = some entry.value) :
    parts.ofElements depth elements = some row := by
  induction parts generalizing elements with
  | nil =>
    obtain rfl : elements = [] := List.length_eq_zero_iff.mp (Nat.le_zero.mp le)
    rfl
  | cons first parts ih =>
    obtain ⟨name, part⟩ := first
    obtain ⟨value, row⟩ := row
    have first := cells 0 ⟨name, part, value⟩ rfl
    have others : Parts.ofElements depth parts elements.tail = some row := by
      refine ih (by rw [List.length_tail]; exact Nat.sub_le_of_le_add le) fun index entry held => ?_
      rw [List.getElem?_tail]
      exact cells (index + 1) entry held
    rw [ofElements_step, first, others]
    rfl

/-- The types in a value are among those of the row. -/
theorem diffTypes_of_entry {entry : Entry} (held : entry ∈ parts.entries row) {type : DiffType}
    (inside : type ∈ entry.part.diffTypes entry.value) : type ∈ parts.diffTypes row := by
  induction parts with
  | nil => cases held
  | cons first parts ih =>
    obtain ⟨name, part⟩ := first
    obtain ⟨value, row⟩ := row
    rcases List.mem_cons.mp held with rfl | held
    · exact List.mem_append_left _ inside
    · exact List.mem_append_right _ (ih held)

end Parts

/-! ### Laid out records -/

theorem key_of_mem {names : List String} {members : List (List Nat × Tree)}
    (keys : members.map Prod.fst = names.map unitsOfText) {key : List Nat} {tree : Tree}
    (inside : (key, tree) ∈ members) : ∃ name ∈ names, key = unitsOfText name := by
  have key := List.mem_map_of_mem (f := Prod.fst) inside
  rw [keys] at key
  obtain ⟨name, declared, same⟩ := List.mem_map.mp key
  exact ⟨name, declared, same.symm⟩

theorem keysOf_of_names {names : List String} {members : List (List Nat × Tree)}
    (keys : members.map Prod.fst = names.map unitsOfText) :
    Json.keysOf members = names.map some := by
  have texts := congrArg (List.map Json.textOfUnits) keys
  simpa [Json.keysOf, Function.comp_def, Json.textOfUnits_unitsOfText] using texts

namespace Kind

theorem build_row (kind : Kind) (result : kind.Result) : kind.build (kind.row result) = result := by
  cases kind <;> cases result <;> rfl

theorem diffTypes_of_entry (kind : Kind) {result : kind.Result} {entry : Entry}
    (held : entry ∈ kind.entries result) {type : DiffType}
    (inside : type ∈ entry.part.diffTypes entry.value) : type ∈ kind.diffTypes result := by
  rw [kind.diffTypes_eq]
  exact Parts.diffTypes_of_entry held inside

namespace Laid

variable {kind : Kind} {tree : Tree} (laid : kind.Laid tree)

include laid

/-- A laid out record gives no key more than once. -/
theorem given_cases (name : String) (index : Nat) :
    given name index tree = [] ∨ ∃ value, given name index tree = [value] := by
  cases laid with
  | object keys distinct _ =>
    refine Json.valuesOf_of_nodup ?_ name
    rw [keysOf_of_names keys]
    exact List.Pairwise.map some (fun _ _ differ => by simpa using differ) distinct
  | @array elements =>
    rw [given]
    cases elements[index]? with
    | none => exact .inl rfl
    | some value => exact .inr ⟨value, rfl⟩

/-- What a record gives stands one level further in. -/
theorem depth_given_le {limit : Nat} (shallow : tree.depth ≤ limit) :
    ∃ inner, limit = inner + 1 ∧
      ∀ name index, ∀ value ∈ given name index tree, value.depth ≤ inner := by
  cases laid with
  | object =>
    obtain ⟨inner, rfl, below⟩ := Tree.depth_object_le shallow
    refine ⟨inner, rfl, fun name index value inside => ?_⟩
    obtain ⟨key, inside, -⟩ := Json.mem_valuesOf.mp inside
    exact below (key, value) inside
  | array =>
    obtain ⟨inner, rfl, below⟩ := Tree.depth_array_le shallow
    refine ⟨inner, rfl, fun name index value inside => ?_⟩
    exact below value (List.mem_of_getElem? (Option.mem_toList.mp inside))

theorem decode {depth : Nat} {result : kind.Result}
    (cells : ∀ (index : Nat) entry, (kind.entries result)[index]? = some entry →
      entry.part.cell depth (given entry.name index tree) = some entry.value) :
    kind.decode (depth + 1) tree = some result := by
  rw [decode_eq_some_iff, ← kind.build_row result]
  cases laid with
  | @object names members keys distinct _ =>
    refine .object ?_ (Parts.ofMembers_of_entries ?_)
    · refine List.all_eq_true.mpr fun member inside => ?_
      obtain ⟨name, -, key⟩ := key_of_mem keys inside
      rw [key, Json.textOfUnits_unitsOfText, Option.isSome_some]
    · intro entry held
      obtain ⟨index, held⟩ := List.getElem?_of_mem held
      exact cells index entry held
  | array le => exact .array (Parts.ofElements_of_entries le cells)

end Laid

end Kind

/-! ### Decoding -/

theorem Part.decode_null_of_absent (part : Part) {value : part.Result} (solid : part ≠ .index)
    (absent : part.absent = some value) (depth : Nat) : part.decode depth .null = some value := by
  cases part with
  | node | type | name => cases absent
  | index => exact absurd rfl solid
  | text | texts | nodes | diff | unplaced => exact absent

theorem Kind.ne_null_of_decode {kind : Kind} {depth : Nat} {tree : Tree} {result : kind.Result}
    (read : kind.decode depth tree = some result) : tree ≠ .null := by
  rintro rfl
  cases Kind.decode_eq_some_iff.mp read

/-- Every rendering of a value whose types are in normal form is decoded as it. -/
theorem Part.RenderedAs.decode {part : Part} {value : part.Result} {tree : Tree}
    (rendered : part.RenderedAs value tree)
    (canonical : ∀ type ∈ part.diffTypes value, type.norm = type) {depth : Nat}
    (shallow : tree.depth ≤ depth) : part.decode depth tree = some value := by
  induction rendered generalizing depth with
  | @node kind result tree laid _ leftOut ih =>
    obtain ⟨inner, rfl, below⟩ := laid.depth_given_le shallow
    refine laid.decode fun index entry held => ?_
    rw [Part.cell_eq_some_iff]
    rcases laid.given_cases entry.name index with none | ⟨tree', one⟩
    · exact .inl ⟨none, leftOut index entry held none⟩
    · have inside : tree' ∈ given entry.name index tree := by simp [one]
      have canonical (type : DiffType) (within : type ∈ entry.part.diffTypes entry.value) :
          type.norm = type :=
        canonical type (kind.diffTypes_of_entry (List.mem_of_getElem? held) within)
      have shallow := below entry.name index tree' inside
      exact .inr ⟨tree', one, ih index entry held tree' inside canonical shallow⟩
  | @null part value solid absent => exact part.decode_null_of_absent solid absent depth
  | type type =>
    have canonical := canonical type List.mem_cons_self
    change (Json.decodeText (.string (unitsOfText type.toString))).map DiffType.ofString = _
    rw [Json.decodeText_unitsOfText, Option.map_some, DiffType.ofString_toString, canonical]
  | name name => exact Json.decodeText_unitsOfText name
  | text text =>
    rw [Part.decode_text, orElse_of_ne_null _ _ (by simp), Json.decodeText_unitsOfText]
  | texts texts =>
    obtain ⟨inner, rfl, -⟩ := Tree.depth_array_le shallow
    rw [Part.decode_texts, orElse_of_ne_null _ _ (by simp), Json.decodeList_eq_some_iff]
    refine ⟨_, _, rfl, rfl, List.forall₂_map_left_iff.mpr ?_⟩
    exact List.forall₂_same.mpr fun text _ => Json.decodeText_unitsOfText text
  | @nodes kind results trees length _ ih =>
    obtain ⟨inner, rfl, below⟩ := Tree.depth_array_le shallow
    rw [Part.decode_nodes, orElse_of_ne_null _ _ (by simp), Json.decodeList_eq_some_iff]
    refine ⟨trees, _, rfl, rfl, Json.forall₂_of_getElem? length.symm ?_⟩
    intro index tree result given found
    refine ih index result tree found given ?_ (below tree (List.mem_of_getElem? given))
    intro type inside
    exact canonical type (List.mem_flatMap.mpr ⟨result, List.mem_of_getElem? found, inside⟩)
  | @diff job tree _ ih =>
    have read : Kind.job.decode depth tree = some job := by
      refine ih (fun type inside => canonical type ?_) shallow
      exact List.mem_append_left [] inside
    exact Json.decodeNullable_eq_some_iff.mpr (.inr ⟨Kind.ne_null_of_decode read, job, read, rfl⟩)
  | index value => exact Json.decodeUnsigned_toNat value
  | @unplaced members tree rendered =>
    have read := rendered.decodeMembersOf shallow
    have solid : tree ≠ .null := by
      rintro rfl
      cases rendered
    exact Json.decodeNullable_eq_some_iff.mpr (.inr ⟨solid, members, read, rfl⟩)

/-! ### Documents -/

theorem decode_rendered (kind : Kind) {result : kind.Result} {tree : Tree} {document : String}
    (canonical : ∀ raw, .unrecognized raw ∈ kind.diffTypes result → ¬ DiffType.Names raw)
    (rendered : (Part.node kind).RenderedAs result tree) (spelled : Spelled tree document)
    (shallow : tree.depth ≤ 127) :
    Json.decode (kind.read Json.depthLimit) document = .ok result :=
  ((kind.reads Json.depthLimit).decode_iff spelled).mpr
    (rendered.decode (DiffType.forall_norm_eq_self_iff.mpr canonical) shallow)

/-- Whichever records of a plan are written as objects and whichever as lists, and whatever empty
parts of them are left out, it is decoded as the same. In a response that has a rendering no untyped
value has a binary64 number in it. -/
theorem ofJson_rendered :
    (∀ (job : JobDiff) tree document,
      (∀ raw, .unrecognized raw ∈ job.types → ¬ DiffType.Names raw) →
      (Part.node .job).RenderedAs job tree → Spelled tree document → tree.depth ≤ 127 →
        JobDiff.ofJson document = .ok job) ∧
    ∀ (response : Response) tree document,
      (∀ raw, .unrecognized raw ∈ response.types → ¬ DiffType.Names raw) →
      (Part.node .response).RenderedAs response tree → Spelled tree document → tree.depth ≤ 127 →
        Response.ofJson document = .ok response :=
  ⟨fun _ _ _ canonical rendered => decode_rendered .job canonical rendered,
    fun _ _ _ canonical rendered => decode_rendered .response canonical rendered⟩

/-- A response in a list has a job in an object, and this has a group in a list. What is empty is
left out of each. -/
theorem ofJson_rendered_mixed :
    let job : JobDiff := { type := .edited, groups := [{ type := .edited, name := "cache" }] }
    let response : Response := { diff := some job, jobModifyIndex := 7 }
    JobDiff.ofJson "\x7b\"TaskGroups\":[[\"Edited\",\"cache\"]],\"Type\":\"Edited\"\x7d"
        = .ok job ∧
      Response.ofJson
        "[\x7b\"TaskGroups\":[[\"Edited\",\"cache\"]],\"Type\":\"Edited\"\x7d,7]"
        = .ok response := by
  intro job response
  let edited : Tree := .string (unitsOfText "Edited")
  let inList : Tree := .array [edited, .string (unitsOfText "cache")]
  let inObject : Tree :=
    .object [(unitsOfText "TaskGroups", .array [inList]), (unitsOfText "Type", edited)]
  have values (name : String) : valuesOf name
      [(unitsOfText "TaskGroups", .array [inList]), (unitsOfText "Type", edited)]
        = (if "TaskGroups" = name then [.array [inList]] else [])
          ++ if "Type" = name then [edited] else [] := by
    simp only [Json.valuesOf_cons, Json.textOfUnits_unitsOfText, Option.some.injEq]
    exact congrArg _ (List.append_nil _)
  have group : (Part.node .group).RenderedAs { type := .edited, name := "cache" } inList := by
    refine .of_entries (.array (by decide)) ?_
    rintro (_ | _ | _ | _ | _ | index) entry held <;> cases held
    · exact .inr ⟨_, rfl, .type .edited⟩
    · exact .inr ⟨_, rfl, .name "cache"⟩
    · exact .inl ⟨rfl, rfl⟩
    · exact .inl ⟨rfl, rfl⟩
    · exact .inl ⟨rfl, rfl⟩
  have groups : (Part.nodes .group).RenderedAs [{ type := .edited, name := "cache" }]
      (.array [inList]) := by
    refine .nodes rfl ?_
    rintro (_ | index) result tree found found' <;> cases found
    cases found'
    exact group
  have object : (Part.node .job).RenderedAs job inObject := by
    have laid : Kind.job.Laid inObject :=
      @Kind.Laid.object .job ["TaskGroups", "Type"] _ rfl (by decide) (by decide)
    refine .of_entries laid ?_
    rintro (_ | _ | _ | _ | _ | index) entry held <;> cases held
    · exact .inr ⟨_, values "Type", .type .edited⟩
    · exact .inl ⟨values "ID", rfl⟩
    · exact .inl ⟨values "Fields", rfl⟩
    · exact .inl ⟨values "Objects", rfl⟩
    · exact .inr ⟨_, values "TaskGroups", groups⟩
  have list : (Part.node .response).RenderedAs response (.array [inObject, .number ['7']]) := by
    refine .of_entries (.array (by decide)) ?_
    rintro (_ | _ | _ | _ | index) entry held <;> cases held
    · exact .inr ⟨_, rfl, .diff object⟩
    · exact .inr ⟨_, rfl, .index 7⟩
    · exact .inl ⟨rfl, rfl⟩
    · exact .inl ⟨rfl, rfl⟩
  have known : ∀ raw, .unrecognized raw ∈ job.types → ¬ DiffType.Names raw := by
    intro raw inside
    simp [job, JobDiff.types, TaskGroupDiff.types] at inside
  have one : Json.Whole ['7'] := .digits (by decide) ⟨by simp, List.all_eq_true.mp (by decide)⟩
  have seven : Json.Numeral (['7'] ++ ([] ++ [])) := .positive (.parts one .none .none)
  have spellsEdited := Spells.ofText "Edited" (by decide)
  have spellsCache := Spells.ofText "cache" (by decide)
  have spellsGroups := Spells.named "TaskGroups" (by decide)
    (.array (.array spellsEdited (.element spellsCache .closeArray)) .closeArray)
  have spellsObject : Spells (.value inObject) _ :=
    .object spellsGroups (.nextMember (Spells.named "Type" (by decide) spellsEdited) .closeObject)
  have spellsList : Spells (.value (.array [inObject, .number ['7']])) _ :=
    .array spellsObject (.element (.number seven) .closeArray)
  exact ⟨ofJson_rendered.1 job _ _ known object ⟨_, [], spellsObject, by simp, by simp⟩ (by decide),
    ofJson_rendered.2 response _ _ known list ⟨_, [], spellsList, by simp, by simp⟩ (by decide)⟩

end DeployGate.Plan
